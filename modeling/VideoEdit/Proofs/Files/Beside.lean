import VideoEdit.Proofs.Files.Extension
import VideoEdit.Proofs.Files.Workspace
/-!
# The file beside a video

Unless another path is asked for, an edited video is written beside the video itself: in the same
directory, whatever the path looks like and wherever it leads, under another name, and with an
extension that is accepted for the format.
-/
namespace VideoEdit

namespace Path

private theorem trimEnd_trimEnd (list : List Piece) : trimEnd (trimEnd list) = trimEnd list := by
  cases list with
  | nil => rfl
  | cons first rest => exact congrArg (first :: ·) (List.rdropWhile_idempotent isVoid rest)

private theorem trimEnd_of_split? {path : String} {directory : List Piece} {name : Piece}
    (h : split? path = some (directory, name)) : trimEnd directory = directory := by
  obtain ⟨front, void, -, rfl, -⟩ := exists_pieces_of_split? h
  exact trimEnd_trimEnd front

private theorem head?_pieces (path : String) :
    (pieces path).head? = some [] ↔ path.toList = [] ∨ path.toList.head? = some '/' := by
  unfold pieces
  cases path.toList with
  | nil => simp [fields]
  | cons c rest =>
    by_cases hc : c = '/'
    · simp [fields, hc]
    · obtain ⟨field, more, hrest⟩ := List.exists_cons_of_ne_nil (fields_ne_nil '/' rest)
      simp [fields_cons_of_ne hc hrest, hc]

end Path

namespace Workspace
variable {w : Workspace} {path : String} {directory : List Piece} {name : Piece}

private theorem walk_append {place last : Location} {front back : List Piece} :
    w.walk place (front ++ back) = .ok last ↔
      ∃ mid, w.walk place front = .ok mid ∧ w.walk mid back = .ok last := by
  induction front generalizing place with
  | nil => simp [walk]
  | cons piece front ih =>
    rw [List.cons_append, walk, walk]
    cases w.enter place with
    | ok entered => exact ih
    | error e => simp

private theorem isDirectory_of_walk_cons {place last : Location} {piece : Piece} {rest : List Piece}
    (h : w.walk place (piece :: rest) = .ok last) : w.isDirectory place := by
  unfold walk at h
  split at h
  next hentered => exact enter_eq_ok_iff.1 hentered
  · cases h

private theorem start_eq (h : Path.split? path = some (directory, name)) (w : Workspace) :
    w.start path = if directory.head? = some [] then [] else w.current := by
  obtain ⟨front, void, hpieces, rfl, -, hvoid, -⟩ := Path.exists_pieces_of_split? h
  have hfirst := Path.head?_pieces path
  have hslash : path.toList.head? = some '/' ↔ (Path.trimEnd front).head? = some [] := by
    rw [hpieces] at hfirst
    cases front with
    | nil =>
      -- The path starts with its name, which is not empty.
      have hname : name ≠ [] := by
        rintro rfl
        cases hvoid
      simp only [List.nil_append, List.head?_cons, Option.some_inj, hname, false_iff,
        not_or] at hfirst
      simp [hfirst.2, Path.trimEnd]
    | cons first front =>
      have htext : path.toList ≠ [] := by
        intro hnil
        simp [Path.pieces, hnil, fields] at hpieces
      simpa [htext, Path.trimEnd] using hfirst.symm
  simp only [start, hslash]

/-- A path with a name leads into its directory, and there to the name. -/
theorem exists_parent_of_locate {place : Location}
    (h : Path.split? path = some (directory, name)) (hplace : w.locate path = .ok place) :
    ∃ parent, w.walk (w.start path) directory = .ok parent ∧ w.isDirectory parent ∧
      place = parent ++ [name] := by
  obtain ⟨front, void, hpieces, rfl, hbehind, hvoid, hparent⟩ := Path.exists_pieces_of_split? h
  obtain ⟨between, hfront, hbetween⟩ := Path.exists_trimEnd_append front
  rw [locate, hpieces, walk_append] at hplace
  obtain ⟨entered, hwalk, hname⟩ := hplace
  rw [hfront, walk_append] at hwalk
  obtain ⟨parent, hwalk, hrest⟩ := hwalk
  rw [walk_eq_ok hrest, foldl_step_of_void _ hbetween] at hname
  refine ⟨parent, hwalk, isDirectory_of_walk_cons hname, ?_⟩
  rw [walk_eq_ok hname, List.foldl_cons, step_of_name hvoid hparent, foldl_step_of_void _ hbehind]

private theorem target_join {parent : Location} (hdirectory : ∀ piece ∈ directory, '/' ∉ piece)
    (hslash : '/' ∉ name) (hvoid : Path.isVoid name = false) (hparent : name ≠ ['.', '.'])
    (hwalk : w.walk (w.start (Path.join directory name)) directory = .ok parent)
    (hentered : w.isDirectory parent) (hfree : w.isDirectory (parent ++ [name]) = false) :
    w.target (Path.join directory name) = .ok (parent ++ [name]) := by
  have hpieces := Path.pieces_join hdirectory hslash
  have hne : name ≠ [] := by
    rintro rfl
    cases hvoid
  have hnamed : ((directory ++ [name]).reverse.dropWhile (· = [])).reverse = directory ++ [name] := by
    simp [hne]
  simp only [target, hpieces, hnamed, List.dropLast_concat, hwalk, enter_eq_ok_iff.2 hentered,
    List.getLastD_concat, step_of_name hvoid hparent, hfree]
  simp

end Workspace

namespace Media

private theorem ofExtension?_extension (format : OutputFormat) :
    OutputFormat.ofExtension? format.extension = some format := by
  cases format <;> decide

/-- Unless another path is asked for, an edited video is written in the directory of the video,
under another name and with an extension that is accepted for the format. Wherever the path of the
video leads, the path of the edited one leads to its name in the same directory. -/
theorem editedPath_beside {input extension : String} (h : inputExtension input = .ok extension)
    (format : OutputFormat) :
    ∃ directory name edited,
      Path.split? input = some (directory, name) ∧
        Path.split? (editedPath input format) = some (directory, edited) ∧
        edited ≠ name ∧ editedPath input format ≠ input ∧
        checkOutput (editedPath input format) format = .ok () ∧
        ∀ (w : Workspace) (place : Location), w.locate input = .ok place →
          ∃ parent, place = parent ++ [name] ∧
            (w.isDirectory (parent ++ [edited]) = false →
              w.target (editedPath input format) = .ok (parent ++ [edited])) := by
  obtain ⟨directory, name, hsplit⟩ := exists_split?_of_inputExtension h
  have hedited := split?_editedPath hsplit format
  rw [Path.trimEnd_of_split? hsplit] at hedited
  have hne := editedName_ne name format
  refine ⟨directory, name, _, hsplit, hedited, hne, ?_, ?_, fun w place hplace => ?_⟩
  · intro hsame
    rw [hsame, hsplit, Option.some_inj, Prod.mk.injEq] at hedited
    exact hne hedited.2.symm
  · simp only [checkOutput, extension?_editedPath, Option.getD_some, ofExtension?_extension,
      if_true]
  · obtain ⟨parent, hwalk, hentered, rfl⟩ := Workspace.exists_parent_of_locate hsplit hplace
    obtain ⟨hdirectory, hname⟩ := Path.slash_not_mem_of_split? hsplit
    refine ⟨parent, rfl, fun hfree => ?_⟩
    rw [Workspace.start_eq hsplit w, ← Workspace.start_eq hedited w] at hwalk
    simp only [editedPath, hsplit] at hwalk ⊢
    have hslash := slash_not_mem_editedName (mt Path.mem_of_mem_splitName hname) format
    obtain ⟨hvoid, hparent⟩ := editedName_leads (Path.splitName name).1 format
    exact Workspace.target_join hdirectory hslash hvoid hparent hwalk hentered hfree

theorem editedPath_beside_dots :
    let input := "./clips//../My.Holiday.MOV"
    let w : Workspace := ⟨["home".toList],
      [(["home".toList, "clips".toList, "old.mov".toList], []),
        (["home".toList, "My.Holiday.MOV".toList], [])]⟩
    inputExtension input = .ok "mov" ∧
      w.locate input = .ok ["home".toList, "My.Holiday.MOV".toList] ∧
      editedPath input .gif = "./clips//../My.Holiday_edited.gif" ∧
      ∃ directory name edited,
        Path.split? input = some (directory, name) ∧
          Path.split? (editedPath input .gif) = some (directory, edited) ∧
          edited ≠ name ∧ editedPath input .gif ≠ input ∧
          checkOutput (editedPath input .gif) .gif = .ok () ∧
          ∀ (w : Workspace) (place : Location), w.locate input = .ok place →
            ∃ parent, place = parent ++ [name] ∧
              (w.isDirectory (parent ++ [edited]) = false →
                w.target (editedPath input .gif) = .ok (parent ++ [edited])) := by
  have hextension : inputExtension "./clips//../My.Holiday.MOV" = .ok "mov" := by rfl
  exact ⟨hextension, by decide, by decide, editedPath_beside hextension .gif⟩

end Media
end VideoEdit
