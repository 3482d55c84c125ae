import VideoEdit.Command.Work
import VideoEdit.Proofs.Text.Fields
/-!
# Names that are put into a path

A name that is put behind a directory is the name of the path, and the part of it behind its last
dot is the extension. So the edited form of a video, whatever its path, has the extension of the
format that is written.
-/
namespace VideoEdit

namespace Path

private theorem trimEnd_append_singleton {name : Piece} (h : isVoid name = false)
    (directory : List Piece) :
    trimEnd (directory ++ [name]) = directory ++ [name] := by
  cases directory with
  | nil => simp [trimEnd]
  | cons first rest => simp [trimEnd, h]

private theorem mem_of_mem_trimEnd {list : List Piece} {piece : Piece} (h : piece ∈ trimEnd list) :
    piece ∈ list := by
  cases list with
  | nil => exact h
  | cons first rest =>
    rcases List.mem_cons.1 h with rfl | h
    · exact List.mem_cons_self
    · refine List.mem_cons_of_mem first (List.mem_reverse.1 ?_)
      exact (List.dropWhile_sublist _).mem (List.mem_reverse.1 h)

theorem pieces_join {directory : List Piece} {name : Piece}
    (hdirectory : ∀ piece ∈ directory, '/' ∉ piece) (hslash : '/' ∉ name) :
    pieces (join directory name) = directory ++ [name] := by
  rw [pieces, join, String.toList_ofList]
  refine fields_intercalate_of_not_mem (by simp) fun piece hpiece => ?_
  rcases List.mem_append.1 hpiece with hpiece | hpiece
  · exact hdirectory piece hpiece
  · rwa [List.mem_singleton.1 hpiece]

private theorem split?_join {directory : List Piece} {name : Piece}
    (hdirectory : ∀ piece ∈ directory, '/' ∉ piece) (hslash : '/' ∉ name)
    (hvoid : isVoid name = false) (hparent : name ≠ ['.', '.']) :
    split? (join directory name) = some (trimEnd directory, name) := by
  simp [split?, pieces_join hdirectory hslash, trimEnd_append_singleton hvoid, hvoid, hparent]

theorem slash_not_mem_of_split? {path : String} {directory : List Piece} {name : Piece}
    (h : split? path = some (directory, name)) :
    (∀ piece ∈ directory, '/' ∉ piece) ∧ '/' ∉ name := by
  have hpieces {piece : Piece} (hpiece : piece ∈ trimEnd (pieces path)) : '/' ∉ piece :=
    not_mem_of_mem_fields (mem_of_mem_trimEnd hpiece)
  simp only [split?] at h
  split at h
  · cases h
  next last hlast =>
    split at h
    · cases h
    · cases h
      exact ⟨fun piece hpiece => hpieces (List.dropLast_subset _ (mem_of_mem_trimEnd hpiece)),
        hpieces (List.mem_of_getLast? hlast)⟩

private theorem splitName_append {stem extension : List Char} (hstem : stem ≠ [])
    (h : '.' ∉ extension) :
    splitName (stem ++ '.' :: extension) = (stem, some extension) := by
  have htake : ((stem ++ '.' :: extension).reverse.takeWhile (· ≠ '.')).reverse = extension := by
    have hall : ∀ c ∈ extension.reverse, decide (c ≠ '.') = true := by
      intro c hc
      simp only [decide_eq_true_eq]
      rintro rfl
      exact h (List.mem_reverse.1 hc)
    rw [List.reverse_append, List.reverse_cons, List.append_assoc,
      List.takeWhile_append_of_pos hall]
    simp
  have hlength : (stem ++ '.' :: extension).length - extension.length - 1 = stem.length := by
    simp only [List.length_append, List.length_cons]
    omega
  rw [splitName, htake, hlength, List.take_left, if_pos ⟨by simp, hstem⟩]

theorem mem_of_mem_splitName {name : Piece} {c : Char} (h : c ∈ (splitName name).1) : c ∈ name := by
  unfold splitName at h
  simp only at h
  split at h
  · exact List.mem_of_mem_take h
  · exact h

end Path

namespace Media

private theorem editedName_eq (stem : Piece) (format : OutputFormat) :
    editedName stem format = (stem ++ "_edited".toList) ++ '.' :: format.extension.toList := by
  cases format <;> simp [editedName, OutputFormat.extension]

private theorem splitName_editedName (stem : Piece) (format : OutputFormat) :
    Path.splitName (editedName stem format) =
      (stem ++ "_edited".toList, some format.extension.toList) := by
  have hpoint : '.' ∉ format.extension.toList := by cases format <;> decide
  rw [editedName_eq, Path.splitName_append (by simp) hpoint]

theorem editedName_ne (name : Piece) (format : OutputFormat) :
    editedName (Path.splitName name).1 format ≠ name := by
  intro h
  have hsplit := congrArg Prod.fst (splitName_editedName (Path.splitName name).1 format)
  rw [h] at hsplit
  have hlength := congrArg List.length hsplit
  simp at hlength

theorem slash_not_mem_editedName {stem : Piece} (h : '/' ∉ stem) (format : OutputFormat) :
    '/' ∉ editedName stem format := by
  cases format <;> simp [editedName, OutputFormat.extension, h]

theorem editedName_leads (stem : Piece) (format : OutputFormat) :
    Path.isVoid (editedName stem format) = false ∧ editedName stem format ≠ ['.', '.'] := by
  -- No name that leads nowhere or to a parent holds an underscore.
  have hmark : '_' ∈ editedName stem format := by
    cases format <;> simp [editedName]
  have hempty : editedName stem format ≠ [] := fun h => by simp [h] at hmark
  have hdot : editedName stem format ≠ ['.'] := fun h => by simp [h] at hmark
  exact ⟨by simp [Path.isVoid, hempty, hdot], fun h => by simp [h] at hmark⟩

private theorem split?_join {directory : List Piece} {stem : Piece}
    (hdirectory : ∀ piece ∈ directory, '/' ∉ piece) (hstem : '/' ∉ stem) (format : OutputFormat) :
    Path.split? (Path.join directory (editedName stem format)) =
      some (Path.trimEnd directory, editedName stem format) := by
  obtain ⟨hvoid, hparent⟩ := editedName_leads stem format
  exact Path.split?_join hdirectory (slash_not_mem_editedName hstem format) hvoid hparent

theorem split?_editedPath {input : String} {directory : List Piece} {name : Piece}
    (h : Path.split? input = some (directory, name)) (format : OutputFormat) :
    Path.split? (editedPath input format) =
      some (Path.trimEnd directory, editedName (Path.splitName name).1 format) := by
  obtain ⟨hdirectory, hname⟩ := Path.slash_not_mem_of_split? h
  simp only [editedPath, h]
  exact split?_join hdirectory (mt Path.mem_of_mem_splitName hname) format

private theorem extension?_join {directory : List Piece} {stem : Piece}
    (hdirectory : ∀ piece ∈ directory, '/' ∉ piece) (hstem : '/' ∉ stem) (format : OutputFormat) :
    Path.extension? (Path.join directory (editedName stem format)) = some format.extension := by
  simp only [Path.extension?, split?_join hdirectory hstem, Option.bind_some,
    splitName_editedName, Option.map_some, String.ofList_toList]

/-- The edited form of a video, whatever its path, has the extension of the written format. -/
theorem extension?_editedPath (input : String) (format : OutputFormat) :
    Path.extension? (editedPath input format) = some format.extension := by
  unfold editedPath
  split
  · next directory name hsplit =>
    obtain ⟨hdirectory, hname⟩ := Path.slash_not_mem_of_split? hsplit
    exact extension?_join hdirectory (mt Path.mem_of_mem_splitName hname) format
  · refine extension?_join (fun piece hpiece => ?_) (by decide) format
    exact not_mem_of_mem_fields (Path.mem_of_mem_trimEnd hpiece)

theorem exists_split?_of_inputExtension {path extension : String}
    (h : inputExtension path = .ok extension) :
    ∃ directory name, Path.split? path = some (directory, name) := by
  cases hsplit : Path.split? path with
  | some parts => exact ⟨parts.1, parts.2, rfl⟩
  | none =>
    -- A path without a name has no extension, and no video goes without one.
    have hblank : (Path.extension? path).getD "" = "" := by simp [Path.extension?, hsplit]
    simp only [inputExtension, hblank] at h
    rw [if_neg (by decide)] at h
    cases h

end Media
end VideoEdit
