import Mathlib.Data.List.DropRight
import VideoEdit.Engine.ResourceName
import VideoEdit.Files.Workspace
import VideoEdit.Proofs.Text.Fields
/-!
# Reading and writing files

Writing a file changes no other, and a path leads to a place under the name in it. A path that is a
single name leads to a direct child of the current directory, for reading and for writing, and the
names that an engine accepts are of this kind.
-/
namespace VideoEdit

/-- A path of one piece that names something in the directory it starts from. -/
def Path.IsName (name : String) : Prop :=
  '/' ∉ name.toList ∧ name.toList ∉ [[], ['.'], ['.', '.']]

private theorem Path.pieces_of_isName {name : String} (h : IsName name) :
    pieces name = [name.toList] :=
  fields_of_not_mem h.1

theorem Path.exists_trimEnd_append (list : List Piece) :
    ∃ void, list = trimEnd list ++ void ∧ ∀ piece ∈ void, isVoid piece := by
  cases list with
  | nil => exact ⟨[], rfl, by simp⟩
  | cons first rest =>
    refine ⟨rest.rtakeWhile isVoid, ?_, fun piece => List.mem_rtakeWhile_imp⟩
    have hrest := List.rdropWhile_append_rtakeWhile (p := isVoid) (l := rest)
    exact congrArg (first :: ·) hrest.symm

theorem Path.exists_pieces_of_split? {path : String} {directory : List Piece} {name : Piece}
    (h : split? path = some (directory, name)) :
    ∃ front void, pieces path = front ++ name :: void ∧ directory = trimEnd front ∧
      (∀ piece ∈ void, isVoid piece) ∧ isVoid name = false ∧ name ≠ ['.', '.'] := by
  obtain ⟨void, hpieces, hvoid⟩ := exists_trimEnd_append (pieces path)
  simp only [split?] at h
  split at h
  · cases h
  next last hlast =>
    split_ifs at h with hname
    cases h
    simp only [Bool.or_eq_true, decide_eq_true_eq, not_or, Bool.not_eq_true] at hname
    obtain ⟨front, hfront⟩ := List.getLast?_eq_some_iff.1 hlast
    rw [hfront, List.append_assoc, List.singleton_append] at hpieces
    exact ⟨front, void, hpieces, by rw [hfront, List.dropLast_concat], hvoid, hname⟩

namespace Workspace

theorem file?_put_of_ne {place other : Location} (h : other ≠ place) (w : Workspace)
    (content : Bytes) : (w.put place content).file? other = w.file? other := by
  rw [file?, put, List.lookup_cons, beq_false_of_ne h]
  show (w.files.filter fun file => file.1 ≠ place).lookup other = w.file? other
  rw [file?]
  induction w.files with
  | nil => rfl
  | cons file files ih =>
    obtain ⟨key, stored⟩ := file
    by_cases hkey : key = place
    · rw [List.filter_cons_of_neg (by simp [hkey]), ih, List.lookup_cons, hkey, beq_false_of_ne h]
    · rw [List.filter_cons_of_pos (by simp [hkey]), List.lookup_cons, List.lookup_cons, ih]

theorem write_eq_ok {w after : Workspace} {refusals : Refusals} {path : String} {content : Bytes}
    (h : w.write refusals path content = .ok after) :
    ∃ place, w.target path = .ok place ∧ after = w.put place content := by
  unfold write at h
  split at h
  · cases h
  next place hplace =>
    split at h
    · cases h
    · cases h
      exact ⟨place, hplace, rfl⟩

def locate (w : Workspace) (path : String) : Except OsError Location :=
  w.walk (w.start path) (Path.pieces path)

theorem enter_eq_ok_iff {w : Workspace} {place : Location} :
    w.enter place = .ok () ↔ w.isDirectory place := by
  unfold enter
  split_ifs with hdirectory <;> simp [hdirectory]

theorem walk_eq_ok {w : Workspace} {place last : Location} {pieces : List Piece}
    (h : w.walk place pieces = .ok last) : last = pieces.foldl step place := by
  induction pieces generalizing place with
  | nil =>
    cases h
    rfl
  | cons piece rest ih =>
    unfold walk at h
    split at h
    · exact ih h
    · cases h

private theorem step_of_void {piece : Piece} (h : Path.isVoid piece) (place : Location) :
    step place piece = place := if_pos h

theorem step_of_name {piece : Piece} (hvoid : Path.isVoid piece = false)
    (hparent : piece ≠ ['.', '.']) (place : Location) : step place piece = place ++ [piece] := by
  simp [step, hvoid, hparent]

theorem foldl_step_of_void (place : Location) {pieces : List Piece}
    (h : ∀ piece ∈ pieces, Path.isVoid piece) : pieces.foldl step place = place := by
  induction pieces with
  | nil => rfl
  | cons piece rest ih =>
    rw [List.foldl_cons, step_of_void (h piece List.mem_cons_self)]
    exact ih fun other hother => h other (List.mem_cons_of_mem piece hother)

section Named
variable {w : Workspace} {path : String} {directory : List Piece} {name : Piece} {place : Location}

theorem getLast?_locate (hsplit : Path.split? path = some (directory, name))
    (hplace : w.locate path = .ok place) : place.getLast? = some name := by
  obtain ⟨front, void, hpieces, -, hvoid, hname, hparent⟩ := Path.exists_pieces_of_split? hsplit
  rw [walk_eq_ok hplace, hpieces, List.foldl_append, List.foldl_cons, foldl_step_of_void _ hvoid,
    step_of_name hname hparent, List.getLast?_concat]

private theorem target_eq_ok (h : w.target path = .ok place) :
    ∃ parent, w.isDirectory parent ∧ place = step parent ((Path.pieces path).getLastD []) ∧
      w.isDirectory place = false := by
  unfold target at h
  dsimp only at h
  split at h
  · cases h
  next parent _ =>
    split at h
    · cases h
    next hentered =>
      split_ifs at h with hrefused
      cases h
      simp only [Bool.or_eq_true, decide_eq_true_eq, not_or, ne_eq, not_not,
        Bool.not_eq_true] at hrefused
      obtain ⟨hwhole, hfree⟩ := hrefused
      rw [hwhole] at hfree ⊢
      exact ⟨parent, enter_eq_ok_iff.1 hentered, rfl, hfree⟩

/-- What is written under a path stands under the name in it. -/
theorem getLast?_target (hsplit : Path.split? path = some (directory, name))
    (hplace : w.target path = .ok place) : place.getLast? = some name := by
  obtain ⟨front, void, hpieces, -, hvoid, hname, hparent⟩ := Path.exists_pieces_of_split? hsplit
  obtain ⟨parent, hdirectory, rfl, hfree⟩ := target_eq_ok hplace
  rcases List.eq_nil_or_concat' void with rfl | ⟨init, last, rfl⟩
  · rw [hpieces, List.getLastD_concat, step_of_name hname hparent, List.getLast?_concat]
  · -- A piece that leads nowhere would name the directory itself.
    have hlast : (Path.pieces path).getLastD [] = last := by
      rw [hpieces, ← List.cons_append, ← List.append_assoc, List.getLastD_concat]
    rw [hlast, step_of_void (hvoid last (by simp)), hdirectory] at hfree
    cases hfree

end Named

private theorem isDirectory_put {w : Workspace} {place : Location} (h : w.isDirectory place)
    (other : Location) (content : Bytes) : (w.put other content).isDirectory place := by
  simp only [isDirectory, put, Bool.or_eq_true, List.any_eq_true] at h ⊢
  refine h.imp_right ?_
  rintro ⟨⟨file, stored⟩, hmem, hprefix⟩
  by_cases hfile : file = other
  · exact ⟨(other, content), List.mem_cons_self, hfile ▸ hprefix⟩
  · exact ⟨(file, stored), by simp [hmem, hfile], hprefix⟩

private theorem walk_put {w : Workspace} {place last : Location} {pieces : List Piece}
    (h : w.walk place pieces = .ok last) (other : Location) (content : Bytes) :
    (w.put other content).walk place pieces = .ok last := by
  induction pieces generalizing place with
  | nil => exact h
  | cons piece rest ih =>
    unfold walk at h ⊢
    split at h
    next hentered =>
      rw [enter_eq_ok_iff.2 (isDirectory_put (enter_eq_ok_iff.1 hentered) other content)]
      exact ih h
    · cases h

theorem read_put_of_ne {w : Workspace} {refusals : Refusals} {path : String} {content : Bytes}
    {place : Location} (h : w.read refusals path = .ok content) (hne : w.locate path ≠ .ok place)
    (written : Bytes) : (w.put place written).read refusals path = .ok content := by
  unfold read at h ⊢
  split at h
  · cases h
  next found hfound =>
    have hplace : found ≠ place := by
      rintro rfl
      exact hne hfound
    have hwalk : (w.put place written).walk ((w.put place written).start path)
        (Path.pieces path) = .ok found := walk_put hfound place written
    rw [hwalk]
    simp only [file?_put_of_ne hplace]
    split at h
    · cases h
    · exact h
    · cases h

variable {name : String}

private theorem step_of_isName (h : Path.IsName name) (place : Location) :
    step place name.toList = place ++ [name.toList] := by
  have hname := h.2
  simp only [List.mem_cons, List.not_mem_nil, or_false, not_or] at hname
  obtain ⟨hempty, hdot, hparent⟩ := hname
  exact step_of_name (by simp [Path.isVoid, hempty, hdot]) hparent place

private theorem start_of_isName (h : Path.IsName name) (w : Workspace) :
    w.start name = w.current := by
  rw [start, if_neg]
  intro hslash
  exact h.1 (List.mem_of_mem_head? hslash)

private theorem enter_current (w : Workspace) : w.enter w.current = .ok () :=
  enter_eq_ok_iff.2 (by simp [isDirectory])

theorem walk_of_isName (h : Path.IsName name) (w : Workspace) :
    w.walk (w.start name) (Path.pieces name) = .ok (w.current ++ [name.toList]) := by
  rw [start_of_isName h, Path.pieces_of_isName h, walk, enter_current]
  simp only [walk, step_of_isName h]

private theorem target_of_isName (h : Path.IsName name) {w : Workspace}
    (hfree : w.isDirectory (w.current ++ [name.toList]) = false) :
    w.target name = .ok (w.current ++ [name.toList]) := by
  have hne : name.toList ≠ [] := fun hnil => h.2 (by simp [hnil])
  have hnamed : (([name.toList] : List Piece).reverse.dropWhile (· = [])).reverse =
      [name.toList] := by
    simp [hne]
  simp only [target, Path.pieces_of_isName h, hnamed, List.dropLast_singleton, walk,
    start_of_isName h, enter_current, List.getLastD_cons, List.getLastD_nil, step_of_isName h,
    hfree]
  simp

theorem write_of_isName (h : Path.IsName name) (directory : Location) (content : Bytes) :
    (⟨directory, []⟩ : Workspace).write {} name content =
      .ok ⟨directory, [(directory ++ [name.toList], content)]⟩ := by
  have hfree : (⟨directory, []⟩ : Workspace).isDirectory (directory ++ [name.toList]) = false := by
    rw [isDirectory, List.any_nil, Bool.or_false, Bool.eq_false_iff]
    intro hprefix
    have hle : directory.length + 1 ≤ directory.length := by
      simpa using (List.isPrefixOf_iff_prefix.1 hprefix).length_le
    omega
  rw [write, target_of_isName h hfree]
  rfl

end Workspace

namespace ResourceName

theorem isName_of_isPlain {name : String} (h : isPlain name) : Path.IsName name := by
  simp only [isPlain, Bool.and_eq_true, bne_iff_ne, List.all_eq_true] at h
  obtain ⟨⟨⟨⟨⟨hblank, hdot⟩, hparent⟩, -⟩, -⟩, hchars⟩ := h
  refine ⟨fun hslash => (hchars '/' hslash).1.1 rfl, ?_⟩
  intro hname
  simp only [List.mem_cons, List.not_mem_nil, or_false] at hname
  rcases hname with hname | hname | hname
  · simp [isAllBlank, hname] at hblank
  · exact hdot (String.ext hname)
  · exact hparent (String.ext hname)

/-- Names are accepted exactly if both are plain and they differ. -/
theorem check_eq_ok_iff {input output : String} :
    check input output = .ok () ↔ isPlain input ∧ isPlain output ∧ input ≠ output := by
  unfold check
  cases isPlain input <;> cases isPlain output <;> by_cases h : input = output <;> simp [h]

end ResourceName
end VideoEdit
