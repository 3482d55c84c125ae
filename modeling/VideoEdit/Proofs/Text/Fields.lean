import Mathlib.Data.List.Basic
import VideoEdit.Text.Fields
/-!
# Cutting a joined text

A text that was joined by a character is cut into the pieces of its parts.
-/
namespace VideoEdit
variable {separator : Char}

theorem fields_cons_of_ne {c : Char} (h : c ≠ separator) {rest field : List Char}
    {more : List (List Char)} (hrest : fields separator rest = field :: more) :
    fields separator (c :: rest) = (c :: field) :: more := by
  rw [fields, if_neg h, hrest]

private theorem fields_append (a b : List Char) :
    fields separator (a ++ separator :: b) = fields separator a ++ fields separator b := by
  induction a with
  | nil => simp [fields]
  | cons c a ih =>
    by_cases hc : c = separator
    · simp [fields, hc, ih]
    · obtain ⟨field, more, ha⟩ := List.exists_cons_of_ne_nil (fields_ne_nil separator a)
      have hjoined : fields separator (a ++ separator :: b) =
          field :: (more ++ fields separator b) := by
        rw [ih, ha, List.cons_append]
      rw [fields_cons_of_ne hc ha, List.cons_append, fields_cons_of_ne hc hjoined, List.cons_append]

theorem fields_of_not_mem {text : List Char} (h : separator ∉ text) :
    fields separator text = [text] := by
  induction text with
  | nil => rfl
  | cons c text ih =>
    rw [List.mem_cons, not_or] at h
    exact fields_cons_of_ne (Ne.symm h.1) (ih h.2)

theorem fields_intercalate {texts : List (List Char)} (h : texts ≠ []) :
    fields separator ([separator].intercalate texts) = texts.flatMap (fields separator) := by
  induction texts with
  | nil => exact absurd rfl h
  | cons text texts ih =>
    cases texts with
    | nil => simp
    | cons next texts =>
      rw [List.intercalate_cons_cons, List.append_assoc, List.singleton_append, fields_append,
        ih (by simp)]
      exact List.flatMap_cons.symm

theorem fields_intercalate_of_not_mem {texts : List (List Char)} (hne : texts ≠ [])
    (h : ∀ text ∈ texts, separator ∉ text) :
    fields separator ([separator].intercalate texts) = texts := by
  rw [fields_intercalate hne, List.flatMap_congr fun text ht => fields_of_not_mem (h text ht)]
  exact List.flatMap_singleton' texts

theorem mem_of_mem_intercalate {texts : List (List Char)} {joint : List Char} {c : Char}
    (h : c ∈ joint.intercalate texts) : c ∈ joint ∨ ∃ text ∈ texts, c ∈ text := by
  induction texts with
  | nil => cases h
  | cons text texts ih =>
    cases texts with
    | nil => exact .inr ⟨text, List.mem_cons_self, by simpa using h⟩
    | cons next texts =>
      rw [List.intercalate_cons_cons, List.mem_append, List.mem_append] at h
      rcases h with (hc | hc) | hc
      · exact .inr ⟨text, List.mem_cons_self, hc⟩
      · exact .inl hc
      · obtain hjoint | ⟨other, hother, hmem⟩ := ih hc
        · exact .inl hjoint
        · exact .inr ⟨other, List.mem_cons_of_mem text hother, hmem⟩

private theorem fields_flatMap_concat (texts : List (List Char)) :
    fields separator (texts.flatMap (· ++ [separator])) =
      texts.flatMap (fields separator) ++ [[]] := by
  induction texts with
  | nil => rfl
  | cons text texts ih =>
    rw [List.flatMap_cons, List.append_assoc, List.singleton_append, fields_append, ih,
      List.flatMap_cons, List.append_assoc]

private theorem flatMap_fields_concat (text : List Char) :
    (fields separator text).flatMap (· ++ [separator]) = text ++ [separator] := by
  induction text with
  | nil => rfl
  | cons c text ih =>
    by_cases hc : c = separator
    · rw [fields, if_pos hc, List.flatMap_cons, ih, hc]
      rfl
    · obtain ⟨field, more, htext⟩ := List.exists_cons_of_ne_nil (fields_ne_nil separator text)
      rw [htext, List.flatMap_cons] at ih
      rw [fields_cons_of_ne hc htext, List.flatMap_cons, List.cons_append, List.cons_append, ih,
        List.cons_append]

/-- Texts that are closed by the character and joined give back their pieces and nothing more. -/
theorem flatMap_concat_eq_iff {texts texts' : List (List Char)} :
    texts.flatMap (· ++ [separator]) = texts'.flatMap (· ++ [separator]) ↔
      texts.flatMap (fields separator) = texts'.flatMap (fields separator) := by
  have hclosed (texts : List (List Char)) :
      (texts.flatMap (fields separator)).flatMap (· ++ [separator]) =
        texts.flatMap (· ++ [separator]) := by
    rw [List.flatMap_assoc]
    exact List.flatMap_congr fun text _ => flatMap_fields_concat text
  constructor
  · intro h
    have hfields := congrArg (fields separator) h
    rw [fields_flatMap_concat, fields_flatMap_concat] at hfields
    exact List.append_cancel_right hfields
  · intro h
    rw [← hclosed texts, h, hclosed]

theorem mem_of_mem_fields {text field : List Char} (h : field ∈ fields separator text) :
    ∀ c ∈ field, c ∈ text := by
  induction text generalizing field with
  | nil =>
    rw [fields, List.mem_singleton] at h
    simp [h]
  | cons d text ih =>
    intro c hc
    by_cases hd : d = separator
    · rw [fields, if_pos hd, List.mem_cons] at h
      rcases h with rfl | h
      · cases hc
      · exact List.mem_cons_of_mem d (ih h c hc)
    · obtain ⟨first, more, htext⟩ := List.exists_cons_of_ne_nil (fields_ne_nil separator text)
      rw [fields_cons_of_ne hd htext, List.mem_cons] at h
      rcases h with rfl | h
      · rcases List.mem_cons.1 hc with rfl | hc
        · exact List.mem_cons_self
        · exact List.mem_cons_of_mem d (ih (by rw [htext]; exact List.mem_cons_self) c hc)
      · exact List.mem_cons_of_mem d (ih (by rw [htext]; exact List.mem_cons_of_mem _ h) c hc)

theorem not_mem_of_mem_fields {text field : List Char} (h : field ∈ fields separator text) :
    separator ∉ field := by
  induction text generalizing field with
  | nil =>
    rw [fields, List.mem_singleton] at h
    simp [h]
  | cons d text ih =>
    by_cases hd : d = separator
    · rw [fields, if_pos hd, List.mem_cons] at h
      rcases h with rfl | h
      · simp
      · exact ih h
    · obtain ⟨first, more, htext⟩ := List.exists_cons_of_ne_nil (fields_ne_nil separator text)
      rw [fields_cons_of_ne hd htext, List.mem_cons] at h
      rcases h with rfl | h
      · rw [List.mem_cons, not_or]
        exact ⟨Ne.symm hd, ih (by rw [htext]; exact List.mem_cons_self)⟩
      · exact ih (by rw [htext]; exact List.mem_cons_of_mem _ h)

end VideoEdit
