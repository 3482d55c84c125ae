import VideoEdit.Proofs.Text.Fields
/-!
# Cutting outside of quotes

A separator within quotes does not cut a text. Texts that close their quotes and have every
separator within them are given back when they are joined and cut.
-/
namespace VideoEdit

/-- Whether a text that begins within quotes, or outside of them, ends within quotes. -/
def quotedAfter (quote : Char) (quoted : Bool) : List Char → Bool
  | [] => quoted
  | c :: rest => quotedAfter quote (quoted != (c == quote)) rest

/-- The pieces of a text between the separators that stand outside of quotes; `quoted` says whether
the text begins within them. The quotes stay in the pieces. -/
def unquotedFields (separator quote : Char) : Bool → List Char → List (List Char)
  | _, [] => [[]]
  | quoted, c :: rest =>
    if c = separator ∧ quoted = false then [] :: unquotedFields separator quote false rest
    else match unquotedFields separator quote (quoted != (c == quote)) rest with
      | [] => [[c]]
      | field :: more => (c :: field) :: more

/-- A text that closes its quotes and that no separator outside of them cuts. -/
structure Sealed (separator quote : Char) (text : List Char) : Prop where
  closed : quotedAfter quote false text = false
  whole : unquotedFields separator quote false text = [text]

instance (separator quote : Char) (text : List Char) : Decidable (Sealed separator quote text) :=
  decidable_of_iff (_ ∧ _) ⟨fun h => ⟨h.1, h.2⟩, fun h => ⟨h.closed, h.whole⟩⟩

variable {separator quote : Char}

private theorem unquotedFields_ne_nil (separator quote : Char) (quoted : Bool) (text : List Char) :
    unquotedFields separator quote quoted text ≠ [] := by
  cases text with
  | nil => simp [unquotedFields]
  | cons c rest =>
    unfold unquotedFields
    split
    · simp
    · split <;> simp

private theorem unquotedFields_cons {quoted : Bool} {c : Char}
    (h : ¬(c = separator ∧ quoted = false)) {rest field : List Char} {more : List (List Char)}
    (hrest : unquotedFields separator quote (quoted != (c == quote)) rest = field :: more) :
    unquotedFields separator quote quoted (c :: rest) = (c :: field) :: more := by
  rw [unquotedFields, if_neg h, hrest]

private theorem unquotedFields_append (hne : separator ≠ quote) {quoted : Bool} {a : List Char}
    (h : quotedAfter quote quoted a = false) (b : List Char) :
    unquotedFields separator quote quoted (a ++ separator :: b) =
      unquotedFields separator quote quoted a ++ unquotedFields separator quote false b := by
  induction a generalizing quoted with
  | nil =>
    obtain rfl : quoted = false := h
    simp [unquotedFields]
  | cons c a ih =>
    have hrest := ih h
    by_cases hc : c = separator ∧ quoted = false
    · obtain ⟨rfl, rfl⟩ := hc
      have hsame : (false != (c == quote)) = false := by simp [hne]
      rw [hsame] at hrest
      simp [unquotedFields, hrest]
    · obtain ⟨field, more, ha⟩ := List.exists_cons_of_ne_nil
        (unquotedFields_ne_nil separator quote (quoted != (c == quote)) a)
      rw [ha, List.cons_append] at hrest
      rw [unquotedFields_cons hc ha, List.cons_append, unquotedFields_cons hc hrest,
        List.cons_append]

/-- Joined by the separator, sealed texts are given back. -/
theorem unquotedFields_intercalate (hne : separator ≠ quote) {texts : List (List Char)}
    (hnil : texts ≠ []) (h : ∀ text ∈ texts, Sealed separator quote text) :
    unquotedFields separator quote false ([separator].intercalate texts) = texts := by
  induction texts with
  | nil => exact absurd rfl hnil
  | cons text texts ih =>
    have htext := h text List.mem_cons_self
    cases texts with
    | nil => simpa using htext.whole
    | cons next texts =>
      have hrest := ih (by simp) fun other hother => h other (List.mem_cons_of_mem text hother)
      rw [List.intercalate_cons_cons, List.append_assoc, List.singleton_append,
        unquotedFields_append hne htext.closed, htext.whole, hrest]
      rfl

theorem sealed_of_not_mem {text : List Char} (hseparator : separator ∉ text)
    (hquote : quote ∉ text) : Sealed separator quote text := by
  induction text with
  | nil => exact ⟨rfl, rfl⟩
  | cons c text ih =>
    rw [List.mem_cons, not_or] at hseparator hquote
    obtain ⟨hclosed, hwhole⟩ := ih hseparator.2 hquote.2
    have hsame : (false != (c == quote)) = false := by simp [Ne.symm hquote.1]
    refine ⟨?_, unquotedFields_cons (fun hc => hseparator.1 hc.1.symm) ?_⟩
    · rw [quotedAfter, hsame, hclosed]
    · rw [hsame, hwhole]

end VideoEdit
