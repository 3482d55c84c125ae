import VideoEdit.Proofs.Number.Digits
import VideoEdit.Proofs.Yaml.Flow
/-!
# Scalars in flow collections

A word that stands in a flow collection is a plain scalar up to the colon, comma or brace behind it.
A string in double quotes is read back character by character, its escapes by their digits.
-/
namespace VideoEdit

namespace Yaml

private theorem natInBase?_hexDigits (width n : Nat) :
    natInBase? 16 (hexDigits width n) = some (n % 16 ^ width) := by
  induction width generalizing n with
  | zero => simp [hexDigits, natInBase?, Nat.mod_one]
  | succ width ih =>
    have hdigit : ∀ d < 16, digitIn? 16 (Nat.digitChar d) = some d := by decide
    rw [hexDigits, natInBase?_concat, ih, Option.bind_some,
      hdigit (n % 16) (Nat.mod_lt n (by decide)), Option.map_some, Nat.pow_succ',
      Nat.mod_mul, Nat.add_comm]

@[simp] theorem length_hexDigits (width n : Nat) : (hexDigits width n).length = width := by
  induction width generalizing n with
  | zero => rfl
  | succ width ih => rw [hexDigits, List.length_append, ih, List.length_singleton]

private theorem codePoint?_hexDigits (c : Char) :
    (natInBase? 16 (hexDigits 8 c.toNat)).bind Quoted.codePoint? = some c := by
  have hvalid : c.toNat.isValidChar := c.valid
  have hlt : c.toNat < 16 ^ 8 := by
    rcases hvalid with h | h <;> omega
  rw [natInBase?_hexDigits, Nat.mod_eq_of_lt hlt, Option.bind_some, Quoted.codePoint?,
    if_pos hvalid, Char.ofNat_toNat]

namespace Cursor

private theorem skip_skip (c : Cursor) (m n : Nat) : (c.skip m).skip n = c.skip (m + n) := by
  simp only [skip, List.drop_drop, Nat.add_assoc]

theorem rest_skip {c : Cursor} {taken rest : List Char} (h : c.rest = taken ++ rest) :
    (c.skip taken.length).rest = rest := by
  rw [skip, h, List.drop_left]

theorem isAt_of_rest {c : Cursor} {x : Char} {rest : List Char} (h : c.rest = x :: rest)
    (y : Char) : c.isAt y = (x == y) := by
  simp [isAt, h]

private theorem atDocumentMarker_of_column {c : Cursor} (h : 0 < c.mark.column) :
    c.atDocumentMarker = false := by
  simp [atDocumentMarker, Nat.ne_of_gt h]

end Cursor

section Words
variable {c : Char}

theorem ne_of_isWordChar (h : isWordChar c) {x : Char} (hx : isWordChar x = false) : c ≠ x := by
  rintro rfl
  rw [h] at hx
  cases hx

theorem isGap_of_isWordChar (h : isWordChar c) : isGap c = false := by
  simp [isGap, ne_of_isWordChar h (x := ' ') (by decide),
    ne_of_isWordChar h (x := '\t') (by decide)]

theorem isBreak_of_isWordChar (h : isWordChar c) : isBreak c = false := by
  simp [isBreak, ne_of_isWordChar h (x := '\n') (by decide),
    ne_of_isWordChar h (x := '\r') (by decide), ne_of_isWordChar h (x := '\u0085') (by decide),
    ne_of_isWordChar h (x := '\u2028') (by decide), ne_of_isWordChar h (x := '\u2029') (by decide)]

private theorem isFlowIndicator_of_isWordChar (h : isWordChar c) :
    Plain.isFlowIndicator c = false := by
  simp [Plain.isFlowIndicator, ne_of_isWordChar h (x := ',') (by decide),
    ne_of_isWordChar h (x := '[') (by decide), ne_of_isWordChar h (x := ']') (by decide),
    ne_of_isWordChar h (x := '\x7b') (by decide), ne_of_isWordChar h (x := '\x7d') (by decide)]

/-- What can stand behind a word: a comma, a closing brace, or a colon and a blank. -/
def EndsWord (rest : List Char) : Prop :=
  ∃ more, rest = ',' :: more ∨ rest = '\x7d' :: more ∨ rest = ':' :: ' ' :: more

private theorem EndsWord.part?_eq {rest : List Char} (h : EndsWord rest) :
    Plain.part? true rest = some [] := by
  obtain ⟨more, rfl | rfl | rfl⟩ := h <;>
    simp [Plain.part?, Plain.isFlowIndicator, isGap, isBreak, atGap]

private theorem part?_word {word rest : List Char} (hword : ∀ c ∈ word, isWordChar c)
    (hrest : EndsWord rest) : Plain.part? true (word ++ rest) = some word := by
  induction word with
  | nil => exact hrest.part?_eq
  | cons c word ih =>
    have hc := hword c List.mem_cons_self
    have hcolon : (c == ':') = false := by simpa using ne_of_isWordChar hc (x := ':') (by decide)
    rw [List.cons_append, Plain.part?, ih fun d hd => hword d (List.mem_cons_of_mem c hd)]
    simp [isGap_of_isWordChar hc, isBreak_of_isWordChar hc, isFlowIndicator_of_isWordChar hc,
      hcolon]

theorem read?_word (w : Word) {margin : Nat} {c : Cursor} {rest : List Char}
    (hc : c.rest = w.text ++ rest) (hcolumn : 0 < c.mark.column) (hrest : EndsWord rest) :
    Plain.read? true margin c = some (w.text, false, c.skip w.text.length) := by
  obtain ⟨x, more, hx⟩ := List.exists_cons_of_ne_nil w.nonempty
  have hhash : c.isAt '#' = false := by
    have hhead : c.rest = x :: (more ++ rest) := by rw [hc, hx, List.cons_append]
    simpa [Cursor.isAt_of_rest hhead] using
      ne_of_isWordChar (w.isWord x (by simp [hx])) (x := '#') (by decide)
  have hends : (c.skip w.text.length).at? (fun x => isGap x || isBreak x) = false := by
    rw [Cursor.at?, Cursor.rest_skip hc]
    obtain ⟨more, rfl | rfl | rfl⟩ := hrest <;> simp [isGap, isBreak]
  rw [Plain.read?, Plain.parts?, Cursor.atDocumentMarker_of_column hcolumn, hhash, hc,
    part?_word w.isWord hrest]
  simp [w.nonempty, hends]

end Words

section Strings
variable {x : Char} {fuel : Nat} {c : Cursor} {rest : List Char}

private theorem part?_graphic (hx : isGraphic x) (hc : c.rest = x :: rest) :
    Quoted.part? '"' (fuel + 1) c =
      (Quoted.part? '"' fuel (c.skip 1)).map fun (part, c) => (x :: part, c) := by
  have hne (y : Char) (hy : isGraphic y = false) : x ≠ y := by
    rintro rfl
    rw [hx] at hy
    cases hy
  rw [Quoted.part?, hc]
  simp [isGap, isBreak, hne ' ' (by decide), hne '\t' (by decide), hne '\n' (by decide),
    hne '\r' (by decide), hne '\u0085' (by decide), hne '\u2028' (by decide),
    hne '\u2029' (by decide), hne '"' (by decide), hne '\\' (by decide)]

private theorem part?_escape (hc : c.rest = '\\' :: 'U' :: hexDigits 8 x.toNat ++ rest) :
    Quoted.part? '"' (fuel + 1) c =
      (Quoted.part? '"' fuel (c.skip 10)).map fun (part, c) => (x :: part, c) := by
  have htake : (hexDigits 8 x.toNat ++ rest).take 8 = hexDigits 8 x.toNat :=
    List.take_left' (length_hexDigits 8 x.toNat)
  rw [Quoted.part?, hc]
  simp [isGap, isBreak, Quoted.escapeLength?, htake, codePoint?_hexDigits]

private theorem part?_quotedChar (hc : c.rest = quotedChar x ++ rest) :
    Quoted.part? '"' (fuel + 1) c =
      (Quoted.part? '"' fuel (c.skip (quotedChar x).length)).map
        fun (part, c) => (x :: part, c) := by
  unfold quotedChar at hc ⊢
  split at hc
  · next hx =>
    rw [if_pos hx]
    exact part?_graphic hx hc
  · next hx =>
    rw [if_neg hx, List.length_cons, List.length_cons, length_hexDigits]
    exact part?_escape hc

private theorem part?_quoted (text : List Char) (hfuel : text.length < fuel)
    (hc : c.rest = text.flatMap quotedChar ++ '"' :: rest) :
    Quoted.part? '"' fuel c = some (text, c.skip (text.flatMap quotedChar).length) := by
  induction text generalizing fuel c with
  | nil =>
    obtain ⟨fuel, rfl⟩ := Nat.exists_eq_add_one.2 hfuel
    rw [List.flatMap_nil, List.nil_append] at hc
    rw [Quoted.part?, hc]
    rfl
  | cons x text ih =>
    obtain ⟨fuel, rfl⟩ := Nat.exists_eq_add_one.2 (Nat.zero_lt_of_lt hfuel)
    rw [List.flatMap_cons, List.append_assoc] at hc
    rw [part?_quotedChar hc, ih (Nat.lt_of_succ_lt_succ hfuel) (Cursor.rest_skip hc),
      Option.map_some, Cursor.skip_skip, List.flatMap_cons, List.length_append]

private theorem length_le_length_flatMap_quotedChar (text : List Char) :
    text.length ≤ (text.flatMap quotedChar).length := by
  induction text with
  | nil => exact Nat.le_refl 0
  | cons x text ih =>
    have hpos : 1 ≤ (quotedChar x).length := by
      unfold quotedChar
      split <;> simp
    rw [List.flatMap_cons, List.length_append, List.length_cons]
    omega

/-- A string is the whole of a quoted scalar. -/
theorem read?_quoted (text : List Char) (hc : c.rest = '"' :: quotedTail text ++ rest) :
    Quoted.read? '"' c = some (text, c.skip ('"' :: quotedTail text).length) := by
  have hskip : (c.skip 1).rest = text.flatMap quotedChar ++ '"' :: rest := by
    rw [Cursor.skip, hc]
    simp [quotedTail]
  have hcolumn : 0 < (c.skip 1).mark.column := Nat.succ_pos _
  have hfuel : text.length < (c.skip 1).rest.length + 1 := by
    have hle := length_le_length_flatMap_quotedChar text
    rw [hskip, List.length_append]
    omega
  have hclose : ((c.skip 1).skip (text.flatMap quotedChar).length).isAt '"' :=
    (Cursor.isAt_of_rest (Cursor.rest_skip hskip) '"').trans (by decide)
  rw [Quoted.read?, Quoted.parts?, Cursor.atDocumentMarker_of_column hcolumn,
    part?_quoted text hfuel hskip]
  simp only [Bool.false_eq_true, if_false, bind, Option.bind, hclose, if_true]
  rw [Cursor.skip_skip, Cursor.skip_skip, Nat.add_comm, List.length_cons, quotedTail,
    List.length_append, List.length_singleton, Nat.add_right_comm]
  rfl

end Strings

end Yaml
end VideoEdit
