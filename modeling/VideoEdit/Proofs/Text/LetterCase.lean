import Mathlib.Data.List.TakeWhile
import VideoEdit.Number.Numeral
import VideoEdit.Proofs.Text.CharacterClass
import VideoEdit.Text.Fields
/-!
# Texts with their capitals lowered

Lowering the ASCII capitals of a text changes no class of its characters, neither its length in
bytes nor the places at which it is cut, and not the number that it is read as.
-/
namespace VideoEdit

private theorem toLower_eq_or {P : Char → Prop} [DecidablePred P]
    (h : foldedChars.all fun c => P c) (c : Char) : c.toLower = c ∨ P c :=
  (toLower_eq_or_mem c).imp_right fun hmem => of_decide_eq_true (List.all_eq_true.1 h c hmem)

private theorem apply_toLower {α : Type} [DecidableEq α] {P : Char → α}
    (h : foldedChars.all fun c => P c.toLower = P c) (c : Char) : P c.toLower = P c := by
  rcases toLower_eq_or h c with hsame | heq
  · rw [hsame]
  · exact heq

@[simp] theorem toLower_toLower (c : Char) : c.toLower.toLower = c.toLower :=
  apply_toLower (by decide) c

@[simp] theorem foldCase_toLower (c : Char) : foldCase c.toLower = foldCase c :=
  apply_toLower (by decide) c

@[simp] theorem utf8Size_toLower (c : Char) : c.toLower.utf8Size = c.utf8Size :=
  apply_toLower (by decide) c

@[simp] theorem isWord_toLower (c : Char) : isWord c.toLower = isWord c := by
  rw [← isWord_foldCase, foldCase_toLower, isWord_foldCase]

@[simp] theorem isDecimalDigit_toLower (c : Char) :
    isDecimalDigit c.toLower = isDecimalDigit c := by
  rw [← isDecimalDigit_foldCase, foldCase_toLower, isDecimalDigit_foldCase]

@[simp] theorem isBlank_toLower (c : Char) : isBlank c.toLower = isBlank c :=
  apply_toLower (by decide) c

@[simp] theorem isDigit_toLower (c : Char) : c.toLower.isDigit = c.isDigit :=
  apply_toLower (by decide) c

private theorem toLower_eq_or_isAlpha (c : Char) :
    c.toLower = c ∨ c.isAlpha ∧ c.toLower.isAlpha := by
  rcases toLower_eq_or (P := fun c => c.toLower = c ∨ c.isAlpha ∧ c.toLower.isAlpha) (by decide) c
    with hsame | hletter
  · exact Or.inl hsame
  · exact hletter

private theorem toLower_eq_iff {c d : Char} (h : d.isAlpha = false) : c.toLower = d ↔ c = d := by
  constructor
  · rintro rfl
    rcases toLower_eq_or_isAlpha c with hsame | ⟨-, hletter⟩
    · exact hsame.symm
    · rw [h] at hletter
      cases hletter
  · rintro rfl
    rcases toLower_eq_or_isAlpha c with hsame | ⟨hletter, -⟩
    · exact hsame
    · rw [h] at hletter
      cases hletter

private theorem toLower_of_isDigit {c : Char} (h : c.isDigit) : c.toLower = c := by
  rcases toLower_eq_or (P := fun c => c.isDigit = false) (by decide) c with hsame | hletter
  · exact hsame
  · rw [hletter] at h
    cases h

@[simp] theorem CharClass.accepts_toLower (cls : CharClass) (c : Char) :
    cls.accepts c.toLower = cls.accepts c := by
  cases cls with
  | literal a => rw [accepts, accepts, foldCase_toLower]
  | digit => exact isDecimalDigit_toLower c
  | blank => exact isBlank_toLower c
  | gap =>
    have hhyphen : c.toLower = '-' ↔ c = '-' := toLower_eq_iff rfl
    rw [accepts, accepts, isBlank_toLower, Bool.beq_eq_decide_eq, decide_eq_decide.2 hhyphen,
      ← Bool.beq_eq_decide_eq]

section Texts
variable (text : List Char)

@[simp] theorem lowerAscii_cons (c : Char) :
    lowerAscii (c :: text) = c.toLower :: lowerAscii text := rfl

@[simp] theorem length_lowerAscii : (lowerAscii text).length = text.length := List.length_map _

@[simp] theorem lowerAscii_lowerAscii : lowerAscii (lowerAscii text) = lowerAscii text := by
  rw [lowerAscii, lowerAscii, List.map_map]
  exact List.map_congr_left fun c _ => toLower_toLower c

private theorem tail_lowerAscii :
    (lowerAscii text).tail = lowerAscii text.tail := List.map_tail.symm

theorem take_lowerAscii (n : Nat) : (lowerAscii text).take n = lowerAscii (text.take n) :=
  List.map_take.symm

private theorem lowerAscii_digits {digits : List Char} (h : ∀ c ∈ digits, c.isDigit) :
    lowerAscii digits = digits := by
  rw [lowerAscii, List.map_congr_left fun c hc => toLower_of_isDigit (h c hc), List.map_id']

variable {c : Char} (h : c.isAlpha = false)
include h

private theorem head?_lowerAscii_eq_iff :
    (lowerAscii text).head? = some c ↔ text.head? = some c := by
  cases text with
  | nil => exact Iff.rfl
  | cons d text =>
    rw [lowerAscii_cons, List.head?_cons, List.head?_cons, Option.some.injEq, Option.some.injEq,
      toLower_eq_iff h]

theorem mem_lowerAscii_iff : c ∈ lowerAscii text ↔ c ∈ text := by
  rw [lowerAscii, List.mem_map]
  constructor
  · rintro ⟨d, hd, heq⟩
    rwa [← (toLower_eq_iff h).1 heq]
  · exact fun hc => ⟨c, hc, (toLower_eq_iff h).2 rfl⟩

theorem fields_lowerAscii : fields c (lowerAscii text) = (fields c text).map lowerAscii := by
  induction text with
  | nil => rfl
  | cons d text ih =>
    rw [lowerAscii_cons, fields, fields, ih]
    by_cases hd : d = c
    · rw [if_pos ((toLower_eq_iff h).2 hd), if_pos hd]
      rfl
    · rw [if_neg (mt (toLower_eq_iff h).1 hd), if_neg hd]
      cases fields c text <;> rfl

end Texts

namespace Numeral
variable (text : List Char)

private theorem takeWhile_isDigit_lowerAscii :
    (lowerAscii text).takeWhile Char.isDigit = text.takeWhile Char.isDigit := by
  have hcomp : Char.isDigit ∘ Char.toLower = Char.isDigit := funext isDigit_toLower
  rw [lowerAscii, List.takeWhile_map, hcomp]
  exact lowerAscii_digits fun c => List.mem_takeWhile_imp

private theorem dropWhile_isDigit_lowerAscii :
    (lowerAscii text).dropWhile Char.isDigit = lowerAscii (text.dropWhile Char.isDigit) := by
  have hcomp : Char.isDigit ∘ Char.toLower = Char.isDigit := funext isDigit_toLower
  rw [lowerAscii, List.dropWhile_map, hcomp, lowerAscii]

/-- The number that digits denote, or its opposite. -/
private def signed? (negative : Bool) (digits : List Char) : Option Int :=
  if digits ≠ [] ∧ digits.all Char.isDigit then
    some (if negative then -(natOfDigits digits : Int) else natOfDigits digits)
  else none

section Signs

private theorem head?_ne_some {c : Char} {text : List Char}
    (h : ∀ rest, text = c :: rest → False) : text.head? ≠ some c := by
  intro hhead
  obtain ⟨rest, heq⟩ := List.head?_eq_some_iff.1 hhead
  exact h rest heq

private theorem splitFraction_eq :
    splitFraction text =
      if text.head? = some '.' then
        (text.tail.takeWhile Char.isDigit, text.tail.dropWhile Char.isDigit)
      else ([], text) := by
  unfold splitFraction
  split
  · rfl
  · next hpoint => exact (if_neg (head?_ne_some hpoint)).symm

private theorem exponent?_eq (e : Char) :
    exponent? (e :: text) =
      if e ≠ 'e' ∧ e ≠ 'E' then none
      else if text.head? = some '-' then signed? true text.tail
      else if text.head? = some '+' then signed? false text.tail
      else signed? false text := by
  unfold exponent?
  by_cases hletter : e ≠ 'e' ∧ e ≠ 'E'
  · rw [if_pos hletter]
    exact if_pos hletter
  · rw [if_neg hletter]
    refine (if_neg hletter).trans ?_
    split
    next negative digits hsign =>
    split at hsign <;> cases hsign
    · rfl
    · rfl
    · next hminus hplus =>
      rw [if_neg (head?_ne_some hminus), if_neg (head?_ne_some hplus)]
      rfl

private theorem read?_eq :
    read? text =
      if text.head? = some '-' then (magnitude? text.tail).map (- ·)
      else if text.head? = some '+' then magnitude? text.tail
      else magnitude? text := by
  unfold read?
  split
  · rfl
  · next rest => rw [if_neg (by simp), if_pos (by rfl), List.tail_cons]
  · next hminus hplus => rw [if_neg (head?_ne_some hminus), if_neg (head?_ne_some hplus)]

end Signs

private theorem splitFraction_lowerAscii :
    splitFraction (lowerAscii text) =
      ((splitFraction text).1, lowerAscii (splitFraction text).2) := by
  rw [splitFraction_eq, splitFraction_eq, if_congr (head?_lowerAscii_eq_iff text rfl) rfl rfl,
    tail_lowerAscii, takeWhile_isDigit_lowerAscii, dropWhile_isDigit_lowerAscii]
  split_ifs <;> rfl

private theorem signed?_lowerAscii (negative : Bool) :
    signed? negative (lowerAscii text) = signed? negative text := by
  have hcomp : Char.isDigit ∘ Char.toLower = Char.isDigit := funext isDigit_toLower
  -- A text of digits has no case, and any other is refused in either.
  by_cases hall : text.all Char.isDigit
  · rw [lowerAscii_digits (List.all_eq_true.1 hall)]
  · have hall' : ¬(lowerAscii text).all Char.isDigit := by rwa [lowerAscii, List.all_map, hcomp]
    rw [signed?, signed?, if_neg (mt And.right hall), if_neg (mt And.right hall')]

private theorem exponent?_lowerAscii : exponent? (lowerAscii text) = exponent? text := by
  cases text with
  | nil => rfl
  | cons e text =>
    have hletter : e.toLower ≠ 'e' ∧ e.toLower ≠ 'E' ↔ e ≠ 'e' ∧ e ≠ 'E' :=
      decide_eq_decide.1 (apply_toLower (P := fun e => decide (e ≠ 'e' ∧ e ≠ 'E')) (by decide) e)
    simp only [lowerAscii_cons, exponent?_eq, tail_lowerAscii, signed?_lowerAscii, hletter,
      head?_lowerAscii_eq_iff text (rfl : '-'.isAlpha = false),
      head?_lowerAscii_eq_iff text (rfl : '+'.isAlpha = false)]

private theorem unsigned?_lowerAscii : unsigned? (lowerAscii text) = unsigned? text := by
  unfold unsigned?
  dsimp only
  rw [takeWhile_isDigit_lowerAscii, dropWhile_isDigit_lowerAscii, splitFraction_lowerAscii,
    exponent?_lowerAscii]

private theorem magnitude?_lowerAscii : magnitude? (lowerAscii text) = magnitude? text := by
  unfold magnitude?
  rw [← lowerAscii, ← lowerAscii, lowerAscii_lowerAscii, unsigned?_lowerAscii]

@[simp] theorem read?_lowerAscii : read? (lowerAscii text) = read? text := by
  simp only [read?_eq, head?_lowerAscii_eq_iff text (rfl : '-'.isAlpha = false),
    head?_lowerAscii_eq_iff text (rfl : '+'.isAlpha = false), tail_lowerAscii,
    magnitude?_lowerAscii]

end Numeral
end VideoEdit
