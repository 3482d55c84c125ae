import Mathlib.Tactic.Ring
import VideoEdit.Proofs.Number.Exact
import VideoEdit.Proofs.Text.LetterCase
/-!
# Plain numerals

Digits, with a point and more digits or without, are read as the double nearest to the number that
they are written for.
-/
namespace VideoEdit
attribute [local irreducible] unitsPerOne overflowUnits

namespace Binary64

private theorem ofUnits_congr {negative : Bool} {num den num' den' : Nat}
    (h : nearestUnits num den = nearestUnits num' den') :
    ofUnits negative num den = ofUnits negative num' den' := by
  unfold ofUnits
  simp only [h]

private theorem nearestUnits_eq_zero {num den : Nat} (h : 2 * num < den) :
    nearestUnits num den = 0 := by
  have hquotient : num / den = 0 := Nat.div_eq_of_lt (by omega)
  have hrest : num % den = num := Nat.mod_eq_of_lt (by omega)
  simp [nearestUnits, roundDiv, hquotient, hrest, h]

private theorem two_mul_units_lt {digits places : Nat} (h : digits.log2 + 1076 ≤ 3 * places) :
    2 * (digits * unitsPerOne) < Nat.pow 10 places := by
  obtain ⟨k, hk, hunit, -⟩ := exists_two_pow
  have hdigits : digits < 2 ^ (digits.log2 + 1) := Nat.lt_log2_self
  rw [hunit, Nat.pow_eq]
  calc 2 * (digits * 2 ^ k) < 2 * (2 ^ (digits.log2 + 1) * 2 ^ k) := by
        have hpos := Nat.two_pow_pos k
        gcongr
    _ = 2 ^ (digits.log2 + 2 + k) := by ring
    _ ≤ 2 ^ (3 * places) := Nat.pow_le_pow_right two_pos (by omega)
    _ = 8 ^ places := by rw [Nat.pow_mul]
    _ ≤ 10 ^ places := Nat.pow_le_pow_left (by decide) places

private theorem ofDecimal_neg (digits places : Nat) :
    ofDecimal digits (-places) = fraction digits (Nat.pow 10 places) := by
  cases places with
  | zero =>
    change (if digits ≠ 0 ∧ 308 < 0 then _ else fraction (digits * 1) 1) = fraction digits 1
    rw [if_neg (by simp), Nat.mul_one]
  | succ places =>
    change (if digits.log2 + 1076 ≤ 3 * (places + 1) then ofUnits false 0 1
      else fraction digits (Nat.pow 10 (places + 1))) = _
    split
    · next hsmall =>
      apply ofUnits_congr
      rw [nearestUnits_eq_zero (by decide), nearestUnits_eq_zero (two_mul_units_lt hsmall)]
    · rfl

end Binary64

/-- A plain number, whole or with decimals, in digits of any script. -/
def IsNumeral (text : List Char) : Prop :=
  ∃ whole fraction, text = whole ++ fraction ∧ (whole ≠ [] ∧ ∀ c ∈ whole, isDecimalDigit c) ∧
    (fraction = [] ∨ ∃ decimals, fraction = '.' :: decimals ∧ decimals ≠ [] ∧
      ∀ c ∈ decimals, isDecimalDigit c)

def isNumeralChar (c : Char) : Bool := isDecimalDigit c || c == '.'

namespace IsNumeral
variable {text : List Char}

theorem isNumeralChar (h : IsNumeral text) : ∀ c ∈ text, isNumeralChar c := by
  have hdigit {c : Char} (hc : isDecimalDigit c) : VideoEdit.isNumeralChar c := by
    rw [VideoEdit.isNumeralChar, hc, Bool.true_or]
  obtain ⟨whole, fraction, rfl, ⟨-, hwhole⟩, hfraction⟩ := h
  refine List.forall_mem_append.2 ⟨fun c hc => hdigit (hwhole c hc), ?_⟩
  rcases hfraction with rfl | ⟨decimals, rfl, -, hdecimals⟩
  · simp
  · exact List.forall_mem_cons.2 ⟨by decide, fun c hc => hdigit (hdecimals c hc)⟩

theorem exists_digit (h : IsNumeral text) : ∃ c rest, text = c :: rest ∧ isDecimalDigit c := by
  obtain ⟨whole, fraction, rfl, ⟨hne, hwhole⟩, -⟩ := h
  obtain ⟨c, rest, rfl⟩ := List.exists_cons_of_ne_nil hne
  exact ⟨c, rest ++ fraction, rfl, hwhole c List.mem_cons_self⟩

end IsNumeral

namespace Numeral
variable {digits decimals : List Char}

theorem magnitude?_eq_unsigned? {c : Char} (hi : c.toLower ≠ 'i') (hn : c.toLower ≠ 'n')
    (rest : List Char) : magnitude? (c :: rest) = unsigned? (c :: rest) := by
  have hword {d : Char} (hd : c.toLower ≠ d) (word : List Char) :
      (c :: rest).map Char.toLower ≠ d :: word := by
    intro h
    exact hd (List.cons.inj h).1
  rw [magnitude?, if_neg, if_neg]
  · exact hword hn _
  · rintro (h | h)
    · exact hword hi _ h
    · exact hword hi _ h

theorem magnitude?_of_isDecimalDigit {c : Char} (hc : isDecimalDigit c) (rest : List Char) :
    magnitude? (c :: rest) = unsigned? (c :: rest) := by
  have hne {d : Char} (hd : isDecimalDigit d = false) : c.toLower ≠ d := by
    rintro rfl
    rw [isDecimalDigit_toLower, hc] at hd
    cases hd
  exact magnitude?_eq_unsigned? (hne (by decide)) (hne (by decide)) rest

theorem read?_of_isDecimalDigit {c : Char} (hc : isDecimalDigit c) (rest : List Char) :
    read? (c :: rest) = unsigned? (c :: rest) := by
  have hne {d : Char} (hd : isDecimalDigit d = false) : c ≠ d := by
    rintro rfl
    rw [hc] at hd
    cases hd
  rw [← magnitude?_of_isDecimalDigit hc]
  unfold read?
  split
  · next heq => exact absurd (List.cons.inj heq).1 (hne (by decide))
  · next heq => exact absurd (List.cons.inj heq).1 (hne (by decide))
  · rfl

private theorem read?_append (hne : digits ≠ []) (h : ∀ c ∈ digits, c.isDigit)
    (rest : List Char) : read? (digits ++ rest) = unsigned? (digits ++ rest) := by
  obtain ⟨c, digits, rfl⟩ := List.exists_cons_of_ne_nil hne
  have hc := isDecimalDigit_of_isDigit (h c List.mem_cons_self)
  exact read?_of_isDecimalDigit hc (digits ++ rest)

theorem read?_digits (hne : digits ≠ []) (h : ∀ c ∈ digits, c.isDigit) :
    read? digits = some (.ofNat (natOfDigits digits)) := by
  have hread := read?_append hne h []
  have htake := List.takeWhile_eq_self_iff.2 h
  have hdrop := List.dropWhile_eq_nil_iff.2 h
  have hexact := Binary64.ofDecimal_neg (natOfDigits digits) 0
  rw [List.append_nil] at hread
  rw [hread]
  simp only [unsigned?, htake, hdrop, splitFraction, exponent?, List.append_nil, hne, false_and,
    if_false, Option.map_some, List.length_nil]
  exact congrArg some hexact

theorem read?_decimal (hne : digits ≠ []) (h : ∀ c ∈ digits, c.isDigit)
    (h' : ∀ c ∈ decimals, c.isDigit) : read? (digits ++ '.' :: decimals) =
      some (.fraction (natOfDigits (digits ++ decimals)) (Nat.pow 10 decimals.length)) := by
  have htake : (digits ++ '.' :: decimals).takeWhile Char.isDigit = digits := by
    rw [List.takeWhile_append_of_pos h]
    simp
  have hdrop : (digits ++ '.' :: decimals).dropWhile Char.isDigit = '.' :: decimals := by
    rw [List.dropWhile_append_of_pos h]
    rfl
  have htake' := List.takeWhile_eq_self_iff.2 h'
  have hdrop' := List.dropWhile_eq_nil_iff.2 h'
  rw [read?_append hne h]
  simp only [unsigned?, htake, hdrop, splitFraction, exponent?, htake', hdrop', hne, false_and,
    if_false, Option.map_some, Int.zero_sub, Binary64.ofDecimal_neg]

end Numeral
end VideoEdit
