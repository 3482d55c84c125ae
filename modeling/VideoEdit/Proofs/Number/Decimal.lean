import Mathlib.Data.List.DropRight
import VideoEdit.Number.Fixed
import VideoEdit.Proofs.Number.Digits
import VideoEdit.Proofs.Number.Rounding
/-!
# Decimals that are printed

A plain decimal is read back as the rational number that it denotes. The text of a finite double,
with or without the zeros that end its fraction, denotes the multiple of the last place that is
nearest to it.
-/
namespace VideoEdit
-- Numbers with thousands of bits; no proof may compute with them.
attribute [local irreducible] unitsPerOne overflowUnits

namespace Decimal
open Numeral (natOfDigits)

/-- The number that digits denote, or digits, a point and more digits. -/
def magnitude? (text : List Char) : Option ℚ :=
  let whole := text.takeWhile Char.isDigit
  if whole = [] then none
  else match text.dropWhile Char.isDigit with
    | [] => some (natOfDigits whole)
    | '.' :: decimals =>
      if decimals ≠ [] ∧ decimals.all Char.isDigit then
        some (natOfDigits (whole ++ decimals) / 10 ^ decimals.length)
      else none
    | _ => none

/-- The number that a plain decimal denotes. -/
def read? : List Char → Option ℚ
  | '-' :: rest => (magnitude? rest).map (- ·)
  | text => magnitude? text

section Digits
variable {whole decimals : List Char}

theorem magnitude?_digits (hne : whole ≠ []) (h : ∀ c ∈ whole, c.isDigit) :
    magnitude? whole = some (natOfDigits whole : ℚ) := by
  have htake : whole.takeWhile Char.isDigit = whole := List.takeWhile_eq_self_iff.2 h
  have hdrop : whole.dropWhile Char.isDigit = [] := List.dropWhile_eq_nil_iff.2 h
  unfold magnitude?
  simp only [htake, hdrop, if_neg hne]

theorem magnitude?_point (hne : whole ≠ []) (hne' : decimals ≠ []) (h : ∀ c ∈ whole, c.isDigit)
    (h' : ∀ c ∈ decimals, c.isDigit) :
    magnitude? (whole ++ '.' :: decimals) =
      some (natOfDigits (whole ++ decimals) / 10 ^ decimals.length : ℚ) := by
  have htake : (whole ++ '.' :: decimals).takeWhile Char.isDigit = whole := by
    rw [List.takeWhile_append_of_pos h, List.takeWhile_cons_of_neg (by decide), List.append_nil]
  have hdrop : (whole ++ '.' :: decimals).dropWhile Char.isDigit = '.' :: decimals := by
    rw [List.dropWhile_append_of_pos h, List.dropWhile_cons_of_neg (by decide)]
  have hall : decimals.all Char.isDigit := List.all_eq_true.2 h'
  unfold magnitude?
  simp only [htake, hdrop, if_neg hne, if_pos (And.intro hne' hall)]

end Digits

private theorem chars_of_magnitude? {text : List Char} {q : ℚ} (h : magnitude? text = some q) :
    ∀ c ∈ text, c.isDigit ∨ c = '.' := by
  have hwhole : ∀ c ∈ text.takeWhile Char.isDigit, c.isDigit := fun c => List.mem_takeWhile_imp
  have hsplit := List.takeWhile_append_dropWhile (p := Char.isDigit) (l := text)
  unfold magnitude? at h
  dsimp only at h
  intro c hc
  rw [← hsplit, List.mem_append] at hc
  rcases hc with hc | hc
  · exact .inl (hwhole c hc)
  split_ifs at h
  split at h
  · next hnil =>
    rw [hnil] at hc
    cases hc
  · next decimals hpoint =>
    rw [hpoint, List.mem_cons] at hc
    split_ifs at h with hdecimals
    rcases hc with rfl | hc
    · exact .inr rfl
    · exact .inl (List.all_eq_true.1 hdecimals.2 c hc)
  · cases h

private theorem chars_of_read? {text : List Char} {q : ℚ} (h : read? text = some q) :
    ∀ c ∈ text, c.isDigit ∨ c = '.' ∨ c = '-' := by
  intro c hc
  unfold read? at h
  split at h
  · next rest =>
    obtain ⟨r, hr, -⟩ := Option.map_eq_some_iff.1 h
    rcases List.mem_cons.1 hc with rfl | hc
    · exact .inr (.inr rfl)
    · exact (chars_of_magnitude? hr c hc).imp_right .inl
  · exact (chars_of_magnitude? h c hc).imp_right .inl

private theorem read?_of_magnitude? {text : List Char} {q : ℚ} (h : magnitude? text = some q) :
    read? text = some q := by
  unfold read?
  split
  · next rest =>
    rcases chars_of_magnitude? h '-' List.mem_cons_self with hminus | hminus
    · exact absurd hminus (by decide)
    · exact absurd hminus (by decide)
  · exact h

theorem read?_signed {text : List Char} {q : ℚ} (negative : Bool) (h : magnitude? text = some q) :
    read? (Binary64.signed negative text) = some (if negative then -q else q) := by
  cases negative with
  | false => exact read?_of_magnitude? h
  | true =>
    change (magnitude? text).map (- ·) = some (-q)
    rw [h, Option.map_some]

end Decimal

namespace Binary64
open Numeral (natOfDigits natOfDigits_append_zeros)
open Decimal

theorem exists_withPoint (places n : Nat) : ∃ front back,
    withPoint places n = front ++ (if places = 0 then [] else '.' :: back) ∧ front ≠ [] ∧
      (∀ c ∈ front, c.isDigit) ∧ (∀ c ∈ back, c.isDigit) ∧ back.length = places ∧
      natOfDigits (front ++ back) = n ∧ (front = ['0'] ∨ front.head? ≠ some '0') := by
  unfold withPoint
  dsimp only
  generalize hpadded : List.replicate (places + 1 - (Nat.toDigits 10 n).length) '0' ++
    Nat.toDigits 10 n = padded
  have hlength : places + 1 ≤ padded.length := by
    rw [← hpadded, List.length_append, List.length_replicate]
    omega
  have hdigits : ∀ c ∈ padded, c.isDigit := by
    intro c hc
    rw [← hpadded, List.mem_append] at hc
    rcases hc with hc | hc
    · rw [List.eq_of_mem_replicate hc]
      decide
    · exact Nat.isDigit_of_mem_toDigits (by decide) (by decide) hc
  have hvalue : natOfDigits padded = n := by
    rw [← hpadded, natOfDigits, Nat.ofDigitChars_append, Nat.ofDigitChars_replicate_zero,
      Nat.mul_zero, Nat.ofDigitChars_toDigits (by decide) (by decide)]
  refine ⟨padded.take (padded.length - places), padded.drop (padded.length - places), rfl, ?_, ?_,
    ?_, ?_, ?_, ?_⟩
  · rw [ne_eq, List.take_eq_nil_iff, ← List.length_eq_zero_iff]
    omega
  · exact fun c hc => hdigits c (List.mem_of_mem_take hc)
  · exact fun c hc => hdigits c (List.mem_of_mem_drop hc)
  · rw [List.length_drop]
    omega
  · rw [List.take_append_drop, hvalue]
  · rcases Nat.lt_or_ge places (Nat.toDigits 10 n).length with hlong | hshort
    · have hall : padded = Nat.toDigits 10 n := by
        rw [← hpadded, Nat.sub_eq_zero_of_le hlong, List.replicate_zero, List.nil_append]
      have hcut : padded.length - places ≠ 0 := by omega
      rw [hall] at hcut ⊢
      refine (Numeral.head?_toDigits n).imp (fun hzero => ?_) fun hlead => ?_
      · rw [hzero] at hcut ⊢
        exact List.take_of_length_le (Nat.one_le_iff_ne_zero.2 hcut)
      · rwa [List.head?_take, if_neg hcut]
    · -- Zeros fill the places up, and one of them stands in front of the point.
      obtain ⟨k, hk⟩ := Nat.exists_eq_add_of_le hshort
      have hfill : places + 1 - (Nat.toDigits 10 n).length = k + 1 := by omega
      have hcut : padded.length - places = 1 := by
        rw [← hpadded, List.length_append, List.length_replicate]
        omega
      rw [hcut, ← hpadded, hfill]
      exact .inl rfl

private theorem magnitude?_withPoint (places n : Nat) :
    magnitude? (withPoint places n) = some (n / 10 ^ places : ℚ) := by
  obtain ⟨front, back, htext, hne, hfront, hback, hlength, hvalue, -⟩ :=
    exists_withPoint places n
  rw [htext]
  split_ifs with hzero
  · subst hzero
    obtain rfl := List.length_eq_zero_iff.1 hlength
    rw [List.append_nil] at hvalue ⊢
    rw [magnitude?_digits hne hfront, hvalue, pow_zero, div_one]
  · have hne' : back ≠ [] := by
      rintro rfl
      exact hzero hlength.symm
    rw [magnitude?_point hne hne' hfront hback, hvalue, hlength]

/-- The multiple of the last of some decimal places that is printed for a finite double. -/
def atPlaces (places : Nat) : Binary64 → ℚ
  | finite negative units _ =>
    if negative then -(scaled places units / 10 ^ places : ℚ) else scaled places units / 10 ^ places
  | _ => 0

theorem exists_atPlaces (places : Nat) (x : Binary64) :
    ∃ n : ℤ, x.atPlaces places = n / 10 ^ places := by
  rcases x with _ | _ | ⟨_ | _, units, hunits⟩
  · exact ⟨0, by simp [atPlaces]⟩
  · exact ⟨0, by simp [atPlaces]⟩
  · exact ⟨scaled places units, by simp [atPlaces]⟩
  · exact ⟨-scaled places units, by simp [atPlaces, neg_div]⟩

theorem read?_toFixed {x : Binary64} (h : x.isFinite) (places : Nat) :
    read? (x.toFixed places) = some (x.atPlaces places) := by
  obtain ⟨negative, units, hunits, rfl⟩ := exists_eq_finite h
  exact read?_signed negative (magnitude?_withPoint places _)

private theorem dropEnding_concat (c d : Char) (text : List Char) :
    dropEnding c (text ++ [d]) = if d = c then dropEnding c text else text ++ [d] := by
  have h := List.rdropWhile_concat (· = c) text d
  rwa [if_congr (decide_eq_true_iff (p := d = c)) rfl rfl] at h

/-- What is dropped behind the digits in front of a point: the zeros that end the fraction, and the
point if nothing else is left of it. -/
theorem exists_short (front : List Char) {whole decimals : List Char} (hne : whole ≠ [])
    (h : ∀ c ∈ whole, c.isDigit) (h' : ∀ c ∈ decimals, c.isDigit) :
    ∃ short zeros, decimals = short ++ List.replicate zeros '0' ∧ short.getLast? ≠ some '0' ∧
      dropEnding '.' (dropEnding '0' (front ++ (whole ++ '.' :: decimals))) =
        front ++ (whole ++ if short = [] then [] else '.' :: short) := by
  have hpoint {c : Char} (hc : c.isDigit) : c ≠ '.' := by
    rintro rfl
    exact absurd hc (by decide)
  induction decimals using List.reverseRecOn with
  | nil =>
    obtain ⟨init, d, rfl⟩ := (List.eq_nil_or_concat' whole).resolve_left hne
    refine ⟨[], 0, rfl, by simp, ?_⟩
    rw [← List.append_assoc front, dropEnding_concat, if_neg (by decide), dropEnding_concat,
      if_pos rfl, ← List.append_assoc, dropEnding_concat, if_neg (hpoint (h d (by simp)))]
    simp
  | append_singleton decimals d ih =>
    have hassoc : front ++ (whole ++ '.' :: (decimals ++ [d])) =
        front ++ (whole ++ '.' :: decimals) ++ [d] := by simp
    rw [hassoc, dropEnding_concat]
    split_ifs with hzero
    · obtain ⟨short, zeros, rfl, hlast, htext⟩ := ih fun c hc => h' c (List.mem_append_left _ hc)
      refine ⟨short, zeros + 1, ?_, hlast, htext⟩
      rw [hzero, List.append_assoc, List.replicate_succ']
    · refine ⟨decimals ++ [d], 0, (List.append_nil _).symm, by simpa using hzero, ?_⟩
      rw [dropEnding_concat, if_neg (hpoint (h' d (by simp))), ← hassoc, if_neg (by simp)]

private theorem magnitude?_short {whole short : List Char} (hne : whole ≠ [])
    (h : ∀ c ∈ whole, c.isDigit) (h' : ∀ c ∈ short, c.isDigit) (zeros : Nat) :
    magnitude? (whole ++ if short = [] then [] else '.' :: short) =
      some (natOfDigits (whole ++ (short ++ List.replicate zeros '0')) /
        10 ^ (short ++ List.replicate zeros '0').length : ℚ) := by
  have hzeros : (10 : ℚ) ^ zeros ≠ 0 := by positivity
  rw [← List.append_assoc, natOfDigits_append_zeros, List.length_append, List.length_replicate,
    pow_add, Nat.cast_mul, Nat.cast_pow, Nat.cast_ofNat, mul_div_mul_right _ _ hzeros]
  split_ifs with hshort
  · rw [hshort, List.append_nil, magnitude?_digits hne h, List.length_nil, pow_zero, div_one]
  · exact magnitude?_point hne hshort h h'

private theorem read?_short {x : Binary64} (h : x.isFinite) {places : Nat}
    (hpoint : '.' ∈ x.toFixed places) :
    read? (dropEnding '.' (dropEnding '0' (x.toFixed places))) = some (x.atPlaces places) := by
  obtain ⟨negative, units, hunits, rfl⟩ := exists_eq_finite h
  have hsigned (text : List Char) : signed negative text = signed negative [] ++ text := by
    cases negative <;> rfl
  obtain ⟨whole, decimals, htext, hne, hwhole, hdecimals, hlength, hvalue, -⟩ :=
    exists_withPoint places (scaled places units)
  rw [toFixed, htext, hsigned] at hpoint ⊢
  split_ifs at * with hzero
  · -- Without places there is no point.
    rw [List.append_nil, List.mem_append] at hpoint
    rcases hpoint with hpoint | hpoint
    · cases negative <;> simp [signed] at hpoint
    · exact absurd (hwhole '.' hpoint) (by decide)
  · obtain ⟨short, zeros, rfl, -, hshort⟩ := exists_short (signed negative []) hne hwhole hdecimals
    have hread := magnitude?_short hne hwhole
      (fun c hc => hdecimals c (List.mem_append_left _ hc)) zeros
    rw [hvalue, hlength] at hread
    rw [hshort, ← hsigned, read?_signed negative hread]
    rfl

theorem read?_toDecimal {x : Binary64} (h : x.isFinite) (places : Nat) :
    read? (x.toDecimal places) = some (x.atPlaces places) := by
  have hzero : read? "0".toList = read? "-0".toList := by decide
  unfold toDecimal
  dsimp only
  split_ifs with hpoint hminus
  · rw [hzero, ← hminus]
    exact read?_short h hpoint
  · exact read?_short h hpoint
  · exact read?_toFixed h places

private theorem chars_toFixed (places : Nat) (x : Binary64) :
    ∀ c ∈ x.toFixed places, c.isDigit ∨ c ∈ "-.NaNinf".toList := by
  have hnan : ∀ c ∈ "NaN".toList, c ∈ "-.NaNinf".toList := by simp
  have hinfinite (negative : Bool) :
      ∀ c ∈ signed negative "inf".toList, c ∈ "-.NaNinf".toList := by
    cases negative <;> simp [signed]
  intro c hc
  rcases x with _ | negative | ⟨negative, units, hunits⟩
  · exact .inr (hnan c hc)
  · exact .inr (hinfinite negative c hc)
  · rcases chars_of_read? (read?_toFixed rfl places) c hc with hdigit | rfl | rfl
    · exact .inl hdigit
    · exact .inr (by decide)
    · exact .inr (by decide)

private theorem chars_toDecimal (places : Nat) (x : Binary64) :
    ∀ c ∈ x.toDecimal places, c.isDigit ∨ c ∈ "-.NaNinf".toList := by
  have hshort {d : Char} {text : List Char} : dropEnding d text ⊆ text := by
    intro c hc
    exact List.mem_reverse.1 ((List.dropWhile_sublist _).subset (List.mem_reverse.1 hc))
  intro c hc
  unfold toDecimal at hc
  dsimp only at hc
  split_ifs at hc
  · rw [List.mem_singleton.1 hc]
    exact .inl (by decide)
  · exact chars_toFixed places x c (hshort (hshort hc))
  · exact chars_toFixed places x c hc

theorem not_mem_toFixed {c : Char} (h : ¬(c.isDigit ∨ c ∈ "-.NaNinf".toList)) (places : Nat)
    (x : Binary64) : c ∉ x.toFixed places :=
  mt (chars_toFixed places x c) h

theorem not_mem_toDecimal {c : Char} (h : ¬(c.isDigit ∨ c ∈ "-.NaNinf".toList)) (places : Nat)
    (x : Binary64) : c ∉ x.toDecimal places :=
  mt (chars_toDecimal places x c) h

/-- What is printed differs from the number by half a unit of the last place at most. -/
theorem atPlaces_error (places : Nat) {x : Binary64} (h : x.isFinite) :
    |x.atPlaces places - x.value| ≤ 1 / (2 * 10 ^ places) := by
  obtain ⟨negative, units, hunits, rfl⟩ := exists_eq_finite h
  have hround : |(scaled places units / 10 ^ places : ℚ) - units / unitsPerOne| ≤
      1 / (2 * 10 ^ places) := by
    have herror := roundDiv_error (units * Nat.pow 10 places) unitsPerOne_pos
    rw [← scaled, Nat.cast_mul, Nat.pow_eq, Nat.cast_pow, Nat.cast_ofNat] at herror
    have hpow : (0 : ℚ) < 10 ^ places := by positivity
    have hcast := cast_unitsPerOne_pos
    generalize (10 : ℚ) ^ places = scale at *
    have hsplit : (scaled places units / scale : ℚ) - units / unitsPerOne =
        (scaled places units - units * scale / unitsPerOne) / scale := by
      field_simp
    rw [hsplit, abs_div, abs_of_pos hpow, ← div_div]
    exact div_le_div_of_nonneg_right herror hpow.le
  cases negative with
  | false => exact hround
  | true =>
    have hneg : -(scaled places units / 10 ^ places : ℚ) - -(units : ℚ) / unitsPerOne =
        -((scaled places units / 10 ^ places : ℚ) - units / unitsPerOne) := by ring
    rw [atPlaces, value, if_pos rfl, if_pos rfl, hneg, abs_neg]
    exact hround

private theorem multiple_le {places : Nat} {m n : ℤ}
    (h : (m / 10 ^ places : ℚ) ≤ n / 10 ^ places + 1 / (2 * 10 ^ places)) :
    (m / 10 ^ places : ℚ) ≤ n / 10 ^ places := by
  have hpow : (0 : ℚ) < 10 ^ places := by positivity
  have hscaled : (m : ℚ) ≤ n + 1 / 2 := by
    rw [← div_div, ← add_div, div_le_div_iff_of_pos_right hpow] at h
    exact h
  have hlt : m < n + 1 := by
    have hcast : (m : ℚ) < n + 1 := by linarith
    exact_mod_cast hcast
  rw [div_le_div_iff_of_pos_right hpow]
  exact_mod_cast Int.lt_add_one_iff.1 hlt

theorem le_atPlaces {x : Binary64} (h : x.isFinite) {places : Nat} {n : ℤ}
    (hle : n / 10 ^ places ≤ x.value) : n / 10 ^ places ≤ x.atPlaces places := by
  obtain ⟨m, hm⟩ := exists_atPlaces places x
  have hlow := (abs_le.1 (atPlaces_error places h)).1
  rw [hm] at hlow ⊢
  exact multiple_le (by linarith)

theorem atPlaces_le {x : Binary64} (h : x.isFinite) {places : Nat} {n : ℤ}
    (hle : x.value ≤ n / 10 ^ places) : x.atPlaces places ≤ n / 10 ^ places := by
  obtain ⟨m, hm⟩ := exists_atPlaces places x
  have hhigh := (abs_le.1 (atPlaces_error places h)).2
  rw [hm] at hhigh ⊢
  exact multiple_le (by linarith)

end Binary64
end VideoEdit
