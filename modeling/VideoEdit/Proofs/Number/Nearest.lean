import Mathlib.Algebra.Order.Floor.Ring
import Mathlib.Data.Rat.Floor
import VideoEdit.Proofs.Number.Decimal
/-!
# The nearest multiple of a decimal place

Rounding is said here of exact numbers: the nearest whole number, a half going to the even one. A
printed double is rounded so, and two doubles are printed alike exactly if they round alike.
-/
namespace VideoEdit
-- Numbers with thousands of bits; no proof may compute with them.
attribute [local irreducible] unitsPerOne overflowUnits

/-- The whole number nearest to a rational one; a half goes to the even neighbour. -/
def nearestEven (q : ℚ) : ℤ :=
  if q - ⌊q⌋ < 1 / 2 ∨ q - ⌊q⌋ = 1 / 2 ∧ Even ⌊q⌋ then ⌊q⌋ else ⌊q⌋ + 1

/-- At most a half away, and even if it is a half away. -/
structure IsNearest (q : ℚ) (n : ℤ) : Prop where
  error : |(n : ℚ) - q| ≤ 1 / 2
  tie : |(n : ℚ) - q| = 1 / 2 → Even n

theorem IsNearest.unique {q : ℚ} {m n : ℤ} (hm : IsNearest q m) (hn : IsNearest q n) : m = n := by
  -- Neighbours that are both nearest lie a half away on either side, and so both are even.
  have hadjacent {a b : ℤ} (ha : IsNearest q a) (hb : IsNearest q b) (hlt : a < b) : False := by
    obtain ⟨ha1, ha2⟩ := abs_le.1 ha.error
    obtain ⟨hb1, hb2⟩ := abs_le.1 hb.error
    have hcast : (a : ℚ) + 1 ≤ b := by exact_mod_cast hlt
    have heven := ha.tie (by rw [abs_of_nonpos (by linarith)]; linarith)
    have heven' := hb.tie (by rw [abs_of_nonneg (by linarith)]; linarith)
    have hnext : (b : ℚ) = a + 1 := by linarith
    have hsucc : b = a + 1 := by exact_mod_cast hnext
    rw [hsucc] at heven'
    exact absurd heven (Int.even_add_one.1 heven')
  rcases lt_trichotomy m n with hlt | heq | hlt
  · exact (hadjacent hm hn hlt).elim
  · exact heq
  · exact (hadjacent hn hm hlt).elim

theorem IsNearest.neg {q : ℚ} {n : ℤ} (h : IsNearest q n) : IsNearest (-q) (-n) := by
  have hdistance : |((-n : ℤ) : ℚ) - -q| = |(n : ℚ) - q| := by
    rw [Int.cast_neg, ← neg_sub', abs_neg]
  exact ⟨hdistance.trans_le h.error, fun htie => (h.tie (hdistance.symm.trans htie)).neg⟩

private theorem isNearest_nearestEven (q : ℚ) : IsNearest q (nearestEven q) := by
  have hlow := Int.floor_le q
  have hhigh := Int.lt_floor_add_one q
  unfold nearestEven
  split_ifs with hdown
  · have hdistance : |(⌊q⌋ : ℚ) - q| = q - ⌊q⌋ := by
      rw [abs_of_nonpos (by linarith), neg_sub]
    rcases hdown with hless | ⟨hhalf, heven⟩
    · exact ⟨by rw [hdistance]; exact hless.le, fun htie => by linarith⟩
    · exact ⟨by rw [hdistance, hhalf], fun _ => heven⟩
  · rw [not_or, not_lt, not_and'] at hdown
    have hdistance : |((⌊q⌋ + 1 : ℤ) : ℚ) - q| = 1 - (q - ⌊q⌋) := by
      rw [Int.cast_add, Int.cast_one, abs_of_nonneg (by linarith)]
      ring
    refine ⟨by rw [hdistance]; linarith, fun htie => ?_⟩
    -- A tie is rounded up only from an odd floor.
    rw [Int.even_add_one]
    exact fun heven => hdown.2 heven (by linarith)

theorem nearestEven_eq_iff {q : ℚ} {n : ℤ} : nearestEven q = n ↔ IsNearest q n := by
  constructor
  · rintro rfl
    exact isNearest_nearestEven q
  · exact (isNearest_nearestEven q).unique

private theorem nearestEven_neg (q : ℚ) : nearestEven (-q) = -nearestEven q :=
  nearestEven_eq_iff.2 (isNearest_nearestEven q).neg

theorem nearestEven_mono {q r : ℚ} (h : q ≤ r) : nearestEven q ≤ nearestEven r := by
  by_contra hlt
  have hq := isNearest_nearestEven q
  have hr := isNearest_nearestEven r
  have hnext : (nearestEven r : ℚ) + 1 ≤ nearestEven q := by
    exact_mod_cast Int.add_one_le_iff.2 (not_le.1 hlt)
  -- Rounded apart the wrong way, the two are one number, half-way between two neighbours.
  have hsame : q = r := by linarith [(abs_le.1 hq.error).2, (abs_le.1 hr.error).1]
  exact hlt (by rw [hsame])

private theorem nearestEven_pos_iff {q : ℚ} : 0 < nearestEven q ↔ 1 / 2 < q := by
  have hnearest := isNearest_nearestEven q
  obtain ⟨hlow, hhigh⟩ := abs_le.1 hnearest.error
  constructor
  · intro hpos
    by_contra hsmall
    rw [not_lt] at hsmall
    have hcast : (1 : ℚ) ≤ nearestEven q := by exact_mod_cast hpos
    -- A half is a tie between zero and one, and one is odd.
    have hone : (nearestEven q : ℚ) = 1 := by linarith
    have heven := hnearest.tie (by rw [abs_of_nonneg (by linarith)]; linarith)
    rw [show nearestEven q = 1 by exact_mod_cast hone] at heven
    exact absurd heven (by decide)
  · intro hlarge
    have hpos : (0 : ℚ) < nearestEven q := by linarith
    exact_mod_cast hpos

private theorem isNearest_roundDiv (num : Nat) {den : Nat} (h : 0 < den) :
    IsNearest (num / den) (roundDiv num den) := by
  have hden : (0 : ℚ) < den := by exact_mod_cast h
  refine ⟨by exact_mod_cast roundDiv_error num h, fun htie => ?_⟩
  have hsplit := Nat.div_add_mod num den
  have hrest := Nat.mod_lt num h
  -- At a tie twice the remainder is the divisor, whichever way the quotient is rounded.
  have hhalf : 2 * (num % den) = den := by
    have hscaled : |((roundDiv num den * den : Nat) : ℚ) - num| = den / 2 := by
      have hfactor : ((roundDiv num den * den : Nat) : ℚ) - num =
          ((roundDiv num den : ℤ) - num / den) * den := by
        rw [Nat.cast_mul, sub_mul, div_mul_cancel₀ _ hden.ne', Int.cast_natCast]
      rw [hfactor, abs_mul, htie, abs_of_pos hden]
      ring
    have htwice : 2 * (roundDiv num den * den) + den = 2 * num ∨
        2 * (roundDiv num den * den) = 2 * num + den := by
      rcases abs_eq (by positivity : (0 : ℚ) ≤ den / 2) |>.1 hscaled with hup | hlow
      · right
        exact_mod_cast (by linarith : 2 * ((roundDiv num den * den : Nat) : ℚ) = 2 * num + den)
      · left
        exact_mod_cast (by linarith : 2 * ((roundDiv num den * den : Nat) : ℚ) + den = 2 * num)
    unfold roundDiv at htwice
    dsimp only at htwice
    split_ifs at htwice
    · rw [Nat.mul_comm (num / den)] at htwice
      omega
    · rw [Nat.add_mul, Nat.one_mul, Nat.mul_comm (num / den)] at htwice
      omega
  unfold roundDiv
  dsimp only
  split_ifs with hdown
  · have heven : num / den % 2 = 0 := by omega
    exact_mod_cast Nat.even_iff.2 heven
  · have heven : (num / den + 1) % 2 = 0 := by omega
    exact_mod_cast Nat.even_iff.2 heven

namespace Binary64

/-- A double to some decimal places, as a count of the last of them. -/
def rounded (places : Nat) (x : Binary64) : ℤ := nearestEven (x.value * 10 ^ places)

private theorem nearestEven_units (places units : Nat) :
    nearestEven ((units : ℚ) / unitsPerOne * 10 ^ places) = scaled places units := by
  rw [nearestEven_eq_iff, scaled]
  have hnearest := isNearest_roundDiv (units * Nat.pow 10 places) unitsPerOne_pos
  rwa [Nat.cast_mul, Nat.pow_eq, Nat.cast_pow, Nat.cast_ofNat, mul_div_right_comm] at hnearest

theorem rounded_finite (places : Nat) (negative : Bool) {units : Nat} (h : Representable units) :
    (finite negative units h).rounded places =
      if negative then -(scaled places units : ℤ) else scaled places units := by
  cases negative with
  | false => exact nearestEven_units places units
  | true =>
    rw [rounded, value, if_pos rfl, if_pos rfl, neg_div, neg_mul, nearestEven_neg,
      nearestEven_units]

/-- The numbers above half of the last place, and no others, are rounded to positive ones. -/
theorem rounded_pos_iff (places : Nat) (x : Binary64) :
    0 < x.rounded places ↔ 1 / (2 * 10 ^ places) < x.value := by
  have hpow : (0 : ℚ) < 10 ^ places := by positivity
  rw [rounded, nearestEven_pos_iff, ← div_div, div_lt_iff₀ hpow]

/-- What is printed for a double is the nearest multiple of the last place. -/
theorem atPlaces_eq_rounded {x : Binary64} (h : x.isFinite) (places : Nat) :
    x.atPlaces places = x.rounded places / 10 ^ places := by
  obtain ⟨negative, units, hunits, rfl⟩ := exists_eq_finite h
  rw [rounded_finite, atPlaces]
  cases negative <;> simp [neg_div]

theorem atPlaces_pos_iff {x : Binary64} (h : x.isFinite) (places : Nat) :
    0 < x.atPlaces places ↔ 1 / (2 * 10 ^ places) < x.value := by
  have hpow : (0 : ℚ) < 10 ^ places := by positivity
  rw [atPlaces_eq_rounded h, div_pos_iff_of_pos_right hpow, Int.cast_pos, rounded_pos_iff]

private theorem dropEnding_replicate {c : Char} (n : Nat) (text : List Char) :
    dropEnding c (text ++ List.replicate n c) = dropEnding c text := by
  have hall : ∀ d ∈ List.replicate n c, decide (d = c) := by
    intro d hd
    simpa using List.eq_of_mem_replicate hd
  rw [dropEnding, List.reverse_append, List.reverse_replicate, List.dropWhile_append_of_pos hall,
    dropEnding]

private theorem withPoint_zero {places : Nat} (h : places ≠ 0) :
    withPoint places 0 = "0.".toList ++ List.replicate places '0' := by
  have hpadded : List.replicate (places + 1 - (Nat.toDigits 10 0).length) '0' ++
      Nat.toDigits 10 0 = '0' :: List.replicate places '0' := by
    rw [Nat.toDigits_zero, List.length_singleton, Nat.add_sub_cancel, ← List.replicate_succ',
      List.replicate_succ]
  unfold withPoint
  dsimp only
  rw [hpadded, List.length_cons, List.length_replicate, Nat.add_sub_cancel_left, if_neg h]
  rfl

private theorem toDecimal_of_scaled_eq_zero {places : Nat} (h : places ≠ 0) (negative : Bool)
    {units : Nat} (hunits : Representable units) (hzero : scaled places units = 0) :
    (finite negative units hunits).toDecimal places = "0".toList := by
  have htext : (finite negative units hunits).toFixed places =
      signed negative "0.".toList ++ List.replicate places '0' := by
    rw [toFixed, hzero, withPoint_zero h]
    cases negative <;> rfl
  have hpoint : '.' ∈ signed negative "0.".toList ++ List.replicate places '0' :=
    List.mem_append_left _ (by cases negative <;> decide)
  unfold toDecimal
  dsimp only
  rw [htext, if_pos hpoint, dropEnding_replicate]
  cases negative <;> decide

/-- Two doubles are printed alike exactly if they round alike. -/
theorem toDecimal_eq_iff {x y : Binary64} (hx : x.isFinite) (hy : y.isFinite) {places : Nat}
    (h : places ≠ 0) :
    x.toDecimal places = y.toDecimal places ↔ x.rounded places = y.rounded places := by
  constructor
  · intro htext
    have hpow : (10 : ℚ) ^ places ≠ 0 := by positivity
    have hread := read?_toDecimal hx places
    rw [htext, read?_toDecimal hy places, Option.some.injEq, atPlaces_eq_rounded hx,
      atPlaces_eq_rounded hy, div_left_inj' hpow] at hread
    exact_mod_cast hread.symm
  · intro hrounded
    obtain ⟨s, u, hu, rfl⟩ := exists_eq_finite hx
    obtain ⟨t, v, hv, rfl⟩ := exists_eq_finite hy
    rw [rounded_finite, rounded_finite] at hrounded
    by_cases hsign : s = t
    · subst hsign
      have hscaled : scaled places u = scaled places v := by
        cases s <;> simpa using hrounded
      have hfixed : (finite s u hu).toFixed places = (finite s v hv).toFixed places := by
        rw [toFixed, toFixed, hscaled]
      rw [toDecimal, toDecimal, hfixed]
    · -- With different signs both round to zero.
      have hzero : scaled places u = 0 ∧ scaled places v = 0 := by
        cases s <;> cases t <;> simp_all
      rw [toDecimal_of_scaled_eq_zero h s hu hzero.1, toDecimal_of_scaled_eq_zero h t hv hzero.2]

end Binary64
end VideoEdit
