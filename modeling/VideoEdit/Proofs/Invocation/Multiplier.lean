import VideoEdit.Invocation.Filters
import VideoEdit.Proofs.Number.Decimal
/-!
# Timestamp multipliers

The multiplier that is printed for a change of speed has four places while that leaves it a digit,
and else enough of them to lie within a ten-thousandth part of the reciprocal.
-/
namespace VideoEdit
-- Numbers with thousands of bits; no proof may compute with them.
attribute [local irreducible] unitsPerOne overflowUnits
namespace Binary64

theorem placesToFirstDigit_cases (units : Nat) :
    (∀ places < placesToFirstDigit units, logReaches units places = false) ∧
      (logReaches units (placesToFirstDigit units) ∧ placesToFirstDigit units < 324 ∨
        placesToFirstDigit units = 324) := by
  unfold placesToFirstDigit
  cases hfind : (List.range 324).find? (logReaches units) with
  | none =>
    rw [List.find?_range_eq_none] at hfind
    exact ⟨fun places h => by simpa using hfind places h, .inr rfl⟩
  | some places =>
    obtain ⟨hreaches, hrange, hbefore⟩ := List.find?_range_eq_some.1 hfind
    exact ⟨fun n h => by simpa using hbefore n h, .inl ⟨hreaches, List.mem_range.1 hrange⟩⟩

theorem log2_le_of_lt {places : Nat} (h : places < 324) : places.log2 ≤ 8 := by
  rcases Nat.eq_zero_or_pos places with rfl | hpos
  · decide
  · exact Nat.lt_succ_iff.1 ((Nat.log2_lt hpos.ne').2 (by omega))

private theorem four_le_of_generous : ∀ places ∈ generousPlaces, 4 ≤ places := by decide

private theorem near_le {units : Nat} (places : Nat) (h : 2 ^ 50 ≤ units) :
    ((if places ∈ generousPlaces then nextUnits units else units : Nat) : ℚ) ≤
      units * (1 + 2 ^ places.log2 / 2 ^ 52) := by
  have hunits : (0 : ℚ) ≤ units := Nat.cast_nonneg units
  split_ifs with hgenerous
  · have hgrid : (2 : ℚ) ^ (units.log2 - 52) * 2 ^ 50 ≤ units := by
      exact_mod_cast two_pow_log2_sub_le h
    -- From four places on a last place of their number is four times that of one.
    have hfour := four_le_of_generous places hgenerous
    have hlog : 2 ≤ places.log2 := (Nat.le_log2 (by omega)).2 hfour
    have hpow : (2 : ℚ) ^ 2 ≤ 2 ^ places.log2 := pow_le_pow_right₀ one_le_two hlog
    have hstep : (1 / 2 ^ 50 : ℚ) ≤ 2 ^ places.log2 / 2 ^ 52 := by
      rw [div_le_div_iff₀ (by positivity) (by positivity)]
      linarith
    have hpart : (2 : ℚ) ^ (units.log2 - 52) ≤ units * (2 ^ places.log2 / 2 ^ 52) :=
      calc (2 : ℚ) ^ (units.log2 - 52) ≤ units / 2 ^ 50 := (le_div_iff₀ (by positivity)).2 hgrid
        _ = units * (1 / 2 ^ 50) := by rw [mul_one_div]
        _ ≤ units * (2 ^ places.log2 / 2 ^ 52) := mul_le_mul_of_nonneg_left hstep hunits
    rw [nextUnits, Nat.cast_add, Nat.pow_eq, Nat.cast_pow, Nat.cast_ofNat, mul_add, mul_one]
    exact add_le_add_right hpart _
  · exact le_mul_of_one_le_right hunits (le_add_of_nonneg_right (by positivity))

private theorem precision_mul {places : Nat} (h : places < 324) :
    ((2 ^ (53 - places.log2) * 10 ^ 15 : Nat) : ℚ) * (2 ^ places.log2 / 2 ^ 52) = 2 * 10 ^ 15 := by
  have hlog := log2_le_of_lt h
  have hpow : (2 : ℚ) ^ (53 - places.log2) * 2 ^ places.log2 = 2 ^ 53 := by
    rw [← pow_add, Nat.sub_add_cancel (by omega)]
  calc ((2 ^ (53 - places.log2) * 10 ^ 15 : Nat) : ℚ) * (2 ^ places.log2 / 2 ^ 52)
      = 2 ^ (53 - places.log2) * 2 ^ places.log2 * (10 ^ 15 / 2 ^ 52) := by
        push_cast
        ring
    _ = 2 * 10 ^ 15 := by
        rw [hpow]
        norm_num

/-- A number that reaches its first digit, as the logarithm has it, falls short of it by little more
than the last place of the logarithm. -/
theorem near_of_reaches {units places : Nat} (h : 2 ^ 50 ≤ units) (hplaces : places < 324)
    (hreaches : logReaches units places) :
    (1 - 1152 / 1000 * (2 ^ places.log2 / 2 ^ 52) : ℚ) ≤
      units / unitsPerOne * 10 ^ places * (1 + 2 ^ places.log2 / 2 ^ 52) := by
  have hcast := cast_unitsPerOne_pos
  have hnext := near_le places h
  have hprecision := precision_mul hplaces
  simp only [logReaches, decide_eq_true_eq, Nat.pow_eq] at hreaches
  have hpos : (0 : ℚ) < (2 ^ (53 - places.log2) * 10 ^ 15 : Nat) := by positivity
  generalize (if places ∈ generousPlaces then nextUnits units else units) = near at *
  generalize 2 ^ (53 - places.log2) * 10 ^ 15 = precision at *
  generalize (2 ^ places.log2 / 2 ^ 52 : ℚ) = lastPlace at *
  have hreal : (unitsPerOne : ℚ) * (precision - 2302585092994046) ≤
      near * 10 ^ places * precision := by
    have hsub : (precision : ℚ) - 2302585092994046 ≤ (precision - 2302585092994046 : Nat) := by
      rw [sub_le_iff_le_add]
      exact_mod_cast (le_tsub_add : precision ≤ precision - 2302585092994046 + 2302585092994046)
    exact (mul_le_mul_of_nonneg_left hsub hcast.le).trans (by exact_mod_cast hreaches)
  have hlost : (1 - 1152 / 1000 * lastPlace) * precision ≤ precision - 2302585092994046 := by
    linarith
  rw [div_mul_eq_mul_div (units : ℚ), div_mul_eq_mul_div _ _ (1 + lastPlace), le_div_iff₀ hcast]
  refine le_of_mul_le_mul_right ?_ hpos
  calc (1 - 1152 / 1000 * lastPlace) * unitsPerOne * precision
      = unitsPerOne * ((1 - 1152 / 1000 * lastPlace) * precision) := by ring
    _ ≤ unitsPerOne * (precision - 2302585092994046) := mul_le_mul_of_nonneg_left hlost hcast.le
    _ ≤ near * 10 ^ places * precision := hreal
    _ ≤ units * (1 + lastPlace) * 10 ^ places * precision := by gcongr
    _ = units * 10 ^ places * (1 + lastPlace) * precision := by ring

theorem unitsPerOne_le_last {units places : Nat} (h : 2 ^ 50 ≤ units) (hlast : places = 324) :
    unitsPerOne ≤ units * 10 ^ places := by
  obtain ⟨k, hk, hunit, -⟩ := exists_two_pow
  obtain ⟨n, rfl⟩ : ∃ n, places = 12 * n := ⟨27, hlast⟩
  calc unitsPerOne = 2 ^ k := hunit
    _ ≤ 2 ^ (50 + 38 * n) := Nat.pow_le_pow_right (by decide) (by omega)
    _ = 2 ^ 50 * (2 ^ 38) ^ n := by rw [Nat.pow_add, Nat.pow_mul]
    _ ≤ units * (10 ^ 12) ^ n := Nat.mul_le_mul h (Nat.pow_le_pow_left (by decide) n)
    _ = units * 10 ^ (12 * n) := by rw [← Nat.pow_mul]

private theorem one_le_two_mul {t w : ℚ} (hw : 0 ≤ w) (ht : t ≤ 1 / 8)
    (h : 1 - 1152 / 1000 * t ≤ w * (1 + t)) : 1 ≤ 2 * w := by
  have hle : w * (1 + t) ≤ w * (1 + 1 / 8) := mul_le_mul_of_nonneg_left (by linarith) hw
  linarith

theorem unitsPerOne_le_mul_pow {units : Nat} (h : 2 ^ 50 ≤ units) :
    unitsPerOne ≤ 2 * units * 10 ^ placesToFirstDigit units := by
  have hcast := cast_unitsPerOne_pos
  rcases (placesToFirstDigit_cases units).2 with ⟨hreaches, hplaces⟩ | hlast
  · have hnear := near_of_reaches h hplaces hreaches
    -- The logarithm is much finer than half of the number.
    have hpow : (2 : ℚ) ^ (placesToFirstDigit units).log2 ≤ 2 ^ 8 :=
      pow_le_pow_right₀ one_le_two (log2_le_of_lt hplaces)
    have hfine : (2 ^ (placesToFirstDigit units).log2 / 2 ^ 52 : ℚ) ≤ 1 / 8 := by
      rw [div_le_div_iff₀ (by positivity) (by norm_num)]
      linarith
    generalize (2 ^ (placesToFirstDigit units).log2 / 2 ^ 52 : ℚ) = lastPlace at *
    generalize placesToFirstDigit units = places at *
    have hsize : (0 : ℚ) ≤ units / unitsPerOne * 10 ^ places :=
      mul_nonneg (div_nonneg (Nat.cast_nonneg units) hcast.le) (by positivity)
    have hhalf := one_le_two_mul hsize hfine hnear
    rw [div_mul_eq_mul_div, ← mul_div_assoc, one_le_div hcast, ← mul_assoc] at hhalf
    exact_mod_cast hhalf
  · refine (unitsPerOne_le_last h hlast).trans (Nat.mul_le_mul_right _ ?_)
    exact Nat.le_mul_of_pos_left _ two_pos

theorem add_step_le {u base k : Nat} (hu : Representable u) (hbase : 2 ^ k ∣ base)
    (hlarge : 2 ^ (k + 52) ≤ base) (h : base < u) : base + 2 ^ k ≤ u := by
  have hne : u ≠ 0 := Nat.ne_of_gt (Nat.zero_lt_of_lt h)
  have hlog : k + 52 ≤ u.log2 := (Nat.le_log2 hne).2 (hlarge.trans h.le)
  have hdvd : 2 ^ k ∣ u := (Nat.pow_dvd_pow 2 (by omega)).trans hu.2
  have hstep := Nat.le_of_dvd (Nat.sub_pos_of_lt h) (Nat.dvd_sub hdvd hbase)
  omega

/-- The least count of units that four places do not round to zero. -/
def leastFixed : Nat := nearestUnits (5 * unitsPerOne) 100000

theorem ten_mul_leastFixed_le : 10 * leastFixed ≤ unitsPerOne := by decide +kernel

theorem representable_leastFixed : Representable leastFixed := by
  have hle := ten_mul_leastFixed_le
  have hone := Representable.one.1
  exact ⟨by omega, nearestUnits_dvd _ _⟩

theorem fraction_eq :
    Binary64.fraction 5 100000 = finite false leastFixed representable_leastFixed :=
  dif_pos representable_leastFixed.1

private theorem one_div_lt_leastFixed {u : Nat} (hu : Representable u)
    (h : 20000 * unitsPerOne < u) :
    nearestUnits (unitsPerOne * unitsPerOne) u < leastFixed := by
  -- Doubles from 2^14 on are 2^-38 apart; the reciprocals below 2^-14 lie on a grid of 2^-67, so
  -- neither of the two roundings, by half a step each, closes the gap.
  have hdvd : 2 ^ 1036 ∣ 20000 * unitsPerOne := by decide +kernel
  have hbase : 2 ^ (1036 + 52) ≤ 20000 * unitsPerOne := by decide +kernel
  have hstep := add_step_le hu hdvd hbase h
  have hquotient : unitsPerOne * unitsPerOne <
      (20000 * unitsPerOne + 2 ^ 1036) * 2 ^ (1006 + 54) := by
    decide +kernel
  have hbound : unitsPerOne * unitsPerOne <
      (leastFixed - 2 ^ 1006) * (20000 * unitsPerOne + 2 ^ 1036) := by
    decide +kernel
  refine nearestUnits_lt (k := 1006) (Nat.zero_lt_of_lt h) ?_ ?_
  · exact hquotient.trans_le (Nat.mul_le_mul_right _ hstep)
  · exact hbound.trans_le (Nat.mul_le_mul_left _ hstep)

theorem atPlaces_near {x : Binary64} (hx : x.isFinite) {places : Nat}
    (h : 1 ≤ 2 * x.value * 10 ^ places) :
    |x.atPlaces (4 + places) - x.value| ≤ x.value / 10 ^ 4 := by
  refine (atPlaces_error (4 + places) hx).trans ?_
  rw [pow_add, div_le_div_iff₀ (by positivity) (by positivity)]
  linarith

theorem multiplierPlaces_finite {units : Nat} (hunits : Representable units) (hpos : 0 < units) :
    Filters.multiplierPlaces (finite false units hunits) =
      if units < leastFixed then 4 + placesToFirstDigit units else 4 := by
  simp only [Filters.multiplierPlaces, fraction_eq, less_finite, hpos, decide_true, Bool.true_and,
    decide_eq_true_eq]

private theorem multiplierPlaces_cases {units : Nat} (hunits : Representable units)
    (h : 2 ^ 50 ≤ units) :
    (leastFixed ≤ units ∧ Filters.multiplierPlaces (finite false units hunits) = 4) ∨
      ∃ places, Filters.multiplierPlaces (finite false units hunits) = 4 + places ∧
        unitsPerOne ≤ 2 * units * 10 ^ places := by
  rw [multiplierPlaces_finite hunits (Nat.zero_lt_of_lt h)]
  by_cases hsmall : units < leastFixed
  · rw [if_pos hsmall]
    exact .inr ⟨_, rfl, unitsPerOne_le_mul_pow h⟩
  · rw [if_neg hsmall]
    exact .inl ⟨Nat.le_of_not_lt hsmall, rfl⟩

end Binary64

namespace Filters
open Binary64

def multiplier (factor : Binary64) : ℚ := (1 / factor).atPlaces (multiplierPlaces (1 / factor))

/-- The printed multiplier is a fixed decimal of the reciprocal, up to twenty thousand at most, or
near it in proportion. -/
theorem multiplier_error {f : Binary64} (hf : f.isFinite) (hpos : 0 < f.value)
    (hfinite : (1 / f).isFinite) :
    (f.value ≤ 20000 ∧ multiplier f = (1 / f).atPlaces 4) ∨
      |multiplier f - (1 / f).value| ≤ (1 / f).value / 10 ^ 4 := by
  obtain ⟨v, hv, hdiv, hlarge, -⟩ := one_div_error hf hpos hfinite
  have hcast := cast_unitsPerOne_pos
  unfold multiplier
  rw [hdiv]
  rcases multiplierPlaces_cases hv hlarge with ⟨hfixed, hplaces⟩ | ⟨places, hplaces, hfirst⟩
  · left
    rw [hplaces]
    refine ⟨?_, rfl⟩
    by_contra hfast
    obtain ⟨u, hu, rfl, hunits⟩ := exists_finite hf hpos
    obtain ⟨hw, hdiv'⟩ := exists_one_div hu hunits hfinite
    rw [hdiv', finite.injEq] at hdiv
    rw [value_finite, not_le, lt_div_iff₀ hcast] at hfast
    have hlt := one_div_lt_leastFixed hu (by exact_mod_cast hfast)
    omega
  · right
    rw [hplaces]
    refine atPlaces_near rfl ?_
    rw [value_finite, mul_div_assoc', div_mul_eq_mul_div, one_le_div hcast]
    exact_mod_cast hfirst

end Filters
end VideoEdit
