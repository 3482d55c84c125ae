import Mathlib.Analysis.Complex.ExponentialBounds
import Mathlib.Analysis.SpecialFunctions.Log.Base
import VideoEdit.Proofs.Number.Rounding
/-!
# Logarithms that are doubles

The base-ten logarithm of a double is a real number of moderate size, so a double comes within one
unit in the last place of it. However that double is chosen, rounded up it counts the places to the
first digit of a small number.
-/
namespace VideoEdit
-- Numbers with thousands of bits; no proof may compute with them.
attribute [local irreducible] unitsPerOne overflowUnits

private theorem Representable.sub_grid {u : Nat} (h : Representable u) :
    Representable (u - 2 ^ (u.log2 - 52)) := by
  refine ⟨(Nat.sub_le _ _).trans_lt h.1, ?_⟩
  have hdvd := h.2
  have hlog : (u - 2 ^ (u.log2 - 52)).log2 ≤ u.log2 := by
    rcases Nat.eq_zero_or_pos (u - 2 ^ (u.log2 - 52)) with hzero | hpos
    · rw [hzero, Nat.log2_zero]
      exact Nat.zero_le _
    · have hle := Nat.sub_le u (2 ^ (u.log2 - 52))
      refine (Nat.le_log2 (hpos.trans_le hle).ne').2 ?_
      exact (Nat.log2_self_le hpos.ne').trans hle
  simp only [Nat.pow_eq] at hdvd ⊢
  exact (Nat.pow_dvd_pow 2 (Nat.sub_le_sub_right hlog 52)).trans (Nat.dvd_sub hdvd dvd_rfl)

namespace Binary64

def lastPlace : Binary64 → ℚ
  | finite _ units _ => 2 ^ (units.log2 - 52) / unitsPerOne
  | _ => 0

/-- A finite double that is off a real number by one unit in its last place at most. -/
def Approximates (x : Binary64) (r : ℝ) : Prop :=
  x.isFinite ∧ |(x.value : ℝ) - r| ≤ x.lastPlace

theorem cast_real_pos : (0 : ℝ) < unitsPerOne := by exact_mod_cast unitsPerOne_pos

private theorem lastPlace_nonneg (x : Binary64) : 0 ≤ x.lastPlace := by
  have hcast := cast_unitsPerOne_pos
  cases x with
  | nan => exact le_rfl
  | infinite => exact le_rfl
  | finite => exact div_nonneg (by positivity) hcast.le

private theorem lastPlace_le (x : Binary64) :
    x.lastPlace ≤ |x.value| / 2 ^ 52 + 1 / unitsPerOne := by
  have hcast := cast_unitsPerOne_pos
  have hother : (0 : ℚ) ≤ |x.value| / 2 ^ 52 + 1 / unitsPerOne := by positivity
  rcases x with _ | _ | ⟨negative, units, hunits⟩
  · exact hother
  · exact hother
  have hvalue : |(finite negative units hunits).value| = units / unitsPerOne := by
    rw [value_eq_div, abs_div, abs_of_pos hcast]
    cases negative <;> simp
  have hstep : (2 : ℚ) ^ (units.log2 - 52) ≤ units / 2 ^ 52 + 1 := by
    rcases Nat.lt_or_ge units.log2 52 with hsmall | hlarge
    · rw [Nat.sub_eq_zero_of_le hsmall.le, pow_zero]
      exact le_add_of_nonneg_left (by positivity)
    · have hgrid : (2 : ℚ) ^ (units.log2 - 52) * 2 ^ 52 ≤ units := by
        exact_mod_cast two_pow_log2_sub_mul_le hlarge
      rw [← le_div_iff₀ (by positivity)] at hgrid
      linarith
  rw [hvalue, lastPlace, div_right_comm, ← add_div, div_le_div_iff_of_pos_right hcast]
  exact hstep

theorem value_natCast (negative : Bool) {n : Nat} (h : Representable (n * unitsPerOne)) :
    (finite negative (n * unitsPerOne) h).value = if negative then -(n : ℚ) else n := by
  have hcast := cast_unitsPerOne_pos
  rw [value_eq_div, div_eq_iff hcast.ne']
  cases negative <;> simp

private theorem lastPlace_natCast (negative : Bool) {n : Nat} (h : Representable (n * unitsPerOne))
    (hne : n ≠ 0) :
    (finite negative (n * unitsPerOne) h).lastPlace = 2 ^ n.log2 / 2 ^ 52 := by
  obtain ⟨k, hk, hunit, -⟩ := exists_two_pow
  have hsplit : (unitsPerOne : ℚ) = 2 ^ (k - 52) * 2 ^ 52 := by
    rw [hunit, ← pow_add, Nat.sub_add_cancel (by omega), Nat.cast_pow, Nat.cast_ofNat]
  have hlog : (n * unitsPerOne).log2 - 52 = n.log2 + (k - 52) := by
    rw [hunit, log2_mul_two_pow hne, Nat.add_sub_assoc (by omega)]
  rw [lastPlace, hlog, pow_add, hsplit, mul_comm, mul_div_mul_left _ _ (by positivity)]

theorem approximates_neg_natCast {n : Nat} (h : Representable (n * unitsPerOne)) (hne : n ≠ 0)
    {r : ℝ} (hlow : -(2 ^ n.log2 / 2 ^ 52) ≤ r + n) (hhigh : r + n ≤ 0) :
    (finite true (n * unitsPerOne) h).Approximates r := by
  refine ⟨rfl, ?_⟩
  rw [value_natCast, lastPlace_natCast true h hne, if_pos rfl]
  push_cast
  rw [abs_of_nonneg (by linarith)]
  linarith

private theorem exists_least {r : ℝ} (hr : 0 ≤ r) {bound : Nat} (hbound : Representable bound)
    (hle : r ≤ bound / unitsPerOne) :
    ∃ u, ∃ hu : Representable u, r ≤ u / unitsPerOne ∧ u ≤ bound ∧
      (u / unitsPerOne - r : ℝ) ≤ (finite false u hu).lastPlace := by
  classical
  have hcast := cast_real_pos
  have hexists : ∃ u, Representable u ∧ r ≤ u / unitsPerOne := ⟨bound, hbound, hle⟩
  obtain ⟨hu, habove⟩ := Nat.find_spec hexists
  have hleast := fun n => Nat.find_min hexists (m := n)
  have hbelow := Nat.find_min' hexists ⟨hbound, hle⟩
  generalize Nat.find hexists = u at *
  refine ⟨u, hu, habove, hbelow, ?_⟩
  rcases Nat.eq_zero_or_pos u with rfl | hpos
  · have hplace := lastPlace_nonneg (finite false 0 hu)
    have hplace' : (0 : ℝ) ≤ (finite false 0 hu).lastPlace := by exact_mod_cast hplace
    rw [Nat.cast_zero, zero_div]
    linarith
  · -- The next smaller count lies below the real number.
    have hgrid : 2 ^ (u.log2 - 52) ≤ u :=
      (Nat.pow_le_pow_right (by decide) (Nat.sub_le _ _)).trans (Nat.log2_self_le hpos.ne')
    have hnext := hleast (u - 2 ^ (u.log2 - 52)) (Nat.sub_lt hpos (Nat.two_pow_pos _))
    have hlt : ((u - 2 ^ (u.log2 - 52) : Nat) : ℝ) / unitsPerOne < r :=
      not_le.1 fun hnot => hnext ⟨hu.sub_grid, hnot⟩
    rw [Nat.cast_sub hgrid, sub_div, Nat.cast_pow, Nat.cast_ofNat] at hlt
    rw [lastPlace]
    push_cast
    linarith

/-- A double comes near every real number of moderate size, from outside. -/
theorem exists_approximates {r : ℝ} {bound : Nat} (hbound : Representable bound)
    (hle : |r| ≤ bound / unitsPerOne) :
    ∃ negative u, ∃ hu : Representable u, (finite negative u hu).Approximates r ∧
      |r| ≤ u / unitsPerOne ∧ u ≤ bound ∧ (r < 0 → negative = true) := by
  obtain ⟨u, hu, habove, hbelow, hplace⟩ := exists_least (abs_nonneg r) hbound hle
  rcases lt_or_ge r 0 with hneg | hpos
  · refine ⟨true, u, hu, ⟨rfl, ?_⟩, habove, hbelow, fun _ => rfl⟩
    rw [abs_of_neg hneg] at habove hplace
    rw [value_eq_div, if_pos rfl]
    push_cast
    rw [abs_of_nonpos (by rw [neg_div]; linarith), neg_div]
    rw [lastPlace] at hplace ⊢
    linarith
  · refine ⟨false, u, hu, ⟨rfl, ?_⟩, habove, hbelow, fun hneg => absurd hneg (not_lt.2 hpos)⟩
    rw [abs_of_nonneg hpos] at habove hplace
    rw [value_finite]
    push_cast
    rw [abs_of_nonneg (by linarith)]
    exact hplace

theorem logb_mul_pow {x : ℝ} (hx : 0 < x) (n : Nat) :
    Real.logb 10 (x * 10 ^ n) = Real.logb 10 x + n := by
  rw [Real.logb_mul hx.ne' (by positivity), Real.logb_pow, Real.logb_self_eq_one (by norm_num),
    mul_one]

/-- A number that is by little more than `t` below one has a logarithm of at least `-t`. -/
theorem neg_le_logb {t z : ℝ} (ht : 0 ≤ t) (hsmall : t ≤ 1 / 2 ^ 40)
    (hz : 1 - 1152 / 1000 * t ≤ z * (1 + t)) : -t ≤ Real.logb 10 z := by
  have hten : 2302 / 1000 < Real.log 10 := by
    rw [Real.log_ten_eq]
    linarith [Real.log_two_gt_d9, Real.log_five_gt_d9]
  norm_num at hsmall
  have hpos : 0 < z := by
    by_contra hneg
    nlinarith
  have hinv : z⁻¹ ≤ 1 + 2302 / 1000 * t := by
    have hone : 1 ≤ z * (1 + 2302 / 1000 * t) := by nlinarith
    rwa [inv_le_iff_one_le_mul₀ hpos, mul_comm]
  have hlog := Real.one_sub_inv_le_log_of_pos hpos
  rw [Real.logb, le_div_iff₀ (by linarith)]
  nlinarith

private theorem le_unitsPerOne : 2 ^ 3 ≤ unitsPerOne := by
  obtain ⟨k, hk, hunit, -⟩ := exists_two_pow
  rw [hunit]
  exact Nat.pow_le_pow_right (by decide) (by omega)

private theorem overflowUnits_le : overflowUnits ≤ unitsPerOne * unitsPerOne := by
  rw [← overflowUnits_mul_eq]
  exact Nat.le_mul_of_pos_right _ (Nat.two_pow_pos 50)

private theorem abs_logb_le {x : Binary64} (hx : x.isFinite) (hpos : 0 < x.value) :
    |Real.logb 10 x.value| ≤ 1074 := by
  obtain ⟨u, hu, rfl, hunits⟩ := exists_finite hx hpos
  have hcast := cast_real_pos
  have hone : (1 : ℝ) ≤ u := by exact_mod_cast hunits
  have hlow : (1 / unitsPerOne : ℝ) ≤ u / unitsPerOne :=
    div_le_div_of_nonneg_right hone hcast.le
  have hhigh : (u / unitsPerOne : ℝ) ≤ unitsPerOne := by
    rw [div_le_iff₀ hcast]
    exact_mod_cast hu.1.le.trans overflowUnits_le
  have hsize : Real.logb 10 unitsPerOne ≤ 1074 := by
    obtain ⟨k, hk, hunit, -⟩ := exists_two_pow
    have hle : (unitsPerOne : ℝ) ≤ 10 ^ k := by
      exact_mod_cast hunit.le.trans (Nat.pow_le_pow_left (by decide) k)
    have hlog := Real.logb_le_logb_of_le (b := 10) (by norm_num) hcast hle
    rwa [Real.logb_pow, Real.logb_self_eq_one (by norm_num), mul_one, hk, Nat.cast_ofNat] at hlog
  have hlogLow := Real.logb_le_logb_of_le (b := 10) (by norm_num) (one_div_pos.2 hcast) hlow
  have hlogHigh := Real.logb_le_logb_of_le (b := 10) (by norm_num)
    (div_pos (by linarith) hcast) hhigh
  rw [one_div, Real.logb_inv] at hlogLow
  rw [value_finite]
  push_cast
  rw [abs_le]
  constructor <;> linarith

theorem exists_approximates_logb {x : Binary64} (hx : x.isFinite) (hpos : 0 < x.value) :
    ∃ y : Binary64, y.Approximates (Real.logb 10 x.value) := by
  have hle : |Real.logb 10 x.value| ≤ (1074 * unitsPerOne : Nat) / unitsPerOne := by
    rw [Nat.cast_mul, mul_div_cancel_right₀ _ cast_real_pos.ne']
    exact_mod_cast abs_logb_le hx hpos
  obtain ⟨negative, u, hu, hy, -⟩ := exists_approximates (.natCast (by decide)) hle
  exact ⟨_, hy⟩

private theorem lastPlace_of_approximates {y : Binary64} {r : ℝ} (hy : y.Approximates r)
    (hr : |r| ≤ 1074) : (y.lastPlace : ℝ) ≤ 1 / 4 := by
  have hplace := (Rat.cast_le (K := ℝ)).2 (lastPlace_le y)
  push_cast at hplace
  have hunit : (1 / unitsPerOne : ℝ) ≤ 1 / 8 :=
    one_div_le_one_div_of_le (by norm_num) (by exact_mod_cast le_unitsPerOne)
  have hsize := (abs_sub_abs_le_abs_sub (y.value : ℝ) r).trans hy.2
  linarith

/-- Rounded up, a logarithm that is nearly exact counts at least as many places as it takes to come
within half of the first digit, and one at least. -/
theorem first_digit_of_approximates {x y : Binary64} (hx : x.isFinite) (hpos : 0 < x.value)
    (hsmall : x.value ≤ 1 / 10) (hy : y.Approximates (Real.logb 10 x.value)) :
    0 < ⌈-y.value⌉.toNat ∧ 1 ≤ 2 * x.value * 10 ^ ⌈-y.value⌉.toNat := by
  have hcastPos : (0 : ℝ) < x.value := by exact_mod_cast hpos
  have hcastSmall : (x.value : ℝ) ≤ 10⁻¹ := by
    have hcast := (Rat.cast_le (K := ℝ)).2 hsmall
    rwa [Rat.cast_div, Rat.cast_one, Rat.cast_ofNat, one_div] at hcast
  have hlogSmall : Real.logb 10 x.value ≤ -1 := by
    have hlog := Real.logb_le_logb_of_le (b := 10) (by norm_num) hcastPos hcastSmall
    rwa [Real.logb_inv, Real.logb_self_eq_one (by norm_num)] at hlog
  obtain ⟨hlow, hhigh⟩ := abs_le.1 hy.2
  have hplace := lastPlace_of_approximates hy (abs_logb_le hx hpos)
  have hceil : (-y.value : ℝ) ≤ ⌈-y.value⌉.toNat := by
    have hint := (Int.le_ceil (-y.value)).trans (Int.cast_le.2 (Int.self_le_toNat ⌈-y.value⌉))
    exact_mod_cast hint
  generalize ⌈-y.value⌉.toNat = places at *
  constructor
  · by_contra hzero
    rw [Nat.eq_zero_of_not_pos hzero, Nat.cast_zero] at hceil
    linarith
  · have htwo : 1 / 4 ≤ Real.logb 10 2 := by
      have hlog := Real.logb_le_logb_of_le (b := 10) (by norm_num) (by norm_num : (0 : ℝ) < 10)
        (by norm_num : (10 : ℝ) ≤ 2 ^ 4)
      rw [Real.logb_pow, Real.logb_self_eq_one (by norm_num), Nat.cast_ofNat] at hlog
      linarith
    have hlog : 0 ≤ Real.logb 10 (2 * x.value * 10 ^ places) := by
      rw [Real.logb_mul (by positivity) (by positivity), Real.logb_mul (by norm_num) hcastPos.ne',
        Real.logb_pow, Real.logb_self_eq_one (by norm_num), mul_one]
      linarith
    have hone := (Real.logb_nonneg_iff (by norm_num) (by positivity)).1 hlog
    exact_mod_cast hone

end Binary64
end VideoEdit
