import VideoEdit.Proofs.Invocation.Multiplier
import VideoEdit.Proofs.Number.Logarithm
import VideoEdit.Proofs.Number.Nearest
/-!
# The places of a multiplier

A timestamp multiplier is printed as a positive decimal. It has four places exactly if they leave it
a digit; else it has more, by a base-ten logarithm, and then it is nearly exact. This holds of every
logarithm that is off by one unit in the last place at most, and the places are counted by such a
one.
-/
namespace VideoEdit
-- Numbers with thousands of bits; no proof may compute with them.
attribute [local irreducible] unitsPerOne overflowUnits

namespace Decimal

def places (text : List Char) : Nat := (text.dropWhile (· ≠ '.')).length - 1

end Decimal

namespace Binary64

private theorem places_toFixed {x : Binary64} (h : x.isFinite) (n : Nat) :
    Decimal.places (x.toFixed n) = n := by
  obtain ⟨negative, units, hunits, rfl⟩ := exists_eq_finite h
  obtain ⟨front, back, htext, -, hfront, -, hlength, -⟩ := exists_withPoint n (scaled n units)
  have hpoint : ∀ c ∈ signed negative front, decide (c ≠ '.') := by
    have hdigits : ∀ c ∈ front, c ≠ '.' := by
      rintro c hc rfl
      exact absurd (hfront '.' hc) (by decide)
    cases negative <;> simpa [signed] using hdigits
  have hsigned (text : List Char) :
      signed negative (front ++ text) = signed negative front ++ text := by
    cases negative <;> rfl
  rw [toFixed, htext, hsigned, Decimal.places, List.dropWhile_append_of_pos hpoint]
  split_ifs with hzero
  · rw [hzero]
    rfl
  · rw [List.dropWhile_cons_of_neg (by decide), List.length_cons, hlength, Nat.add_sub_cancel]

private theorem leastFixed_le_iff {units : Nat} (hu : Representable units) :
    leastFixed ≤ units ↔ 0 < (finite false units hu).rounded 4 := by
  have hcast := cast_unitsPerOne_pos
  have hhalf : 0 < (finite false units hu).rounded 4 ↔ unitsPerOne < 20000 * units := by
    rw [rounded_pos_iff, value_finite, div_lt_div_iff₀ (by norm_num) hcast]
    norm_num
    rw [mul_comm]
    exact_mod_cast Iff.rfl
  rw [hhalf]
  constructor
  · intro hle
    have hleast : unitsPerOne < 20000 * leastFixed := by decide +kernel
    exact hleast.trans_le (Nat.mul_le_mul_left _ hle)
  · intro hlarge
    by_contra hless
    -- Between half of the last place and the least count there is no other double.
    obtain ⟨k, hbinade, hbelow⟩ : ∃ k, 20000 * 2 ^ (k + 52) ≤ unitsPerOne ∧
        20000 * leastFixed ≤ unitsPerOne + 20000 * 2 ^ k :=
      ⟨1007, by decide +kernel, by decide +kernel⟩
    have hbig : 2 ^ (k + 52) ≤ units := by
      generalize 2 ^ (k + 52) = binade at *
      omega
    have hne : units ≠ 0 := by
      rintro rfl
      exact Nat.not_lt_zero _ hlarge
    have hlog : k + 52 ≤ units.log2 := (Nat.le_log2 hne).2 hbig
    have hdvd : 2 ^ k ∣ units := (Nat.pow_dvd_pow 2 (by omega)).trans hu.2
    have hstep := add_step_le representable_leastFixed hdvd hbig (Nat.lt_of_not_le hless)
    generalize 2 ^ k = step at *
    omega

private theorem lt_of_not_reaches {units places : Nat} (h : logReaches units places = false) :
    units * 10 ^ places < unitsPerOne := by
  simp only [logReaches, decide_eq_false_iff_not, not_le, Nat.pow_eq] at h
  have hprecision : 0 < 2 ^ (53 - places.log2) * 10 ^ 15 := by positivity
  generalize 2 ^ (53 - places.log2) * 10 ^ 15 = precision at *
  refine Nat.lt_of_mul_lt_mul_right (a := precision) ?_
  have hnext : units ≤ if places ∈ generousPlaces then nextUnits units else units := by
    split_ifs
    · exact Nat.le_add_right _ _
    · exact le_rfl
  calc units * 10 ^ places * precision
      ≤ (if places ∈ generousPlaces then nextUnits units else units) * 10 ^ places * precision :=
        Nat.mul_le_mul_right _ (Nat.mul_le_mul_right _ hnext)
    _ < unitsPerOne * (precision - 2302585092994046) := h
    _ ≤ unitsPerOne * precision := Nat.mul_le_mul_left _ (Nat.sub_le _ _)

section Small
variable {units : Nat} (hu : Representable units) (h : 2 ^ 50 ≤ units)

include h in
private theorem logb_bounds (hsmall : units < leastFixed) :
    placesToFirstDigit units ≠ 0 ∧ placesToFirstDigit units ≤ 324 ∧
      Real.logb 10 (finite false units hu).value < 1 - placesToFirstDigit units ∧
      -(2 ^ (placesToFirstDigit units).log2 / 2 ^ 52) ≤
        Real.logb 10 (finite false units hu).value + placesToFirstDigit units := by
  have hcast := cast_real_pos
  have hpos : (0 : ℝ) < units / unitsPerOne :=
    div_pos (by exact_mod_cast Nat.zero_lt_of_lt h) hcast
  have hvalue : (((finite false units hu).value : ℚ) : ℝ) = units / unitsPerOne := by
    rw [value_finite]
    push_cast
    rfl
  have hfirst := unitsPerOne_le_mul_pow h
  obtain ⟨hbefore, hreaches⟩ := placesToFirstDigit_cases units
  rw [hvalue]
  generalize placesToFirstDigit units = places at *
  have hne : places ≠ 0 := by
    rintro rfl
    have htenth := ten_mul_leastFixed_le
    rw [pow_zero, Nat.mul_one] at hfirst
    omega
  have hlast : places ≤ 324 := hreaches.elim (fun hlt => hlt.2.le) le_of_eq
  refine ⟨hne, hlast, ?above, ?below⟩
  case above =>
    have hlt := lt_of_not_reaches (hbefore (places - 1) (by omega))
    have hcastLt : (units * 10 ^ (places - 1) : ℝ) < unitsPerOne := by exact_mod_cast hlt
    have hone : (units / unitsPerOne * 10 ^ (places - 1) : ℝ) < 1 := by
      rwa [div_mul_eq_mul_div, div_lt_one hcast]
    have hlog := (Real.logb_neg_iff (b := 10) (by norm_num) (by positivity)).2 hone
    rw [logb_mul_pow hpos, Nat.cast_sub (by omega), Nat.cast_one] at hlog
    linarith
  case below =>
    rw [← logb_mul_pow hpos]
    rcases hreaches with ⟨hreaches, hlt⟩ | hall
    · have hnear := (Rat.cast_le (K := ℝ)).2 (near_of_reaches h hlt hreaches)
      push_cast at hnear
      refine neg_le_logb (by positivity) ?_ hnear
      have hpow : (2 : ℝ) ^ places.log2 ≤ 2 ^ 8 :=
        pow_le_pow_right₀ one_le_two (log2_le_of_lt hlt)
      rw [div_le_div_iff₀ (by positivity) (by positivity)]
      linarith
    · have hone : (1 : ℝ) ≤ units / unitsPerOne * 10 ^ places := by
        rw [div_mul_eq_mul_div, one_le_div hcast]
        exact_mod_cast unitsPerOne_le_last h hall
      have hlog := Real.logb_nonneg (b := 10) (by norm_num) hone
      exact (neg_nonpos.2 (by positivity)).trans hlog

include h in
private theorem exists_logarithm_of_small (hsmall : units < leastFixed) :
    ∃ y : Binary64, y.Approximates (Real.logb 10 (finite false units hu).value) ∧
      ⌈-y.value⌉.toNat = placesToFirstDigit units := by
  obtain ⟨hne, hlast, habove, hbelow⟩ := logb_bounds hu h hsmall
  generalize placesToFirstDigit units = places at *
  generalize Real.logb 10 (finite false units hu).value = r at *
  have hcast := cast_unitsPerOne_pos
  have hone : (1 : ℝ) ≤ places := by exact_mod_cast Nat.one_le_iff_ne_zero.2 hne
  have hplaces : Representable (places * unitsPerOne) := Representable.natCast (by omega)
  rcases le_or_gt (-(places : ℝ)) r with hin | hout
  · -- From there on there is a double between the number of places and the logarithm.
    have hneg : r < 0 := by linarith
    have hle : |r| ≤ (places * unitsPerOne : Nat) / unitsPerOne := by
      rw [Nat.cast_mul, mul_div_cancel_right₀ _ cast_real_pos.ne', abs_of_neg hneg]
      linarith
    obtain ⟨negative, u, hy, happrox, hfar, hnear, hsign⟩ := exists_approximates hplaces hle
    rw [hsign hneg] at happrox
    refine ⟨_, happrox, ?_⟩
    have hlow : ((places : ℤ) : ℚ) - 1 < u / unitsPerOne := by
      rw [abs_of_neg hneg] at hfar
      refine (Rat.cast_lt (K := ℝ)).1 ?_
      push_cast
      linarith
    have hhigh : (u / unitsPerOne : ℚ) ≤ (places : ℤ) := by
      rw [div_le_iff₀ hcast]
      exact_mod_cast hnear
    rw [value, if_pos rfl, neg_div, neg_neg, Int.ceil_eq_iff.2 ⟨hlow, hhigh⟩, Int.toNat_natCast]
  · -- The logarithm is off the number of places by less than a last place.
    refine ⟨_, approximates_neg_natCast hplaces hne hbelow (by linarith), ?_⟩
    rw [value_natCast, if_pos rfl, neg_neg, Int.ceil_natCast, Int.toNat_natCast]

end Small

end Binary64

namespace Filters
open Binary64

/-- The decimal places of a timestamp multiplier, as a base-ten logarithm counts them. -/
def multiplierPlacesBy (log10 : Binary64 → Binary64) (scale : Binary64) : Nat :=
  if Binary64.less 0 scale && scale.less (.fraction 5 100000) then
    4 + ⌈-(log10 scale).value⌉.toNat
  else 4

def setptsBy (log10 : Binary64 → Binary64) (factor : Binary64) : String :=
  let scale := 1 / factor
  "setpts=" ++ String.ofList (scale.toFixed (multiplierPlacesBy log10 scale)) ++ "*PTS"

/-- What the text of a multiplier is to be: a positive decimal, with four places if they do not
round the number to zero, and else with more and next to the number. -/
def Renders (scale : Binary64) (filter : String) : Prop :=
  ∃ text m, filter = "setpts=" ++ String.ofList text ++ "*PTS" ∧
    Decimal.read? text = some m ∧ 0 < m ∧
    (scale.rounded 4 ≠ 0 → Decimal.places text = 4) ∧
    (scale.rounded 4 = 0 →
      4 < Decimal.places text ∧ |m - scale.value| ≤ scale.value / 10 ^ 4)

section Multiplier
variable {log10 : Binary64 → Binary64} {units : Nat} (hunits : Representable units)

private theorem multiplierPlacesBy_finite (hpos : 0 < units) :
    multiplierPlacesBy log10 (finite false units hunits) =
      if units < leastFixed then 4 + ⌈-(log10 (finite false units hunits)).value⌉.toNat else 4 := by
  simp only [multiplierPlacesBy, zero_eq, fraction_eq, less_finite, hpos, decide_true,
    Bool.true_and, decide_eq_true_eq]

private theorem value_pos (hpos : 0 < units) : 0 < (finite false units hunits).value := by
  rw [value_finite]
  exact div_pos (by exact_mod_cast hpos) cast_unitsPerOne_pos

private theorem renders_setptsBy {f : Binary64} (hf : f.isFinite) (hpos : 0 < f.value)
    (hfinite : (1 / f).isFinite)
    (hlog : (log10 (1 / f)).Approximates (Real.logb 10 (1 / f).value)) :
    Renders (1 / f) (setptsBy log10 f) := by
  obtain ⟨v, hv, hdiv, hlarge, -⟩ := one_div_error hf hpos hfinite
  have hv0 : 0 < v := Nat.zero_lt_of_lt hlarge
  have hcast := cast_unitsPerOne_pos
  rw [hdiv] at hlog
  unfold setptsBy
  rw [hdiv]
  have hvalue := value_pos hv hv0
  refine ⟨_, _, rfl, read?_toFixed rfl _, ?_⟩
  rw [places_toFixed rfl, multiplierPlacesBy_finite hv hv0]
  by_cases hsmall : v < leastFixed
  · rw [if_pos hsmall]
    have hzero : (finite false v hv).rounded 4 = 0 := by
      have hnot := mt (leastFixed_le_iff hv).2 (Nat.not_le.2 hsmall)
      rw [rounded_finite] at hnot ⊢
      simpa using hnot
    have htenth : (finite false v hv).value ≤ 1 / 10 := by
      rw [value_finite, div_le_div_iff₀ hcast (by norm_num), one_mul, mul_comm]
      exact_mod_cast (Nat.mul_le_mul_left 10 hsmall.le).trans ten_mul_leastFixed_le
    obtain ⟨hmore, hfirst⟩ := first_digit_of_approximates rfl hvalue htenth hlog
    generalize ⌈-(log10 (finite false v hv)).value⌉.toNat = places at *
    have hnear := atPlaces_near rfl hfirst
    refine ⟨?_, fun hne => absurd hzero hne, fun _ => ⟨by omega, hnear⟩⟩
    have hlow := (abs_le.1 hnear).1
    linarith
  · rw [if_neg hsmall]
    have hfixed := (leastFixed_le_iff hv).1 (Nat.le_of_not_lt hsmall)
    refine ⟨?_, fun _ => rfl, fun hzero => absurd hzero hfixed.ne'⟩
    rwa [atPlaces_pos_iff rfl, ← rounded_pos_iff]

end Multiplier

private theorem exists_setptsBy_eq {f : Binary64} (hf : f.isFinite) (hpos : 0 < f.value)
    (hfinite : (1 / f).isFinite) :
    ∃ y : Binary64, y.Approximates (Real.logb 10 (1 / f).value) ∧
      setptsBy (fun _ => y) f = setpts f := by
  obtain ⟨v, hv, hdiv, hlarge, -⟩ := one_div_error hf hpos hfinite
  have hv0 : 0 < v := Nat.zero_lt_of_lt hlarge
  unfold setptsBy setpts
  dsimp only
  rw [hdiv, multiplierPlaces_finite hv hv0]
  by_cases hsmall : v < leastFixed
  · obtain ⟨y, hy, hplaces⟩ := exists_logarithm_of_small hv hlarge hsmall
    refine ⟨y, hy, ?_⟩
    rw [multiplierPlacesBy_finite hv hv0, if_pos hsmall, if_pos hsmall, hplaces]
  · obtain ⟨y, hy⟩ := exists_approximates_logb rfl (value_pos hv hv0)
    refine ⟨y, hy, ?_⟩
    rw [multiplierPlacesBy_finite hv hv0, if_neg hsmall, if_neg hsmall]

/-- A multiplier is a positive decimal with four places, unless they round it to zero; then it has
more, by any logarithm that is off by one unit in the last place at most, and is nearly exact. -/
theorem setpts_renders {f : Binary64} (hf : f.isFinite) (hpos : 0 < f.value)
    (hfinite : (1 / f).isFinite) :
    Renders (1 / f) (setpts f) ∧
      ∀ log10 : Binary64 → Binary64,
        (log10 (1 / f)).Approximates (Real.logb 10 (1 / f).value) →
          Renders (1 / f) (setptsBy log10 f) := by
  refine ⟨?_, fun log10 hlog => renders_setptsBy hf hpos hfinite hlog⟩
  obtain ⟨y, hy, heq⟩ := exists_setptsBy_eq hf hpos hfinite
  rw [← heq]
  exact renders_setptsBy hf hpos hfinite hy

/-- The double next to a millionth lies just below it, so its logarithm is nearly minus six. -/
theorem setpts_renders_million :
    (1000000 : Binary64).isFinite ∧ 0 < (1000000 : Binary64).value ∧
      (1 / 1000000 : Binary64).isFinite ∧
      (-6 : Binary64).Approximates (Real.logb 10 (1 / 1000000 : Binary64).value) ∧
      setpts 1000000 = "setpts=0.0000010000*PTS" ∧
      setptsBy (fun _ => -6) 1000000 = "setpts=0.0000010000*PTS" ∧
      Renders (1 / 1000000) "setpts=0.0000010000*PTS" := by
  have hf : (1000000 : Binary64).isFinite := by decide +kernel
  have hpos : 0 < (1000000 : Binary64).value := by decide +kernel
  have hfinite : (1 / 1000000 : Binary64).isFinite := by decide +kernel
  have hlog : (-6 : Binary64).Approximates (Real.logb 10 (1 / 1000000 : Binary64).value) := by
    have hsix : Representable (6 * unitsPerOne) := .natCast (by decide)
    have heq : (-6 : Binary64) = finite true (6 * unitsPerOne) hsix :=
      congrArg neg (fraction_finite hsix Nat.one_pos (Nat.mul_one _).symm)
    have hlow : 1 - 1 / 2 ^ 53 ≤ (1 / 1000000 : Binary64).value * 10 ^ 6 := by decide +kernel
    have hhigh : (1 / 1000000 : Binary64).value * 10 ^ 6 ≤ 1 := by decide +kernel
    have hvalue : 0 < (1 / 1000000 : Binary64).value := by decide +kernel
    generalize (1 / 1000000 : Binary64).value = s at *
    have hcastPos : (0 : ℝ) < s := by exact_mod_cast hvalue
    have hcastLow := (Rat.cast_le (K := ℝ)).2 hlow
    push_cast at hcastLow
    have hcastHigh : (s * 10 ^ 6 : ℝ) ≤ 1 := by exact_mod_cast hhigh
    rw [heq]
    refine approximates_neg_natCast hsix (by decide) ?_ ?_
    · rw [← logb_mul_pow hcastPos]
      refine neg_le_logb (by positivity) ?_ ?_
      · rw [show Nat.log2 6 = 2 by decide]
        norm_num
      · rw [show Nat.log2 6 = 2 by decide]
        linarith
    · rw [← logb_mul_pow hcastPos]
      exact Real.logb_nonpos (by norm_num) (by positivity) hcastHigh
  have htext : setptsBy (fun _ => -6) 1000000 = "setpts=0.0000010000*PTS" := by decide +kernel
  have hrenders := (setpts_renders hf hpos hfinite).2 (fun _ => -6) hlog
  rw [htext] at hrenders
  exact ⟨hf, hpos, hfinite, hlog, by decide +kernel, htext, hrenders⟩

end Filters
end VideoEdit
