import Mathlib.Algebra.Order.Ring.Rat
import Mathlib.Tactic.NormNum
import VideoEdit.Number.Binary64
/-!
# Exact arithmetic on doubles

A finite double stands for a dyadic rational. Rounding changes no count of units that the format
holds, and doubling keeps a count in the format up to overflow, so a result that the format holds
is the exact one.
-/
namespace VideoEdit
-- Numbers with thousands of bits; no proof may compute with them.
attribute [local irreducible] unitsPerOne overflowUnits

theorem unitsPerOne_eq : unitsPerOne = 2 ^ 1074 := by decide +kernel

/-- Both are powers of two; with a variable for the exponent nothing tries to compute them. -/
theorem exists_two_pow :
    ∃ k, k = 1074 ∧ unitsPerOne = 2 ^ k ∧ overflowUnits = 2 ^ (k + 1024) :=
  ⟨1074, rfl, unitsPerOne_eq, by decide +kernel⟩

theorem unitsPerOne_pos : 0 < unitsPerOne := by
  obtain ⟨k, -, hunit, -⟩ := exists_two_pow
  rw [hunit]
  exact Nat.two_pow_pos k

theorem cast_unitsPerOne_pos : (0 : ℚ) < unitsPerOne := by exact_mod_cast unitsPerOne_pos

theorem roundDiv_mul_self (n : Nat) {den : Nat} (h : 0 < den) : roundDiv (n * den) den = n := by
  simp [roundDiv, Nat.mul_div_cancel n h, h]

private theorem roundDiv_le {num den bound : Nat} (h : num ≤ bound * den) :
    roundDiv num den ≤ bound := by
  rcases Nat.lt_or_eq_of_le h with hlt | rfl
  · exact roundDiv_le_of_lt_mul (by rwa [Nat.mul_comm])
  · rcases Nat.eq_zero_or_pos den with rfl | hpos
    · simp [roundDiv]
    · exact (roundDiv_mul_self bound hpos).le

theorem log2_mul_two_pow {n : Nat} (h : n ≠ 0) (k : Nat) : (n * 2 ^ k).log2 = n.log2 + k := by
  have hpos := Nat.two_pow_pos k
  rw [Nat.log2_eq_iff (Nat.mul_ne_zero h hpos.ne'), Nat.add_right_comm, Nat.pow_add, Nat.pow_add]
  exact ⟨Nat.mul_le_mul_right _ (Nat.log2_self_le h),
    Nat.mul_lt_mul_of_pos_right Nat.lt_log2_self hpos⟩

namespace Representable

private theorem grid_pos (n : Nat) : 0 < Nat.pow 2 (n.log2 - 52) := Nat.two_pow_pos _

theorem two_mul {n : Nat} (h : Representable n) (ho : 2 * n < overflowUnits) :
    Representable (2 * n) := by
  refine ⟨ho, ?_⟩
  have hdvd := h.2
  simp only [Nat.pow_eq] at hdvd ⊢
  rcases Nat.eq_zero_or_pos n with rfl | hpos
  · simp
  rw [Nat.log2_two_mul (Nat.ne_of_gt hpos)]
  by_cases hlog : 52 ≤ n.log2
  · have hexp : n.log2 + 1 - 52 = n.log2 - 52 + 1 := by omega
    rw [hexp, Nat.pow_succ, Nat.mul_comm]
    exact Nat.mul_dvd_mul_left 2 hdvd
  · have hexp : n.log2 + 1 - 52 = 0 := by omega
    simp [hexp]

theorem two_pow_mul {n : Nat} (h : Representable n) (k : Nat) (ho : 2 ^ k * n < overflowUnits) :
    Representable (2 ^ k * n) := by
  induction k with
  | zero => simpa using h
  | succ k ih =>
    have hsucc : 2 ^ (k + 1) * n = 2 * (2 ^ k * n) := by
      rw [Nat.pow_succ, Nat.mul_comm _ 2, Nat.mul_assoc]
    rw [hsucc] at ho ⊢
    exact (ih (by omega)).two_mul ho

theorem exists_half {n : Nat} (h : Representable n) (hn : 2 ^ 53 ≤ n) :
    ∃ m, n = 2 * m ∧ Representable m := by
  have hne : n ≠ 0 := by
    rintro rfl
    simp at hn
  have hlog : 53 ≤ n.log2 := (Nat.le_log2 hne).2 hn
  have hdvd := h.2
  have htwo : 2 ∣ Nat.pow 2 (n.log2 - 52) := dvd_pow_self 2 (by omega)
  obtain ⟨m, rfl⟩ := htwo.trans hdvd
  have hm : m ≠ 0 := by omega
  rw [Nat.log2_two_mul hm] at hdvd hlog
  refine ⟨m, rfl, Nat.lt_of_le_of_lt (by omega) h.1, ?_⟩
  have hexp : m.log2 + 1 - 52 = m.log2 - 52 + 1 := by omega
  simp only [Nat.pow_eq] at hdvd ⊢
  rw [hexp, Nat.pow_succ, Nat.mul_comm] at hdvd
  exact Nat.dvd_of_mul_dvd_mul_left (by decide) hdvd

theorem two_pow {k : Nat} (h : 2 ^ k < overflowUnits) : Representable (2 ^ k) := by
  refine ⟨h, ?_⟩
  rw [Nat.log2_two_pow]
  exact Nat.pow_dvd_pow 2 (Nat.sub_le _ _)

theorem natCast {n : Nat} (h : n < 2 ^ 53) : Representable (n * unitsPerOne) := by
  obtain ⟨k, -, hunit, hover⟩ := exists_two_pow
  have hrange : 2 ^ 53 * 2 ^ k < overflowUnits := by
    rw [hover, ← Nat.pow_add]
    exact Nat.pow_lt_pow_right (by decide) (by omega)
  rw [hunit]
  refine ⟨(Nat.mul_le_mul_right _ h.le).trans_lt hrange, ?_⟩
  rcases Nat.eq_zero_or_pos n with rfl | hpos
  · rw [Nat.zero_mul]
    exact dvd_zero _
  · have hlog := (Nat.log2_lt hpos.ne').2 h
    rw [log2_mul_two_pow hpos.ne', Nat.pow_eq]
    exact Dvd.dvd.mul_left (Nat.pow_dvd_pow 2 (by omega)) n

theorem zero : Representable 0 := by
  rw [← Nat.zero_mul unitsPerOne]
  exact natCast (by decide)

theorem one : Representable unitsPerOne := by
  rw [← Nat.one_mul unitsPerOne]
  exact natCast (by decide)

end Representable

namespace Binary64

theorem exists_eq_finite {x : Binary64} (h : x.isFinite) :
    ∃ negative units, ∃ hunits : Representable units, x = finite negative units hunits := by
  rcases x with _ | _ | ⟨negative, units, hunits⟩
  · exact absurd h (by decide)
  · exact absurd h (by simp [isFinite])
  · exact ⟨negative, units, hunits, rfl⟩

/-- The rational number that a finite double stands for. -/
def value : Binary64 → ℚ
  | finite negative units _ => (if negative then -(units : ℚ) else units) / unitsPerOne
  | _ => 0

@[simp] theorem value_finite {units : Nat} (h : Representable units) :
    (finite false units h).value = (units : ℚ) / unitsPerOne := rfl

private theorem nearestUnits_mul_self {n den : Nat} (hn : Representable n) (hd : 0 < den) :
    nearestUnits (n * den) den = n := by
  obtain ⟨m, hm⟩ := hn.2
  have hgrid := Representable.grid_pos n
  unfold nearestUnits
  rw [Nat.mul_div_cancel n hd]
  generalize Nat.pow 2 (n.log2 - 52) = grid at hm hgrid
  dsimp only
  have hnum : n * den = m * (den * grid) := by
    rw [hm, Nat.mul_comm grid m, Nat.mul_assoc, Nat.mul_comm grid den]
  rw [hnum, roundDiv_mul_self m (Nat.mul_pos hd hgrid), hm, Nat.mul_comm]

private theorem ofUnits_mul_self (negative : Bool) {n den : Nat} (hn : Representable n)
    (hd : 0 < den) :
    ofUnits negative (n * den) den = finite negative n hn := by
  unfold ofUnits
  simp only [nearestUnits_mul_self hn hd, hn.1, dif_pos]

private theorem nearestUnits_le {num den bound : Nat} (hb : Representable bound)
    (h : num ≤ bound * den) : nearestUnits num den ≤ bound := by
  have hquotient : num / den ≤ bound := Nat.div_le_of_le_mul (by rwa [Nat.mul_comm])
  have hlog : (num / den).log2 ≤ bound.log2 := by
    rcases Nat.eq_zero_or_pos (num / den) with hzero | hpos
    · rw [hzero, Nat.log2_zero]
      exact Nat.zero_le _
    · refine (Nat.le_log2 (hpos.trans_le hquotient).ne').2 ?_
      exact (Nat.log2_self_le hpos.ne').trans hquotient
  have hdvd : Nat.pow 2 ((num / den).log2 - 52) ∣ bound :=
    (Nat.pow_dvd_pow 2 (Nat.sub_le_sub_right hlog 52)).trans hb.2
  obtain ⟨k, hk⟩ := hdvd
  unfold nearestUnits
  dsimp only
  generalize Nat.pow 2 ((num / den).log2 - 52) = grid at hk
  have hround : roundDiv num (den * grid) ≤ k := by
    refine roundDiv_le (h.trans_eq ?_)
    rw [hk, Nat.mul_comm grid, Nat.mul_assoc, Nat.mul_comm grid]
  rw [hk, Nat.mul_comm grid]
  exact Nat.mul_le_mul_right grid hround

@[simp] theorem less_finite {u v : Nat} (hu : Representable u) (hv : Representable v) :
    (finite false u hu).less (finite false v hv) = decide (u < v) := by
  simp [less, position]

theorem value_eq_div (negative : Bool) {units : Nat} (h : Representable units) :
    (finite negative units h).value =
      ((if negative then -(units : Int) else units : Int) : ℚ) / unitsPerOne := by
  cases negative <;> simp [value]

private theorem less_iff_value {x y : Binary64} (hx : x.isFinite) (hy : y.isFinite) :
    x.less y ↔ x.value < y.value := by
  have hcast := cast_unitsPerOne_pos
  obtain ⟨s, u, hu, rfl⟩ := exists_eq_finite hx
  obtain ⟨t, v, hv, rfl⟩ := exists_eq_finite hy
  rw [value_eq_div, value_eq_div, div_lt_div_iff_of_pos_right hcast, Int.cast_lt]
  simp only [less, position, decide_eq_true_eq]

theorem fraction_finite {num den n : Nat} (hn : Representable n) (hd : 0 < den)
    (h : num * unitsPerOne = n * den) : fraction num den = finite false n hn := by
  rw [fraction, h, ofUnits_mul_self false hn hd]

theorem ofNat_eq {n : Nat} (h : n < 2 ^ 53) :
    ofNat n = finite false (n * unitsPerOne) (.natCast h) :=
  fraction_finite (.natCast h) Nat.one_pos (Nat.mul_one _).symm

theorem value_ofNat {n : Nat} (h : n < 2 ^ 53) : (ofNat n).value = n := by
  rw [ofNat_eq h, value_finite, Nat.cast_mul, mul_div_cancel_right₀ _ cast_unitsPerOne_pos.ne']

theorem zero_eq : (0 : Binary64) = finite false 0 .zero :=
  fraction_finite .zero Nat.one_pos (by rw [Nat.zero_mul, Nat.zero_mul])

/-- What is left of a number after a smaller one that is not negative: the exact difference, rounded
once. -/
theorem exists_sub {start finish : Binary64} (hstart : start.isFinite) (hfinish : finish.isFinite)
    (hzero : atMost 0 start) (hless : start.less finish) :
    ∃ n, ∃ hn : Representable (nearestUnits n 1),
      finish - start = finite false (nearestUnits n 1) hn ∧
        finish.value - start.value = n / unitsPerOne := by
  obtain ⟨s, u, hu, rfl⟩ := exists_eq_finite hstart
  obtain ⟨t, v, hv, rfl⟩ := exists_eq_finite hfinish
  simp only [zero_eq, atMost, less, position, decide_eq_true_eq] at hzero hless
  obtain rfl : t = false := by
    cases s <;> cases t <;> simp_all <;> omega
  -- The difference counts no more units than the end does.
  have hround {n : Nat} (h : n ≤ v) : ∃ hn : Representable (nearestUnits n 1),
      ofUnits false n 1 = finite false (nearestUnits n 1) hn := by
    have hle : nearestUnits n 1 ≤ v := nearestUnits_le hv (by omega)
    have hlt := hle.trans_lt hv.1
    exact ⟨⟨hlt, nearestUnits_dvd n 1⟩, dif_pos hlt⟩
  cases s with
  | false =>
    have hlt : u < v := by simpa using hless
    obtain ⟨hn, hfinite⟩ := hround (Nat.sub_le v u)
    refine ⟨v - u, hn, ?_, ?_⟩
    · rw [← hfinite]
      change add _ (neg _) = _
      simp only [neg, add, Bool.not_false, Bool.false_eq_true, if_false]
      exact if_pos hlt
    · rw [value_finite, value_finite, Nat.cast_sub hlt.le, sub_div]
  | true =>
    -- Only the negative zero is not less than zero.
    obtain rfl : u = 0 := by simpa using hzero
    obtain ⟨hn, hfinite⟩ := hround (Nat.le_refl v)
    refine ⟨v, hn, hfinite, ?_⟩
    rw [value_finite, value, if_pos rfl, Nat.cast_zero, neg_zero, zero_div, sub_zero]

theorem isFinite_sub {start finish : Binary64} (hstart : start.isFinite) (hfinish : finish.isFinite)
    (hzero : atMost 0 start) (hless : start.less finish) : (finish - start).isFinite := by
  obtain ⟨n, hn, hsub, -⟩ := exists_sub hstart hfinish hzero hless
  rw [hsub]
  rfl

theorem one_eq : (1 : Binary64) = finite false unitsPerOne .one :=
  fraction_finite .one Nat.one_pos (Nat.mul_comm 1 unitsPerOne)

theorem value_one : (1 : Binary64).value = 1 := by
  rw [one_eq, value_finite, div_self cast_unitsPerOne_pos.ne']

theorem zero_less_iff_value {x : Binary64} (hx : x.isFinite) :
    Binary64.less 0 x ↔ 0 < x.value := by
  rw [zero_eq, less_iff_value rfl hx, value_finite, Nat.cast_zero, zero_div]

theorem less_zero_iff_value {x : Binary64} (hx : x.isFinite) : x.less 0 ↔ x.value < 0 := by
  rw [zero_eq, less_iff_value hx rfl, value_finite, Nat.cast_zero, zero_div]

theorem zero_atMost_iff_value {x : Binary64} (hx : x.isFinite) : atMost 0 x ↔ 0 ≤ x.value := by
  have hcast := cast_unitsPerOne_pos
  obtain ⟨s, u, hu, rfl⟩ := exists_eq_finite hx
  rw [value_eq_div, le_div_iff₀ hcast, zero_mul, Int.cast_nonneg_iff, zero_eq]
  simp only [atMost, position, decide_eq_true_eq, Bool.false_eq_true, if_false, Nat.cast_zero]

theorem isFinite_neg {x : Binary64} (h : x.isFinite) : (-x).isFinite := by
  obtain ⟨negative, units, hunits, rfl⟩ := exists_eq_finite h
  rfl

theorem value_neg (x : Binary64) : (-x).value = -x.value := by
  rcases x with _ | _ | ⟨_ | _, units, hunits⟩
  · exact neg_zero.symm
  · exact neg_zero.symm
  · exact neg_div _ _
  · change (units : ℚ) / unitsPerOne = -(-(units : ℚ) / unitsPerOne)
    rw [neg_div, neg_neg]

theorem exists_finite {f : Binary64} (hfinite : f.isFinite) (hpos : 0 < f.value) :
    ∃ u, ∃ hu : Representable u, f = finite false u hu ∧ 0 < u := by
  have hcast := cast_unitsPerOne_pos
  obtain ⟨_ | _, u, hu, rfl⟩ := exists_eq_finite hfinite
  · refine ⟨u, hu, rfl, ?_⟩
    rw [value_finite, lt_div_iff₀ hcast, zero_mul] at hpos
    exact_mod_cast hpos
  · have hneg : (-(u : ℚ)) / unitsPerOne ≤ 0 :=
      div_nonpos_of_nonpos_of_nonneg (neg_nonpos.2 (Nat.cast_nonneg u)) hcast.le
    exact absurd hpos (not_lt.2 hneg)

/-- A quotient of counts that the format holds is exact. -/
theorem div_finite {u v n : Nat} (hu : Representable u) (hv : Representable v)
    (hn : Representable n) (hpos : 0 < v) (h : u * unitsPerOne = n * v) :
    finite false u hu / finite false v hv = finite false n hn := by
  change div _ _ = _
  simp only [div, Nat.ne_of_gt hpos, if_false, h]
  exact ofUnits_mul_self false hn hpos

theorem mul_finite {u v n : Nat} (hu : Representable u) (hv : Representable v)
    (hn : Representable n) (h : u * v = n * unitsPerOne) :
    finite false u hu * finite false v hv = finite false n hn := by
  change mul _ _ = _
  simp only [mul, h]
  exact ofUnits_mul_self false hn unitsPerOne_pos

private theorem add_finite {u v : Nat} (hu : Representable u) (hv : Representable v)
    (hn : Representable (u + v)) :
    finite false u hu + finite false v hv = finite false (u + v) hn := by
  change add _ _ = _
  have hexact := ofUnits_mul_self false hn Nat.one_pos
  rw [Nat.mul_one] at hexact
  simp only [add, if_true, hexact]

theorem ofNat_mul_add {a b c : Nat} (hpos : 0 < c) (hc : c < 2 ^ 53) (h : a * c + b < 2 ^ 53) :
    ofNat a * ofNat c + ofNat b = ofNat (a * c + b) := by
  have ha : a ≤ a * c := Nat.le_mul_of_pos_right a hpos
  have hproduct : a * unitsPerOne * (c * unitsPerOne) = a * c * unitsPerOne * unitsPerOne := by
    rw [Nat.mul_mul_mul_comm, Nat.mul_assoc (a * c)]
  have hsum : Representable (a * c * unitsPerOne + b * unitsPerOne) := by
    rw [← Nat.add_mul]
    exact .natCast h
  rw [ofNat_eq (show a < 2 ^ 53 by omega), ofNat_eq hc, ofNat_eq (show b < 2 ^ 53 by omega),
    ofNat_eq h, mul_finite _ _ (.natCast (show a * c < 2 ^ 53 by omega)) hproduct,
    add_finite _ _ hsum]
  simp only [Nat.add_mul]

end Binary64
end VideoEdit
