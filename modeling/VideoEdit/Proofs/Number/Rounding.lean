import Mathlib.Data.Nat.Cast.Order.Field
import Mathlib.Tactic.FieldSimp
import Mathlib.Tactic.Linarith
import Mathlib.Tactic.Positivity
import Mathlib.Tactic.Ring
import VideoEdit.Proofs.Number.Exact
/-!
# Rounding errors

A rounded quotient lies within half a unit of the exact one. On the grid of the format that is a
small part of the quotient itself, so the reciprocal of a double is nearly exact.
-/
namespace VideoEdit
-- Numbers with thousands of bits; no proof may compute with them.
attribute [local irreducible] unitsPerOne overflowUnits

theorem roundDiv_error (num : Nat) {den : Nat} (h : 0 < den) :
    |(roundDiv num den : ℚ) - num / den| ≤ 1 / 2 := by
  have hden : (0 : ℚ) < den := by exact_mod_cast h
  have hsplit : (num : ℚ) / den = (num / den : Nat) + ((num % den : Nat) : ℚ) / den := by
    rw [div_eq_iff hden.ne', add_mul, div_mul_cancel₀ _ hden.ne']
    exact_mod_cast (Nat.div_add_mod' num den).symm
  rw [hsplit, abs_le]
  unfold roundDiv
  dsimp only
  split_ifs with hdown
  · -- Rounded down, the rest is at most half of the divisor.
    have hlow : 0 ≤ ((num % den : Nat) : ℚ) / den := by positivity
    have hhigh : ((num % den : Nat) : ℚ) / den ≤ 1 / 2 := by
      rw [div_le_div_iff₀ hden two_pos, one_mul, mul_comm]
      exact_mod_cast (by omega : 2 * (num % den) ≤ den)
    constructor <;> linarith
  · have hlow : 1 / 2 ≤ ((num % den : Nat) : ℚ) / den := by
      rw [div_le_div_iff₀ two_pos hden, one_mul, mul_comm _ (2 : ℚ)]
      exact_mod_cast (by omega : den ≤ 2 * (num % den))
    have hhigh : ((num % den : Nat) : ℚ) / den < 1 := by
      rw [div_lt_one hden]
      exact_mod_cast Nat.mod_lt num h
    rw [Nat.cast_add, Nat.cast_one]
    constructor <;> linarith

namespace Binary64

private theorem nearestUnits_error (num : Nat) {den : Nat} (h : 0 < den) :
    |(nearestUnits num den : ℚ) - num / den| ≤ 2 ^ ((num / den).log2 - 52) / 2 := by
  unfold nearestUnits
  dsimp only
  rw [Nat.pow_eq]
  have hden : (0 : ℚ) < den := by exact_mod_cast h
  have hgrid := Nat.two_pow_pos ((num / den).log2 - 52)
  have hround := roundDiv_error num (Nat.mul_pos h hgrid)
  have hcast : (0 : ℚ) < 2 ^ ((num / den).log2 - 52) := by positivity
  rw [Nat.cast_mul, Nat.cast_pow, Nat.cast_ofNat] at *
  generalize (2 : ℚ) ^ ((num / den).log2 - 52) = grid at *
  generalize roundDiv num _ = n at *
  have hsplit : (n : ℚ) * grid - num / den = (n - num / (den * grid)) * grid := by
    field_simp
  rw [hsplit, abs_mul, abs_of_pos hcast]
  calc |(n : ℚ) - num / (den * grid)| * grid ≤ 1 / 2 * grid :=
        mul_le_mul_of_nonneg_right hround hcast.le
    _ = grid / 2 := by ring

theorem two_pow_log2_sub_mul_le {n : Nat} (h : 52 ≤ n.log2) : 2 ^ (n.log2 - 52) * 2 ^ 52 ≤ n := by
  have hne : n ≠ 0 := by
    rintro rfl
    rw [Nat.log2_zero] at h
    omega
  rw [← Nat.pow_add, Nat.sub_add_cancel h]
  exact Nat.log2_self_le hne

theorem two_pow_log2_sub_le {n : Nat} (h : 2 ^ 50 ≤ n) : 2 ^ (n.log2 - 52) * 2 ^ 50 ≤ n := by
  rcases Nat.lt_or_ge n.log2 52 with hsmall | hbig
  · rw [Nat.sub_eq_zero_of_le hsmall.le, pow_zero, one_mul]
    exact h
  · exact (Nat.mul_le_mul_left _ (by decide)).trans (two_pow_log2_sub_mul_le hbig)

private theorem nearestUnits_error_le {num den : Nat} (h : 0 < den) (hlarge : den * 2 ^ 50 ≤ num) :
    |(nearestUnits num den : ℚ) - num / den| ≤ num / den / 2 ^ 51 := by
  refine (nearestUnits_error num h).trans ?_
  have hquotient : 2 ^ 50 ≤ num / den := (Nat.le_div_iff_mul_le h).2 (by rwa [Nat.mul_comm])
  have hgrid := two_pow_log2_sub_le hquotient
  have hfloor : ((num / den : Nat) : ℚ) ≤ num / den := Nat.cast_div_le
  have hcast : (2 : ℚ) ^ ((num / den).log2 - 52) * 2 ^ 50 ≤ (num / den : Nat) := by
    exact_mod_cast hgrid
  rw [div_le_div_iff₀ two_pos (by positivity)]
  linarith

theorem nearestUnits_lt {num den bound k : Nat} (h : 0 < den) (hquotient : num < den * 2 ^ (k + 54))
    (hbound : num < (bound - 2 ^ k) * den) : nearestUnits num den < bound := by
  have hden : (0 : ℚ) < den := by exact_mod_cast h
  have herror := (abs_le.1 (nearestUnits_error num h)).2
  have hlog : (num / den).log2 - 52 ≤ k + 1 := by
    rcases Nat.eq_zero_or_pos (num / den) with hzero | hpos
    · rw [hzero, Nat.log2_zero]
      omega
    · have hlt := (Nat.log2_lt hpos.ne').2 (Nat.div_lt_of_lt_mul hquotient)
      omega
  have hgrid : (2 : ℚ) ^ ((num / den).log2 - 52) ≤ 2 ^ (k + 1) :=
    pow_le_pow_right₀ one_le_two hlog
  have hle : 2 ^ k ≤ bound := by
    by_contra hnot
    rw [Nat.sub_eq_zero_of_le (Nat.le_of_not_le hnot), Nat.zero_mul] at hbound
    exact Nat.not_lt_zero _ hbound
  have hfraction : (num : ℚ) / den < bound - 2 ^ k := by
    rw [div_lt_iff₀ hden]
    have hcast : (num : ℚ) < ((bound - 2 ^ k : Nat) : ℚ) * den := by exact_mod_cast hbound
    rwa [Nat.cast_sub hle, Nat.cast_pow, Nat.cast_ofNat] at hcast
  have hlt : (nearestUnits num den : ℚ) < bound := by
    rw [pow_succ] at hgrid
    linarith
  exact_mod_cast hlt

private theorem nearestUnits_one_error (n : Nat) : |(nearestUnits n 1 : ℚ) - n| ≤ n / 2 ^ 53 := by
  rcases Nat.lt_or_ge n.log2 52 with hsmall | hlarge
  · have hexact : nearestUnits n 1 = n := by
      have hround := roundDiv_mul_self n Nat.one_pos
      rw [Nat.mul_one] at hround
      simp only [nearestUnits, Nat.div_one, Nat.sub_eq_zero_of_le hsmall.le, Nat.pow_eq, pow_zero,
        Nat.mul_one, hround]
    rw [hexact, sub_self, abs_zero]
    positivity
  · have herror := nearestUnits_error n Nat.one_pos
    rw [Nat.cast_one, div_one, Nat.div_one] at herror
    have hgrid : (2 : ℚ) ^ (n.log2 - 52) * 2 ^ 52 ≤ n := by
      exact_mod_cast two_pow_log2_sub_mul_le hlarge
    refine herror.trans ?_
    rw [div_le_div_iff₀ two_pos (by positivity)]
    linarith

/-- A difference is nearly exact, however near the two numbers are. -/
theorem sub_error {start finish : Binary64} (hstart : start.isFinite) (hfinish : finish.isFinite)
    (hzero : atMost 0 start) (hless : start.less finish) :
    |(finish - start).value - (finish.value - start.value)| ≤
      (finish.value - start.value) / 2 ^ 53 := by
  obtain ⟨n, hn, hsub, hexact⟩ := exists_sub hstart hfinish hzero hless
  have hcast := cast_unitsPerOne_pos
  rw [hsub, hexact, value_finite, ← sub_div, abs_div, abs_of_pos hcast, div_right_comm]
  exact div_le_div_of_nonneg_right (nearestUnits_one_error n) hcast.le

theorem overflowUnits_mul_eq : overflowUnits * 2 ^ 50 = unitsPerOne * unitsPerOne := by
  obtain ⟨k, hk, hunit, hover⟩ := exists_two_pow
  rw [hunit, hover, ← Nat.pow_add, ← Nat.pow_add]
  congr 1
  omega

private theorem one_div_eq {u : Nat} (hu : Representable u) (hpos : 0 < u) :
    1 / finite false u hu = ofUnits false (unitsPerOne * unitsPerOne) u := by
  rw [one_eq]
  change div _ _ = _
  simp only [div, Nat.ne_of_gt hpos, if_false]
  rfl

theorem exists_one_div {u : Nat} (hu : Representable u) (hpos : 0 < u)
    (hfinite : (1 / finite false u hu).isFinite) :
    ∃ hv : Representable (nearestUnits (unitsPerOne * unitsPerOne) u),
      1 / finite false u hu =
        finite false (nearestUnits (unitsPerOne * unitsPerOne) u) hv := by
  rw [one_div_eq hu hpos] at hfinite ⊢
  unfold ofUnits at *
  split_ifs at * with hover
  · exact ⟨⟨hover, nearestUnits_dvd _ _⟩, rfl⟩
  · cases hfinite

theorem one_div_eq_infinite {f : Binary64} (hf : f.isFinite) (hpos : 0 < f.value)
    (h : ¬(1 / f).isFinite) : 1 / f = infinite false := by
  obtain ⟨u, hu, rfl, hunits⟩ := exists_finite hf hpos
  rw [one_div_eq hu hunits] at h ⊢
  unfold ofUnits at *
  split_ifs at * with hover
  · exact absurd rfl h
  · rfl

/-- A reciprocal is nearly exact, and it has many units. -/
theorem one_div_error {f : Binary64} (hf : f.isFinite) (hpos : 0 < f.value)
    (hfinite : (1 / f).isFinite) :
    ∃ v, ∃ hv : Representable v, 1 / f = finite false v hv ∧ 2 ^ 50 ≤ v ∧
      |(1 / f).value * f.value - 1| ≤ 1 / 2 ^ 51 := by
  obtain ⟨u, hu, rfl, hunits⟩ := exists_finite hf hpos
  obtain ⟨hv, hdiv⟩ := exists_one_div hu hunits hfinite
  have hlarge : u * 2 ^ 50 ≤ unitsPerOne * unitsPerOne := by
    rw [← overflowUnits_mul_eq]
    exact Nat.mul_le_mul_right _ hu.1.le
  have herror := nearestUnits_error_le hunits hlarge
  have hcast := cast_unitsPerOne_pos
  have hcastu : (0 : ℚ) < u := by exact_mod_cast hunits
  rw [hdiv]
  generalize nearestUnits (unitsPerOne * unitsPerOne) u = v at *
  refine ⟨v, hv, rfl, ?_, ?_⟩
  · have hquotient : (2 : ℚ) ^ 50 ≤ (unitsPerOne * unitsPerOne : Nat) / u := by
      rw [le_div_iff₀ hcastu, mul_comm]
      exact_mod_cast hlarge
    have hlow := (abs_le.1 herror).1
    have hnear : (2 ^ 50 : ℚ) - 1 < v := by linarith
    have hcastv : ((2 ^ 50 - 1 : Nat) : ℚ) < v := by
      rw [Nat.cast_sub (by decide)]
      exact_mod_cast hnear
    have hlt : 2 ^ 50 - 1 < v := by exact_mod_cast hcastv
    omega
  · rw [value_finite, value_finite]
    rw [Nat.cast_mul] at herror
    have hsplit : (v : ℚ) / unitsPerOne * (u / unitsPerOne) - 1 =
        (v - unitsPerOne * unitsPerOne / u) / (unitsPerOne * unitsPerOne / u) := by
      field_simp
    have hquotient : (0 : ℚ) < unitsPerOne * unitsPerOne / u := by positivity
    rw [hsplit, abs_div, abs_of_pos hquotient, div_le_iff₀ hquotient]
    calc |(v : ℚ) - unitsPerOne * unitsPerOne / u|
        ≤ unitsPerOne * unitsPerOne / u / 2 ^ 51 := herror
      _ = 1 / 2 ^ 51 * (unitsPerOne * unitsPerOne / u) := by ring

end Binary64
end VideoEdit
