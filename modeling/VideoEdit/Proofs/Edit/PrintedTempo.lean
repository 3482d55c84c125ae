import VideoEdit.Proofs.Edit.TempoChain
import VideoEdit.Proofs.Number.Decimal
/-!
# Tempo factors as they are printed

Twos and halves are printed exactly, so only the last factor of a chain is rounded, to four places,
and the product of the printed factors is as near to the product of the chain as that one is.
-/
namespace VideoEdit
-- Numbers with thousands of bits; no proof may compute with them.
attribute [local irreducible] unitsPerOne overflowUnits
namespace Tempo
open Binary64

private theorem atPlaces_greatest : greatest.atPlaces 4 = greatest.value := by
  rw [value_greatest]
  decide +kernel

private theorem atPlaces_least : least.atPlaces 4 = least.value := by
  rw [value_least]
  decide +kernel

/-- A half and two have four places, so the factors of a chain still fit one filter instance as they
are printed. -/
theorem atPlaces_bounds {f x : Binary64} (hf : f.isFinite) (hpos : 0 < f.value)
    (h : x ∈ chain f) : 1 / 2 ≤ x.atPlaces 4 ∧ x.atPlaces 4 ≤ 2 := by
  obtain ⟨hx, hlow, hhigh⟩ := bounds_of_mem_chain hf hpos h
  have hhalf : (1 / 2 : ℚ) = (5000 : ℤ) / 10 ^ 4 := by norm_num
  have htwo : (2 : ℚ) = (20000 : ℤ) / 10 ^ 4 := by norm_num
  constructor
  · rw [hhalf] at hlow ⊢
    exact le_atPlaces hx hlow
  · rw [htwo] at hhigh ⊢
    exact atPlaces_le hx hhigh

def printedProduct (factor : Binary64) : ℚ := ((chain factor).map (atPlaces 4)).prod

theorem exists_printed_run {f : Binary64} (hf : f.isFinite) (hpos : 0 < f.value) (hne : f ≠ 1) :
    ∃ (k : Nat) (step last : ℚ) (n : ℤ), printedProduct f = step ^ k * (n / 10000) ∧
      f.value = step ^ k * last ∧ |(n / 10000 : ℚ) - last| ≤ 1 / 20000 ∧ last ≤ 2 ∧
      (step = 2 ∧ 1 < last ∨ step = 1 / 2 ∧ 1 / 2 ≤ last) := by
  obtain ⟨k, step, last, hchain, hlast, hvalue, hle, hstep⟩ := exists_run hf hpos hne
  have hexact : step.atPlaces 4 = step.value := by
    rcases hstep with ⟨rfl, -⟩ | ⟨rfl, -⟩
    · exact atPlaces_greatest
    · exact atPlaces_least
  obtain ⟨n, hn⟩ := exists_atPlaces 4 last
  have herror := atPlaces_error 4 hlast
  norm_num at hn herror
  refine ⟨k, step.value, last.value, n, ?_, hvalue, ?_, hle, ?_⟩
  · simp only [printedProduct, hchain, List.map_append, List.map_replicate, List.map_cons,
      List.map_nil, List.prod_append, List.prod_replicate, List.prod_singleton, hexact, hn]
  · rw [← hn]
    norm_num
    exact herror
  · rcases hstep with ⟨rfl, hlow⟩ | ⟨rfl, hlow⟩
    · exact .inl ⟨value_greatest, hlow⟩
    · exact .inr ⟨value_least, hlow⟩

/-- The printed product is near the factor, and twice as near where the last factor of the chain
lies above one. -/
theorem printedProduct_error {f : Binary64} (hf : f.isFinite) (hpos : 0 < f.value) :
    |printedProduct f - f.value| ≤ f.value / 10000 ∧
      (1 < f.value → |printedProduct f - f.value| ≤ f.value / 20000) := by
  by_cases hne : f = 1
  · have hchain := (chain_eq_nil_iff hf hpos).2 hne
    have hproduct : printedProduct f = f.value := by
      rw [printedProduct, hchain, hne, value_one, List.map_nil, List.prod_nil]
    rw [hproduct, sub_self, abs_zero]
    exact ⟨by positivity, fun _ => by positivity⟩
  obtain ⟨k, step, last, n, hprinted, hvalue, herror, -, hstep⟩ :=
    exists_printed_run hf hpos hne
  have hpow : 0 < step ^ k := by
    rcases hstep with ⟨rfl, -⟩ | ⟨rfl, -⟩ <;> positivity
  have hdiff : |printedProduct f - f.value| ≤ step ^ k * (1 / 20000) := by
    rw [hprinted, hvalue, ← mul_sub, abs_mul, abs_of_pos hpow]
    exact mul_le_mul_of_nonneg_left herror hpow.le
  rw [hvalue] at hdiff ⊢
  constructor
  · have hlow : 1 / 2 ≤ last := by
      rcases hstep with ⟨-, hlow⟩ | ⟨-, hlow⟩ <;> linarith
    nlinarith
  · intro hlarge
    have hlow : 1 ≤ last := by
      rcases hstep with ⟨-, hlow⟩ | ⟨rfl, hlow⟩
      · exact hlow.le
      · have hle : (1 / 2 : ℚ) ^ k ≤ 1 := pow_le_one₀ (by norm_num) (by norm_num)
        nlinarith
    nlinarith

end Tempo
end VideoEdit
