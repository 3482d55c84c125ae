import Mathlib.Data.Real.Basic
import Mathlib.Tactic.FieldSimp
import Mathlib.Tactic.Linarith
import Mathlib.Tactic.Positivity
import Mathlib.Tactic.Ring
import VideoEdit.Edit.Tempo
import VideoEdit.Proofs.Number.Exact
/-!
# Chains of tempo factors

A factor is halved or doubled without rounding until it lies between a half and two, so the chain
multiplies back to it exactly, and no shorter list of numbers in that range has its product.
-/
namespace VideoEdit
-- Numbers with thousands of bits; no proof may compute with them.
attribute [local irreducible] unitsPerOne overflowUnits
namespace Tempo
open Binary64

/-- The runs of a loop that divides by a step while a test holds, and collects the steps. -/
inductive Loop (test : Binary64 → Bool) (step : Binary64) :
    Binary64 → List Binary64 → Binary64 → Prop
  | stop {x : Binary64} (h : test x = false) : Loop test step x [] x
  | next {x y : Binary64} {steps : List Binary64} (h : test x = true)
      (rest : Loop test step (x / step) steps y) : Loop test step x (step :: steps) y

private def halfUnits : Nat := Nat.pow 2 1073

private theorem two_mul_halfUnits : 2 * halfUnits = unitsPerOne := by decide +kernel

private theorem halfUnits_pos : 0 < halfUnits := by
  have hhalf := two_mul_halfUnits
  have hone := unitsPerOne_pos
  omega

private theorem representable_half : Representable halfUnits := by
  obtain ⟨k, hk, hunit, hover⟩ := exists_two_pow
  have hhalf : halfUnits = 2 ^ (k - 1) := by
    refine Nat.eq_of_mul_eq_mul_left two_pos ?_
    rw [two_mul_halfUnits, hunit, ← Nat.pow_succ', Nat.succ_eq_add_one,
      Nat.sub_add_cancel (by omega)]
  rw [hhalf]
  refine .two_pow ?_
  rw [hover]
  exact Nat.pow_lt_pow_right (by decide) (by omega)

private theorem representable_two : Representable (2 * unitsPerOne) := .natCast (by decide)

private theorem unitsPerOne_lt : 2 * unitsPerOne < overflowUnits := representable_two.1

private theorem greatest_eq : greatest = finite false (2 * unitsPerOne) representable_two :=
  fraction_finite representable_two Nat.one_pos (Nat.mul_one _).symm

private theorem least_eq : least = finite false halfUnits representable_half :=
  fraction_finite representable_half two_pos
    (by rw [Nat.one_mul, Nat.mul_comm, two_mul_halfUnits])

private theorem two_pow_le_unitsPerOne : 2 ^ 53 ≤ unitsPerOne := by
  obtain ⟨k, hk, hunit, -⟩ := exists_two_pow
  rw [hunit]
  exact Nat.pow_le_pow_right (by decide) (by omega)

private theorem div_greatest {u : Nat} (hu : Representable u) (h : 2 * unitsPerOne < u) :
    ∃ w, ∃ hw : Representable w, u = 2 * w ∧
      finite false u hu / greatest = finite false w hw := by
  have hbig := two_pow_le_unitsPerOne
  obtain ⟨w, rfl, hw⟩ := hu.exists_half (by omega)
  refine ⟨w, hw, rfl, ?_⟩
  rw [greatest_eq]
  refine div_finite hu _ hw (by have := unitsPerOne_pos; omega) ?_
  rw [← Nat.mul_assoc, Nat.mul_comm 2 w]

private theorem div_least {u : Nat} (hu : Representable u) (h : u < halfUnits) :
    ∃ hw : Representable (2 * u), finite false u hu / least = finite false (2 * u) hw := by
  have hone := two_mul_halfUnits
  have hmax := unitsPerOne_lt
  have hw : Representable (2 * u) := hu.two_mul (by omega)
  refine ⟨hw, ?_⟩
  rw [least_eq]
  refine div_finite hu _ hw halfUnits_pos ?_
  rw [← hone, ← Nat.mul_assoc, Nat.mul_comm 2 u]

private theorem halvings_eq (steps : Nat) {u : Nat} (hu : Representable u) (hlow : unitsPerOne < u)
    (hsteps : u ≤ 2 * unitsPerOne * 2 ^ steps) :
    ∃ k w, ∃ hw : Representable w, u = 2 ^ k * w ∧ unitsPerOne < w ∧ w ≤ 2 * unitsPerOne ∧
      halvings steps (finite false u hu) = List.replicate k greatest ++ [finite false w hw] ∧
      Loop (fun x => greatest.less x) greatest (finite false u hu) (List.replicate k greatest)
        (finite false w hw) := by
  induction steps generalizing u with
  | zero =>
    have hle : u ≤ 2 * unitsPerOne := by simpa using hsteps
    refine ⟨0, u, hu, by simp, hlow, hle, rfl, .stop ?_⟩
    rw [greatest_eq, less_finite, decide_eq_false_iff_not]
    omega
  | succ steps ih =>
    rw [halvings]
    by_cases htest : 2 * unitsPerOne < u
    · obtain ⟨w, hw, rfl, hdiv⟩ := div_greatest hu htest
      have hless : greatest.less (finite false (2 * w) hu) = true := by
        rw [greatest_eq, less_finite, decide_eq_true_eq]
        exact htest
      rw [Nat.pow_succ] at hsteps
      obtain ⟨k, v, hv, rfl, hv1, hv2, hchain, hloop⟩ := ih hw (by omega) (by nlinarith)
      refine ⟨k + 1, v, hv, by rw [Nat.pow_succ, Nat.mul_comm _ 2, Nat.mul_assoc], hv1, hv2, ?_, ?_⟩
      · rw [if_pos hless, hdiv, hchain]
        rfl
      · exact .next hless (hdiv ▸ hloop)
    · have hless : greatest.less (finite false u hu) = false := by
        rw [greatest_eq, less_finite, decide_eq_false_iff_not]
        exact htest
      refine ⟨0, u, hu, by simp, hlow, by omega, ?_, .stop hless⟩
      rw [hless]
      rfl

private theorem doublings_eq (steps : Nat) {u : Nat} (hu : Representable u)
    (hsteps : halfUnits ≤ u * 2 ^ steps) :
    ∃ k, ∃ hw : Representable (2 ^ k * u), halfUnits ≤ 2 ^ k * u ∧
      (k = 0 ∨ u < halfUnits ∧ 2 ^ k * u < unitsPerOne) ∧
      doublings steps (finite false u hu) =
        List.replicate k least ++ [finite false (2 ^ k * u) hw] ∧
      Loop (fun x => x.less least) least (finite false u hu) (List.replicate k least)
        (finite false (2 ^ k * u) hw) := by
  induction steps generalizing u with
  | zero =>
    have hle : halfUnits ≤ u := by simpa using hsteps
    refine ⟨0, by simpa using hu, by simpa using hle, Or.inl rfl, by simp [doublings], ?_⟩
    simp only [pow_zero, one_mul]
    refine .stop ?_
    rw [least_eq, less_finite, decide_eq_false_iff_not]
    omega
  | succ steps ih =>
    rw [doublings]
    by_cases htest : u < halfUnits
    · obtain ⟨hw, hdiv⟩ := div_least hu htest
      have hless : (finite false u hu).less least = true := by
        rw [least_eq, less_finite, decide_eq_true_eq]
        exact htest
      rw [Nat.pow_succ] at hsteps
      obtain ⟨k, hv, hv1, hv2, hchain, hloop⟩ := ih hw (by linarith)
      have hpow : 2 ^ k * (2 * u) = 2 ^ (k + 1) * u := by rw [Nat.pow_succ, Nat.mul_assoc]
      have hone := two_mul_halfUnits
      have hbelow : 2 ^ k * (2 * u) < unitsPerOne := by
        rcases hv2 with rfl | hv2
        · omega
        · exact hv2.2
      simp only [hpow] at hv hv1 hbelow hchain hloop
      refine ⟨k + 1, hv, hv1, Or.inr ⟨htest, hbelow⟩, ?_, ?_⟩
      · rw [if_pos hless, hdiv, hchain]
        rfl
      · exact .next hless (hdiv ▸ hloop)
    · have hless : (finite false u hu).less least = false := by
        rw [least_eq, less_finite, decide_eq_false_iff_not]
        exact htest
      refine ⟨0, by simpa using hu, by simp; omega, Or.inl rfl, ?_, ?_⟩
      · rw [hless]
        simp
      · simp only [pow_zero, one_mul]
        exact .stop hless

private theorem product_append (front : List Binary64) (x : Binary64) :
    product (front ++ [x]) = product front * x := by
  simp [product]

private theorem product_twos (k : Nat) (ho : 2 ^ k * unitsPerOne < overflowUnits) :
    product (List.replicate k greatest) =
      finite false (2 ^ k * unitsPerOne) (Representable.one.two_pow_mul k ho) := by
  induction k with
  | zero =>
    simp only [List.replicate_zero, product, List.foldl_nil, one_eq, pow_zero, one_mul]
  | succ k ih =>
    have hle : 2 ^ k * unitsPerOne ≤ 2 ^ (k + 1) * unitsPerOne :=
      Nat.mul_le_mul_right _ (Nat.pow_le_pow_right (by decide) (Nat.le_succ k))
    rw [List.replicate_succ', product_append, ih (by omega), greatest_eq]
    refine mul_finite _ _ _ ?_
    ring

private theorem product_halves (k : Nat) {n : Nat} (hn : Representable n)
    (h : 2 ^ k * n = unitsPerOne) :
    product (List.replicate k least) = finite false n hn := by
  induction k generalizing n with
  | zero =>
    rw [pow_zero, one_mul] at h
    simp only [List.replicate_zero, product, List.foldl_nil, one_eq, h]
  | succ k ih =>
    have hone := two_mul_halfUnits
    have hmax := unitsPerOne_lt
    have hdouble : 2 ^ k * (2 * n) = unitsPerOne := by
      rw [← h]
      ring
    have hle : 2 * n ≤ unitsPerOne := by
      rw [← hdouble]
      exact Nat.le_mul_of_pos_left _ (Nat.two_pow_pos k)
    rw [List.replicate_succ', product_append, ih (hn.two_mul (by omega)) hdouble, least_eq]
    refine mul_finite _ _ _ ?_
    rw [← hone]
    ring

theorem value_greatest : greatest.value = 2 := by
  have h := cast_unitsPerOne_pos
  rw [greatest_eq, value_finite]
  push_cast
  field_simp

theorem value_least : least.value = 1 / 2 := by
  have h := cast_unitsPerOne_pos
  have hone : (2 : ℚ) * halfUnits = unitsPerOne := by exact_mod_cast two_mul_halfUnits
  rw [least_eq, value_finite, ← hone]
  have hpos : (0 : ℚ) < halfUnits := by exact_mod_cast halfUnits_pos
  field_simp

private theorem greatest_bounds :
    greatest.isFinite ∧ 1 / 2 ≤ greatest.value ∧ greatest.value ≤ 2 := by
  rw [value_greatest]
  exact ⟨by rw [greatest_eq, isFinite], by norm_num, le_rfl⟩

private theorem least_bounds : least.isFinite ∧ 1 / 2 ≤ least.value ∧ least.value ≤ 2 := by
  rw [value_least]
  exact ⟨by rw [least_eq, isFinite], le_rfl, by norm_num⟩

private theorem value_bounds {w : Nat} (hw : Representable w) (hlow : halfUnits ≤ w)
    (hhigh : w ≤ 2 * unitsPerOne) :
    (finite false w hw).isFinite ∧ 1 / 2 ≤ (finite false w hw).value ∧
      (finite false w hw).value ≤ 2 := by
  have hcast := cast_unitsPerOne_pos
  have hdouble : unitsPerOne ≤ 2 * w := by
    rw [← two_mul_halfUnits]
    exact Nat.mul_le_mul_left 2 hlow
  rw [value_finite, div_le_div_iff₀ two_pos hcast, div_le_iff₀ hcast, one_mul, mul_comm (w : ℚ)]
  exact ⟨rfl, by exact_mod_cast hdouble, by exact_mod_cast hhigh⟩

private theorem last_bounds {k u : Nat} (hw : Representable (2 ^ k * u))
    (hhigh : u ≤ 2 * unitsPerOne) (hlow : halfUnits ≤ 2 ^ k * u)
    (hrun : k = 0 ∨ u < halfUnits ∧ 2 ^ k * u < unitsPerOne) :
    (finite false (2 ^ k * u) hw).isFinite ∧ 1 / 2 ≤ (finite false (2 ^ k * u) hw).value ∧
      (finite false (2 ^ k * u) hw).value ≤ 2 := by
  refine value_bounds hw hlow ?_
  rcases hrun with rfl | ⟨-, hsmall⟩
  · simpa using hhigh
  · omega

private theorem prod_bounds {numbers : List ℝ} (h : ∀ x ∈ numbers, 1 / 2 ≤ x ∧ x ≤ 2) :
    (1 / 2) ^ numbers.length ≤ numbers.prod ∧ numbers.prod ≤ 2 ^ numbers.length := by
  induction numbers with
  | nil => simp
  | cons x numbers ih =>
    obtain ⟨hlow, hhigh⟩ := h x List.mem_cons_self
    obtain ⟨ihlow, ihhigh⟩ := ih fun y hy => h y (List.mem_cons_of_mem x hy)
    have hpos : (0 : ℝ) < (1 / 2) ^ numbers.length := by positivity
    rw [List.prod_cons, List.length_cons, pow_succ', pow_succ']
    constructor
    · exact mul_le_mul hlow ihlow hpos.le (by linarith)
    · exact mul_le_mul hhigh ihhigh (by linarith) (by norm_num)

private theorem lt_length_of_two_pow_lt {numbers : List ℝ} (h : ∀ x ∈ numbers, 1 / 2 ≤ x ∧ x ≤ 2)
    {k : Nat} (hk : 2 ^ k < numbers.prod) : k < numbers.length := by
  have hhigh := (prod_bounds h).2
  exact (pow_lt_pow_iff_right₀ (by norm_num : (1 : ℝ) < 2)).1 (hk.trans_le hhigh)

private theorem lt_length_of_lt_half_pow {numbers : List ℝ} (h : ∀ x ∈ numbers, 1 / 2 ≤ x ∧ x ≤ 2)
    {k : Nat} (hk : numbers.prod < (1 / 2) ^ k) : k < numbers.length := by
  have hlow := (prod_bounds h).1
  exact (pow_lt_pow_iff_right_of_lt_one₀ (by norm_num : (0 : ℝ) < 1 / 2) (by norm_num)).1
    (hlow.trans_lt hk)

/-- What makes a list of factors the chain of a number: it is what the two loops of halving and
doubling collect, it is empty for one only, its factors fit one filter instance and are twos or
halves up to the last, every product of its first factors is exact and that of all is the number,
and no shorter list of numbers that fit has that product. -/
structure IsChain (f : Binary64) (factors : List Binary64) : Prop where
  runs : f ≠ 1 → ∃ twos middle halves last,
    Loop (fun x => greatest.less x) greatest f twos middle ∧
    Loop (fun x => x.less least) least middle halves last ∧ factors = twos ++ halves ++ [last]
  empty : factors = [] ↔ f = 1
  bounds : ∀ x ∈ factors, x.isFinite ∧ 1 / 2 ≤ x.value ∧ x.value ≤ 2
  twos : 2 < f.value → ∀ x ∈ factors.dropLast, x = 2
  halves : f.value < 1 / 2 → ∀ x ∈ factors.dropLast, x = .fraction 1 2
  product : product factors = f
  exact : ∀ front, front <+: factors →
    (Tempo.product front).isFinite ∧ (Tempo.product front).value = (front.map value).prod
  shortest : ∀ numbers : List ℝ, (∀ x ∈ numbers, 1 / 2 ≤ x ∧ x ≤ 2) →
    numbers.prod = (f.value : ℝ) → factors.length ≤ numbers.length

section Run
variable {step last : Binary64} {k : Nat}

private theorem bounds_of_run (hstep : step.isFinite ∧ 1 / 2 ≤ step.value ∧ step.value ≤ 2)
    (hlast : last.isFinite ∧ 1 / 2 ≤ last.value ∧ last.value ≤ 2) :
    ∀ x ∈ List.replicate k step ++ [last], x.isFinite ∧ 1 / 2 ≤ x.value ∧ x.value ≤ 2 := by
  intro x hx
  rcases List.mem_append.1 hx with hx | hx
  · rw [List.eq_of_mem_replicate hx]
    exact hstep
  · rw [List.mem_singleton.1 hx]
    exact hlast

private theorem eq_of_mem_dropLast :
    ∀ x ∈ (List.replicate k step ++ [last]).dropLast, x = step := by
  intro x hx
  rw [List.dropLast_concat] at hx
  exact List.eq_of_mem_replicate hx

private theorem exact_of_run {f : Binary64} (hfinite : f.isFinite)
    (hproduct : product (List.replicate k step ++ [last]) = f)
    (hvalue : f.value = step.value ^ k * last.value)
    (hrun : ∀ j ≤ k, (product (List.replicate j step)).isFinite ∧
      (product (List.replicate j step)).value = step.value ^ j) :
    ∀ front, front <+: List.replicate k step ++ [last] →
      (product front).isFinite ∧ (product front).value = (front.map value).prod := by
  intro front hfront
  rcases List.prefix_concat_iff.1 hfront with rfl | hfront
  · rw [hproduct, hvalue]
    refine ⟨hfinite, ?_⟩
    simp only [List.map_append, List.map_replicate, List.map_cons, List.map_nil,
      List.prod_append, List.prod_replicate, List.prod_singleton]
  · obtain ⟨hj, hfront⟩ := List.prefix_replicate_iff.1 hfront
    rw [hfront, List.map_replicate, List.prod_replicate]
    exact hrun front.length hj

end Run

private theorem isChain_twos {k w : Nat} (hw : Representable w) (hu : Representable (2 ^ k * w))
    (hlow : unitsPerOne < w) (hhigh : w ≤ 2 * unitsPerOne)
    (hloop : Loop (fun x => greatest.less x) greatest (finite false (2 ^ k * w) hu)
      (List.replicate k greatest) (finite false w hw)) :
    IsChain (finite false (2 ^ k * w) hu) (List.replicate k greatest ++ [finite false w hw]) := by
  have hone := two_mul_halfUnits
  have hcast := cast_unitsPerOne_pos
  have hpow : 0 < 2 ^ k := Nat.two_pow_pos k
  have hle : w ≤ 2 ^ k * w := Nat.le_mul_of_pos_left w hpow
  have hrange : ∀ j ≤ k, 2 ^ j * unitsPerOne < overflowUnits := by
    intro j hj
    calc 2 ^ j * unitsPerOne ≤ 2 ^ k * unitsPerOne :=
          Nat.mul_le_mul_right _ (Nat.pow_le_pow_right (by decide) hj)
      _ ≤ 2 ^ k * w := Nat.mul_le_mul_left _ hlow.le
      _ < overflowUnits := hu.1
  have hproduct : product (List.replicate k greatest ++ [finite false w hw]) =
      finite false (2 ^ k * w) hu := by
    rw [product_append, product_twos k (hrange k le_rfl)]
    exact mul_finite _ _ _ (by ring)
  have hvalue : (1 : ℚ) < w / unitsPerOne := by
    rw [lt_div_iff₀ hcast, one_mul]
    exact_mod_cast hlow
  refine ⟨?runs, ?empty, ?bounds, ?twos, ?halves, hproduct, ?exact, ?shortest⟩
  case runs =>
    intro _
    refine ⟨_, _, [], _, hloop, .stop ?_, by simp⟩
    rw [least_eq, less_finite, decide_eq_false_iff_not]
    omega
  case empty =>
    simp only [List.append_eq_nil_iff, List.cons_ne_self, and_false, false_iff, one_eq,
      finite.injEq, true_and]
    omega
  case bounds =>
    exact bounds_of_run greatest_bounds (value_bounds hw (by omega) hhigh)
  case twos =>
    exact fun _ => eq_of_mem_dropLast
  case halves =>
    intro hsmall
    rw [value_finite, div_lt_iff₀ hcast] at hsmall
    have hlarge : (unitsPerOne : ℚ) < (2 ^ k * w : Nat) := by exact_mod_cast hlow.trans_le hle
    linarith
  case exact =>
    refine exact_of_run rfl hproduct ?_ ?_
    · rw [value_finite, value_finite, value_greatest]
      push_cast
      ring
    · intro j hj
      rw [product_twos j (hrange j hj), value_finite, value_greatest]
      refine ⟨rfl, ?_⟩
      push_cast
      field_simp
  case shortest =>
    intro numbers hnumbers hprod
    have hone : (1 : ℝ) < (w / unitsPerOne : ℚ) := by exact_mod_cast hvalue
    have hlong : k < numbers.length := by
      refine lt_length_of_two_pow_lt hnumbers ?_
      have hsplit : numbers.prod = 2 ^ k * ((w / unitsPerOne : ℚ) : ℝ) := by
        rw [hprod, value_finite]
        push_cast
        ring
      rw [hsplit]
      exact lt_mul_of_one_lt_right (by positivity) hone
    rw [List.length_append, List.length_replicate]
    exact hlong

private theorem exists_halves {k m : Nat} (hm : unitsPerOne = 2 ^ m) (hk : k ≤ m) :
    ∃ n, Representable n ∧ 2 ^ k * n = unitsPerOne := by
  have hle : 2 ^ (m - k) ≤ unitsPerOne := by
    rw [hm]
    exact Nat.pow_le_pow_right (by decide) (Nat.sub_le _ _)
  have hmax := unitsPerOne_lt
  refine ⟨2 ^ (m - k), .two_pow (by omega), ?_⟩
  rw [← Nat.pow_add, Nat.add_sub_cancel' hk, hm]

private theorem isChain_halves {k u : Nat} (hu : Representable u) (hw : Representable (2 ^ k * u))
    (hpos : 0 < u) (hne : u ≠ unitsPerOne) (hhigh : u ≤ 2 * unitsPerOne)
    (hlow : halfUnits ≤ 2 ^ k * u)
    (hrun : k = 0 ∨ u < halfUnits ∧ 2 ^ k * u < unitsPerOne)
    (hloop : Loop (fun x => x.less least) least (finite false u hu) (List.replicate k least)
      (finite false (2 ^ k * u) hw)) :
    IsChain (finite false u hu) (List.replicate k least ++ [finite false (2 ^ k * u) hw]) := by
  have hone := two_mul_halfUnits
  have hcast := cast_unitsPerOne_pos
  have hpow : 2 ^ k ≤ 2 ^ k * u := Nat.le_mul_of_pos_right _ hpos
  have hsteps : k ≤ 1074 := by
    rcases hrun with rfl | ⟨-, hsmall⟩
    · exact Nat.zero_le _
    · rw [unitsPerOne_eq] at hsmall
      exact ((Nat.pow_lt_pow_iff_right (by decide)).1 (hpow.trans_lt hsmall)).le
  have hproduct : product (List.replicate k least ++ [finite false (2 ^ k * u) hw]) =
      finite false u hu := by
    obtain ⟨n, hn, hsplit⟩ := exists_halves unitsPerOne_eq hsteps
    rw [product_append, product_halves k hn hsplit]
    refine mul_finite _ _ _ ?_
    rw [← hsplit]
    ring
  refine ⟨?runs, ?empty, ?bounds, ?twos, ?halves, hproduct, ?exact, ?shortest⟩
  case runs =>
    intro _
    refine ⟨[], _, _, _, .stop ?_, hloop, by simp⟩
    rw [greatest_eq, less_finite, decide_eq_false_iff_not]
    omega
  case empty =>
    simpa [one_eq] using hne
  case bounds =>
    exact bounds_of_run least_bounds (last_bounds hw hhigh hlow hrun)
  case twos =>
    intro hlarge
    rw [value_finite, lt_div_iff₀ hcast] at hlarge
    have hsmall : (u : ℚ) ≤ 2 * unitsPerOne := by exact_mod_cast hhigh
    linarith
  case halves =>
    exact fun _ => eq_of_mem_dropLast
  case exact =>
    refine exact_of_run rfl hproduct ?_ ?_
    · rw [value_finite, value_finite, value_least, one_div_pow]
      push_cast
      field_simp
    · intro j hj
      obtain ⟨n, hn, hsplit⟩ := exists_halves unitsPerOne_eq (hj.trans hsteps)
      rw [product_halves j hn hsplit, value_finite, value_least, one_div_pow]
      refine ⟨rfl, ?_⟩
      rw [div_eq_div_iff hcast.ne' (by positivity), ← hsplit]
      push_cast
      ring
  case shortest =>
    intro numbers hnumbers hprod
    rw [List.length_append, List.length_replicate]
    rcases hrun with rfl | ⟨-, hsmall⟩
    · rcases numbers with _ | ⟨x, numbers⟩
      · have hvalue : (1 : ℝ) = ((u / unitsPerOne : ℚ) : ℝ) := hprod
        have hequal : (1 : ℚ) = u / unitsPerOne := by exact_mod_cast hvalue
        rw [eq_div_iff hcast.ne', one_mul] at hequal
        exact absurd (by exact_mod_cast hequal.symm) hne
      · simp
    · have hvalue : (u : ℚ) / unitsPerOne < (1 / 2) ^ k := by
        rw [one_div_pow, div_lt_div_iff₀ hcast (by positivity), one_mul, mul_comm]
        exact_mod_cast hsmall
      refine lt_length_of_lt_half_pow hnumbers ?_
      rw [hprod, value_finite]
      have hvalueReal : ((u / unitsPerOne : ℚ) : ℝ) < ((1 / 2) ^ k : ℚ) := Rat.cast_lt.2 hvalue
      simpa using hvalueReal

private theorem isChain_one : IsChain 1 [] := by
  refine ⟨fun h => absurd rfl h, by simp, by simp, by simp, by simp, rfl, ?exact, by simp⟩
  case exact =>
    intro front hfront
    rw [List.prefix_nil.1 hfront]
    simp [product, one_eq, isFinite, unitsPerOne_pos.ne']

private theorem chain_finite {u : Nat} (hu : Representable u) (hpos : 0 < u) :
    chain (finite false u hu) =
      if u = unitsPerOne then []
      else if 2 * unitsPerOne < u then halvings 1100 (finite false u hu)
      else doublings 1100 (finite false u hu) := by
  have hzero : (finite false u hu).atMost 0 = false := by
    simp [zero_eq, atMost, position, Nat.ne_of_gt hpos]
  have hsame : (finite false u hu).same 1 = decide (u = unitsPerOne) := by
    rw [Bool.eq_iff_iff]
    simp [one_eq, same, atMost, position, Nat.le_antisymm_iff]
  simp only [chain, hzero, hsame, greatest_eq, less_finite, isFinite, Bool.not_true,
    Bool.false_or, decide_eq_true_eq]

private theorem le_halvings {u : Nat} (hu : Representable u) :
    u ≤ 2 * unitsPerOne * 2 ^ 1100 := by
  obtain ⟨k, hk, hunit, hover⟩ := exists_two_pow
  refine hu.1.le.trans ?_
  rw [hunit, hover, ← Nat.pow_succ', ← Nat.pow_add]
  exact Nat.pow_le_pow_right (by decide) (by omega)

private theorem le_doublings {u steps : Nat} (hpos : 0 < u) (hsteps : 1074 ≤ steps) :
    halfUnits ≤ u * 2 ^ steps := by
  obtain ⟨k, hk, hunit, -⟩ := exists_two_pow
  have hle : halfUnits ≤ 2 * halfUnits := Nat.le_mul_of_pos_left halfUnits two_pos
  have hpow : 2 ^ k ≤ 2 ^ steps := Nat.pow_le_pow_right (by decide) (by omega)
  rw [two_mul_halfUnits, hunit] at hle
  exact (hle.trans hpow).trans (Nat.le_mul_of_pos_left _ hpos)

private theorem isChain_chain {u : Nat} (hu : Representable u) (hpos : 0 < u) :
    IsChain (finite false u hu) (chain (finite false u hu)) := by
  rw [chain_finite hu hpos]
  split_ifs with hone htwo
  · have hf : finite false u hu = 1 := by simp only [one_eq, hone]
    rw [hf]
    exact isChain_one
  · obtain ⟨k, w, hw, rfl, hlow, hhigh, hchain, hloop⟩ :=
      halvings_eq 1100 hu (by have := unitsPerOne_pos; omega) (le_halvings hu)
    rw [hchain]
    exact isChain_twos hw hu hlow hhigh hloop
  · obtain ⟨k, hw, hlow, hrun, hchain, hloop⟩ :=
      doublings_eq 1100 hu (le_doublings hpos (by decide))
    rw [hchain]
    exact isChain_halves hu hw hpos hone (Nat.le_of_not_lt htwo) hlow hrun hloop

private theorem chain_of_not {f : Binary64} (h : ¬(f.isFinite ∧ 0 < f.value)) : chain f = [] := by
  have hcast := cast_unitsPerOne_pos
  rcases f with _ | negative | ⟨_ | _, u, hu⟩
  · rfl
  · simp [chain, isFinite]
  · have hzero : u = 0 := by
      by_contra hne
      refine h ⟨rfl, ?_⟩
      rw [value_finite]
      exact div_pos (by exact_mod_cast Nat.pos_of_ne_zero hne) hcast
    simp [chain, hzero, zero_eq, atMost, position]
  · simp [chain, zero_eq, atMost, position]

theorem chain_eq_nil_iff {f : Binary64} (hfinite : f.isFinite) (hpos : 0 < f.value) :
    chain f = [] ↔ f = 1 := by
  obtain ⟨u, hu, rfl, hunits⟩ := exists_finite hfinite hpos
  exact (isChain_chain hu hunits).empty

theorem bounds_of_mem_chain {f x : Binary64} (hfinite : f.isFinite) (hpos : 0 < f.value)
    (h : x ∈ chain f) : x.isFinite ∧ 1 / 2 ≤ x.value ∧ x.value ≤ 2 := by
  obtain ⟨u, hu, rfl, hunits⟩ := exists_finite hfinite hpos
  exact (isChain_chain hu hunits).bounds x h

theorem isFinite_of_mem_chain {f x : Binary64} (hfinite : f.isFinite) (hpos : 0 < f.value)
    (h : x ∈ chain f) : x.isFinite :=
  (bounds_of_mem_chain hfinite hpos h).1

/-- A chain that is not empty is a run of twos or of halves and one more factor, which lies above
one after twos. -/
theorem exists_run {f : Binary64} (hfinite : f.isFinite) (hpos : 0 < f.value) (hne : f ≠ 1) :
    ∃ k step last, chain f = List.replicate k step ++ [last] ∧ last.isFinite ∧
      f.value = step.value ^ k * last.value ∧ last.value ≤ 2 ∧
      (step = greatest ∧ 1 < last.value ∨ step = least ∧ 1 / 2 ≤ last.value) := by
  obtain ⟨u, hu, rfl, hunits⟩ := exists_finite hfinite hpos
  have hcast := cast_unitsPerOne_pos
  have hone : u ≠ unitsPerOne := by
    rintro rfl
    exact hne one_eq.symm
  rw [chain_finite hu hunits, if_neg hone]
  split_ifs with htwo
  · obtain ⟨k, w, hw, rfl, hlow, hhigh, hchain, -⟩ :=
      halvings_eq 1100 hu (by have := unitsPerOne_pos; omega) (le_halvings hu)
    have hbounds := value_bounds hw (by have := two_mul_halfUnits; omega) hhigh
    refine ⟨k, greatest, finite false w hw, hchain, hbounds.1, ?_, hbounds.2.2, .inl ⟨rfl, ?_⟩⟩
    · rw [value_greatest, value_finite, value_finite, Nat.cast_mul, Nat.cast_pow, Nat.cast_ofNat,
        mul_div_assoc]
    · rw [value_finite, one_lt_div hcast]
      exact_mod_cast hlow
  · obtain ⟨k, hw, hlow, hrun, hchain, -⟩ := doublings_eq 1100 hu (le_doublings hunits (by decide))
    have hbounds := last_bounds hw (Nat.le_of_not_lt htwo) hlow hrun
    refine ⟨k, least, finite false (2 ^ k * u) hw, hchain, hbounds.1, ?_, hbounds.2.2,
      .inr ⟨rfl, hbounds.2.1⟩⟩
    rw [value_least, value_finite, value_finite, Nat.cast_mul, Nat.cast_pow, Nat.cast_ofNat,
      one_div_pow]
    field_simp

theorem chain_isChain (f : Binary64) :
    (f.isFinite ∧ 0 < f.value → IsChain f (chain f)) ∧
      (¬(f.isFinite ∧ 0 < f.value) → chain f = []) := by
  refine ⟨fun h => ?_, chain_of_not⟩
  obtain ⟨u, hu, rfl, hpos⟩ := exists_finite h.1 h.2
  exact isChain_chain hu hpos

theorem chain_isChain_five :
    IsChain 5 (chain 5) ∧ chain 5 = [greatest, greatest, .fraction 5 4] := by
  have hunits : (5 : Binary64) = finite false (5 * unitsPerOne) (by decide +kernel) := by
    decide +kernel
  have hpos : (5 : Binary64).isFinite ∧ 0 < (5 : Binary64).value := by
    have hcast := cast_unitsPerOne_pos
    rw [hunits, value_finite]
    refine ⟨rfl, div_pos ?_ hcast⟩
    push_cast
    linarith
  exact ⟨(chain_isChain 5).1 hpos, by decide +kernel⟩

end Tempo
end VideoEdit
