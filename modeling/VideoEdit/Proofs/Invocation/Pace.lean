import VideoEdit.Proofs.Invocation.FilterText
import VideoEdit.Proofs.Invocation.Values
/-!
# Pictures and sound in step

A change of speed rescales the timestamps of the pictures by one printed number and the tempo of the
sound by a product of others. The two numbers multiply to one, nearly: up to a speed of about two
hundred, and again where the multiplier has more places than four, they keep step to one part in a
hundred.
-/
namespace VideoEdit
open Binary64 Filters Tempo

private theorem product_error {x s m p d e : ℚ} (hx : 0 < x) (hs : |s * x - 1| ≤ 1 / 2 ^ 51)
    (hm : |m - s| ≤ d) (hp : |p - x| ≤ x * e) (he : 0 ≤ e) (hd : 0 ≤ d) :
    |m * p - 1| ≤ d * (x * (1 + e)) + (1 + 1 / 2 ^ 51) * e + 1 / 2 ^ 51 := by
  have hsplit : m * p - 1 = (m - s) * p + s * (p - x) + (s * x - 1) := by ring
  have hpBound : |p| ≤ x * (1 + e) := by
    have htriangle := abs_add_le (p - x) x
    rw [sub_add_cancel, abs_of_pos hx] at htriangle
    linarith
  have hsBound : |s| * x ≤ 1 + 1 / 2 ^ 51 := by
    have htriangle := abs_add_le (s * x - 1) 1
    rw [sub_add_cancel, abs_mul, abs_of_pos hx, abs_one] at htriangle
    linarith
  have hfirst : |(m - s) * p| ≤ d * (x * (1 + e)) := by
    rw [abs_mul]
    exact mul_le_mul hm hpBound (abs_nonneg p) hd
  have hsecond : |s * (p - x)| ≤ (1 + 1 / 2 ^ 51) * e := by
    calc |s * (p - x)| = |s| * |p - x| := abs_mul _ _
      _ ≤ |s| * (x * e) := mul_le_mul_of_nonneg_left hp (abs_nonneg s)
      _ = |s| * x * e := by ring
      _ ≤ (1 + 1 / 2 ^ 51) * e := mul_le_mul_of_nonneg_right hsBound he
  rw [hsplit]
  calc |(m - s) * p + s * (p - x) + (s * x - 1)|
      ≤ |(m - s) * p| + |s * (p - x)| + |s * x - 1| := abs_add_three _ _ _
    _ ≤ d * (x * (1 + e)) + (1 + 1 / 2 ^ 51) * e + 1 / 2 ^ 51 :=
      add_le_add (add_le_add hfirst hsecond) hs

private theorem printedProduct_le {f : Binary64} (hf : f.isFinite) (hlow : 197 < f.value)
    (hhigh : f.value ≤ 202) : printedProduct f ≤ 128 * (15781 / 10000) := by
  have hne : f ≠ 1 := by
    intro hone
    rw [hone, value_one] at hlow
    linarith
  obtain ⟨k, step, last, n, hprinted, hvalue, herror, hle, hstep⟩ :=
    exists_printed_run hf (by linarith) hne
  rcases hstep with ⟨rfl, hlast⟩ | ⟨rfl, hlast⟩
  · -- The last factor lies above one and at most at two, so there are seven twos; at two hundred
    -- and two the last factor is rounded down.
    have hseven : k = 7 := by
      have hupper : (2 : ℚ) ^ k < 2 ^ 8 := by nlinarith
      have hlower : (2 : ℚ) ^ 6 < 2 ^ k := by nlinarith
      have hupper' := (pow_lt_pow_iff_right₀ one_lt_two).1 hupper
      have hlower' := (pow_lt_pow_iff_right₀ one_lt_two).1 hlower
      omega
    subst hseven
    have hn : n ≤ 15781 := by
      by_contra hlarge
      have hcast : (15782 : ℚ) ≤ n := by exact_mod_cast (by omega : 15782 ≤ n)
      have hnear := (abs_le.1 herror).2
      linarith
    have hcast : (n : ℚ) ≤ 15781 := by exact_mod_cast hn
    rw [hprinted]
    linarith
  · have hpow : (1 / 2 : ℚ) ^ k ≤ 1 := pow_le_one₀ (by norm_num) (by norm_num)
    nlinarith

private theorem fixed_near_two_hundred {x s : ℚ} {n : ℤ} (hs : |s * x - 1| ≤ 1 / 2 ^ 51)
    (hlow : 197 < x) (hhigh : x ≤ 202) (hn : |(n / 10000 : ℚ) - s| ≤ 1 / 20000) :
    n = 50 ∧ 19801 / 100 < x ∨ n = 51 ∧ x < 19802 / 100 := by
  obtain ⟨hs1, hs2⟩ := abs_le.1 hs
  obtain ⟨hn1, hn2⟩ := abs_le.1 hn
  norm_num at hs1 hs2
  -- Between a hundred and ninety-seven and two hundred and two only two multipliers are printed.
  have hsLow : 495 / 100000 < s := by nlinarith
  have hsHigh : s < 508 / 100000 := by nlinarith
  have hnLow : (49 : ℚ) < n := by linarith
  have hnHigh : (n : ℚ) < 52 := by linarith
  have hnLow' : 49 < n := by exact_mod_cast hnLow
  have hnHigh' : n < 52 := by exact_mod_cast hnHigh
  obtain rfl | rfl : n = 50 ∨ n = 51 := by omega
  · left
    refine ⟨rfl, ?_⟩
    norm_num at hn1 hn2
    nlinarith
  · right
    refine ⟨rfl, ?_⟩
    norm_num at hn1 hn2
    nlinarith

private theorem product_near_two_hundred {f : Binary64} (hf : f.isFinite) (hlow : 197 < f.value)
    (hhigh : f.value ≤ 202) {s : ℚ} {n : ℤ} (hs : |s * f.value - 1| ≤ 1 / 2 ^ 51)
    (hn : |(n / 10000 : ℚ) - s| ≤ 1 / 20000) :
    |(n / 10000 : ℚ) * printedProduct f - 1| ≤ 1 / 100 := by
  have htop := printedProduct_le hf hlow hhigh
  have hproduct := (printedProduct_error hf (by linarith)).2 (by linarith)
  obtain ⟨hp1, hp2⟩ := abs_le.1 hproduct
  rw [abs_le]
  rcases fixed_near_two_hundred hs hlow hhigh hn with ⟨rfl, hx⟩ | ⟨rfl, hx⟩
  · constructor <;> norm_num <;> linarith
  · constructor <;> norm_num <;> linarith

private theorem product_proportional {x s m p : ℚ} (hx : 0 < x) (hs : |s * x - 1| ≤ 1 / 2 ^ 51)
    (hm : |m - s| ≤ s / 10 ^ 4) (hp : |p - x| ≤ x / 10000) : |m * p - 1| ≤ 1 / 1000 := by
  have hd : 0 ≤ s / 10 ^ 4 := (abs_nonneg _).trans hm
  have hp' : |p - x| ≤ x * (1 / 10000) := by linarith
  have hproduct := product_error hx hs hm hp' (by norm_num) hd
  have hsx := (abs_le.1 hs).2
  have hfirst : s / 10 ^ 4 * (x * (1 + 1 / 10000)) = s * x * (10001 / 10 ^ 8) := by ring
  rw [hfirst] at hproduct
  norm_num at hsx hproduct ⊢
  linarith

/-- The pace of the pictures times that of the sound, as both are printed. -/
theorem pace_error {f : Binary64} (hf : f.isFinite) (hpos : 0 < f.value)
    (hfinite : (1 / f).isFinite) :
    (f.value ≤ 202 ∨ 20000 < f.value → |multiplier f * printedProduct f - 1| ≤ 1 / 100) ∧
      (202 < f.value → f.value ≤ 20000 →
        |multiplier f * printedProduct f - 1| ≤ (f.value + 3) / 20000) := by
  obtain ⟨v, hv, hdiv, -, hs⟩ := one_div_error hf hpos hfinite
  obtain ⟨hp, hp'⟩ := printedProduct_error hf hpos
  rcases multiplier_error hf hpos hfinite with ⟨hle, hfixed⟩ | hnear
  · obtain ⟨n, hn⟩ := exists_atPlaces 4 (1 / f)
    have hm := atPlaces_error 4 hfinite
    rw [← hfixed] at hm hn
    norm_num at hm hn
    constructor
    · intro hrange
      have hrange' : f.value ≤ 202 := hrange.resolve_right (not_lt.2 hle)
      rcases le_or_gt f.value 197 with hsmall | hlarge
      · have he : |printedProduct f - f.value| ≤ f.value * (1 / 10000) := by linarith
        have hproduct := product_error hpos hs hm he (by norm_num) (by norm_num)
        norm_num at hproduct ⊢
        linarith
      · rw [hn] at hm ⊢
        exact product_near_two_hundred hf hlarge hrange' hs hm
    · intro hlarge _
      have hsound := hp' (by linarith)
      have he : |printedProduct f - f.value| ≤ f.value * (1 / 20000) := by linarith
      have hproduct := product_error hpos hs hm he (by norm_num) (by norm_num)
      norm_num at hproduct ⊢
      linarith
  · have hproduct := product_proportional hpos hs hnear hp
    constructor
    · intro _
      linarith
    · intro hlarge _
      linarith

namespace Arguments

/-- The numbers by which arguments rescale the timestamps of the pictures, and the one by which they
change the tempo of the sound, which is one if no filter does. -/
def paces? (arguments : List String) : Option (List ℚ × ℚ) := do
  let items ← read? arguments
  let factors ← (valuesOf "-af" items).mapM Tempo.factors?
  return ((valuesOf "-vf" items).flatMap Filters.multipliers, factors.flatten.prod)

section Compiled
variable (e : Extraction) (policy : DuplicatePolicy) (settings : Settings) (input output : String)
  {f : Binary64}

private theorem multipliers_video (hspeed : .speed f ∈ (e.plan policy).operations)
    (hfinite : (1 / f).isFinite) :
    (Filters.video (e.plan policy) settings).flatMap multipliers = [multiplier f] := by
  have hrate : (if (e.plan policy).output = .gif then ["fps=" ++ settings.gif.fps.repr]
      else []).flatMap multipliers = [] := by
    split_ifs
    · have hnumber := not_mem_toDigits (by decide : '*'.isDigit = false) settings.gif.fps
      rw [List.flatMap_singleton]
      exact multipliers_of_not_mem (by simp [hnumber])
    · rfl
  obtain ⟨before, after, hops, hother⟩ := e.plan_split policy hspeed
  have hnil : ∀ ops : List Operation, (∀ op ∈ ops, op ∈ before ++ after) →
      ops.flatMap (fun op => (ofOperation settings.portrait op).flatMap multipliers) = [] := by
    intro ops hmem
    rw [List.flatMap_eq_nil_iff]
    intro op hop
    exact multipliers_ofOperation settings.portrait (hother op (hmem op hop))
  rw [Filters.video, List.flatMap_append, hrate, List.append_nil, List.flatMap_assoc, hops,
    List.flatMap_append, List.flatMap_cons,
    hnil before fun op hop => List.mem_append_left _ hop,
    hnil after fun op hop => List.mem_append_right _ hop, List.nil_append, List.append_nil,
    ofOperation, List.flatMap_singleton]
  exact multipliers_setpts hfinite

private theorem exists_filter_values (hspeed : .speed f ∈ (e.plan policy).operations)
    (hmute : .mute ∉ (e.plan policy).operations) :
    ∃ items, read? ((e.plan policy).compile input output settings).dropLast = some items ∧
      valuesOf "-vf" items = [",".intercalate (Filters.video (e.plan policy) settings)] ∧
      valuesOf "-af" items = (Tempo.filter? (Tempo.chain f)).toList := by
  obtain ⟨items, hread, -, -, hvideo, haudio⟩ :=
    exists_values (e.plan policy) settings input output
  refine ⟨items, hread, ?_, ?_⟩
  · have hmem : setpts f ∈ Filters.video (e.plan policy) settings := by
      refine List.mem_append_left _ (List.mem_flatMap.2 ⟨.speed f, hspeed, ?_⟩)
      exact List.mem_singleton_self _
    rw [hvideo]
    exact if_neg (List.ne_nil_of_mem hmem)
  · rw [haudio, Plan.tempi, if_neg (mt (Plan.isMuted_iff _).1 hmute),
      (e.plan_speed?_iff policy f).2 hspeed, Option.map_some, Option.getD_some]

private theorem compile_paces (hspeed : .speed f ∈ (e.plan policy).operations)
    (hmute : .mute ∉ (e.plan policy).operations) (hfinite : (1 / f).isFinite) :
    paces? ((e.plan policy).compile input output settings).dropLast =
      some ([multiplier f], printedProduct f) := by
  obtain ⟨items, hread, hvideo, haudio⟩ :=
    exists_filter_values e policy settings input output hspeed hmute
  obtain ⟨hf, hpos⟩ := e.plan_speed_pos policy hspeed
  obtain ⟨factors, hfactors, hflatten⟩ :=
    mapM_factors?_filter? fun x hx => isFinite_of_mem_chain hf hpos hx
  have hpictures := multipliers_video e policy settings hspeed hfinite
  have hne : Filters.video (e.plan policy) settings ≠ [] := by
    intro hnil
    rw [hnil] at hpictures
    cases hpictures
  unfold paces?
  rw [hread, Option.bind_eq_bind, Option.bind_some, haudio, hfactors, hvideo,
    List.flatMap_singleton, multipliers_intercalate hne, hpictures, Option.bind_eq_bind,
    Option.bind_some, hflatten]
  rfl

/-- Read up to the output, the arguments of a plan that changes the speed and keeps the sound bring
pictures and sound in step to one part in a hundred, up to a speed of about two hundred and above
twenty thousand. In between the multiplier has no more than four places, and the two drift apart by
half a unit of the last. -/
theorem compile_in_step (hspeed : .speed f ∈ (e.plan policy).operations)
    (hmute : .mute ∉ (e.plan policy).operations) (hfinite : (1 / f).isFinite) :
    ∃ s p : ℚ, paces? ((e.plan policy).compile input output settings).dropLast = some ([s], p) ∧
      (f.value ≤ 202 ∨ 20000 < f.value → |s * p - 1| ≤ 1 / 100) ∧
      (202 < f.value → f.value ≤ 20000 → |s * p - 1| ≤ (f.value + 3) / 20000) := by
  obtain ⟨hf, hpos⟩ := e.plan_speed_pos policy hspeed
  obtain ⟨hnear, hbetween⟩ := pace_error hf hpos hfinite
  exact ⟨multiplier f, printedProduct f,
    compile_paces e policy settings input output hspeed hmute hfinite, hnear, hbetween⟩

end Compiled

/-- A cropped picture is still read as rescaled once, although the crop has commas in it. -/
theorem compile_in_step_cropped :
    let e : Extraction := ⟨[⟨0, .phrase .crop, .crop .square⟩, ⟨7, .phrase .speed, .speed 3⟩], .gif⟩
    .speed 3 ∈ (e.plan .last).operations ∧ .mute ∉ (e.plan .last).operations ∧
      (1 / (3 : Binary64)).isFinite ∧
      ∃ s p : ℚ, paces? ((e.plan .last).compile "in.mp4" "out.gif" {}).dropLast = some ([s], p) ∧
        |s * p - 1| ≤ 1 / 100 := by
  intro e
  have hspeed : .speed 3 ∈ (e.plan .last).operations := by decide +kernel
  have hmute : .mute ∉ (e.plan .last).operations := by decide +kernel
  have hfinite : (1 / (3 : Binary64)).isFinite := by decide +kernel
  have hvalue : (3 : Binary64).value ≤ 202 := by decide +kernel
  obtain ⟨s, p, hpaces, hnear, -⟩ :=
    compile_in_step e .last {} "in.mp4" "out.gif" hspeed hmute hfinite
  exact ⟨hspeed, hmute, hfinite, s, p, hpaces, hnear (.inl hvalue)⟩

/-- At a speed of twenty thousand the multiplier is twice too large. -/
theorem compile_out_of_step :
    let e : Extraction := ⟨[⟨0, .phrase .speed, .speed 20000⟩], .mp4⟩
    .speed 20000 ∈ (e.plan .first).operations ∧ .mute ∉ (e.plan .first).operations ∧
      (1 / (20000 : Binary64)).isFinite ∧
      ¬∃ s p : ℚ, paces? ((e.plan .first).compile "in.mp4" "out.mp4" {}).dropLast = some ([s], p) ∧
        |s * p - 1| ≤ 1 / 100 := by
  intro e
  refine ⟨by decide +kernel, by decide +kernel, by decide +kernel, ?_⟩
  rintro ⟨s, p, hpaces, hnear⟩
  have hread : paces? ((e.plan .first).compile "in.mp4" "out.mp4" {}).dropLast =
      some ([1 / 10000], 2 ^ 14 * (12207 / 10000)) := by
    decide +kernel
  rw [hread] at hpaces
  cases hpaces
  revert hnear
  norm_num

end Arguments
end VideoEdit
