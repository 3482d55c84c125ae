import VideoEdit.Proofs.Number.Numeral
/-!
# Signs

A number that is not NaN has a sign, zeros and infinities too. Numerals without a sign are read as
numbers without one, and scaling, turning and clamping a number do to its sign what they should.
-/
namespace VideoEdit
attribute [local irreducible] unitsPerOne overflowUnits

namespace Binary64

/-- Whether a number has the given sign; NaN has none. -/
def HasSign (negative : Bool) : Binary64 → Prop
  | nan => False
  | infinite s => s = negative
  | finite s _ _ => s = negative

section Signs
variable {s negative : Bool} {x : Binary64}

theorem hasSign_ofUnits (negative : Bool) (num den : Nat) :
    (ofUnits negative num den).HasSign negative := by
  unfold ofUnits
  split
  · rfl
  · rfl

private theorem hasSign_ofDecimal (digits : Nat) (exponent : Int) :
    (ofDecimal digits exponent).HasSign false := by
  unfold ofDecimal
  split
  · split
    · rfl
    · apply hasSign_ofUnits
  · split
    · apply hasSign_ofUnits
    · apply hasSign_ofUnits

theorem HasSign.div_finite {units : Nat} (hunits : Representable units) (hpos : 0 < units)
    (h : x.HasSign s) : (x / finite false units hunits).HasSign s := by
  change (div _ _).HasSign s
  cases x with
  | nan => cases h
  | infinite t =>
    cases h
    simp [div, HasSign]
  | finite t u hu =>
    cases h
    simp only [div, Nat.ne_of_gt hpos, if_false]
    simpa using hasSign_ofUnits (s != false) (u * unitsPerOne) units

theorem HasSign.mul_finite {units : Nat} (hunits : Representable units) (hpos : 0 < units)
    (h : x.HasSign s) : (finite negative units hunits * x).HasSign (negative != s) := by
  change (mul _ _).HasSign _
  cases x with
  | nan => cases h
  | infinite t =>
    cases h
    simp [mul, HasSign, Nat.ne_of_gt hpos, Bool.xor_comm]
  | finite t u hu =>
    cases h
    apply hasSign_ofUnits

theorem HasSign.neg (h : x.HasSign s) : (-x).HasSign (!s) := by
  cases x with
  | nan => cases h
  | infinite t =>
    cases h
    rfl
  | finite t u hu =>
    cases h
    rfl

theorem HasSign.add (hx : x.HasSign s) (hy : y.HasSign s) : (x + y).HasSign s := by
  change (Binary64.add x y).HasSign s
  cases x with
  | nan => cases hx
  | infinite t =>
    cases hx
    cases y with
    | nan => cases hy
    | infinite t =>
      cases hy
      simp [Binary64.add, HasSign]
    | finite t v hv => rfl
  | finite t u hu =>
    cases hx
    cases y with
    | nan => cases hy
    | infinite t =>
      cases hy
      rfl
    | finite t v hv =>
      cases hy
      rw [Binary64.add, if_pos rfl]
      apply hasSign_ofUnits

theorem HasSign.mul_pos {units : Nat} (hunits : Representable units) (hpos : 0 < units)
    (h : x.HasSign s) : (x * finite false units hunits).HasSign s := by
  change (mul _ _).HasSign s
  cases x with
  | nan => cases h
  | infinite t =>
    cases h
    simp [mul, HasSign, Nat.ne_of_gt hpos]
  | finite t u hu =>
    cases h
    simpa [mul] using hasSign_ofUnits (s != false) (u * units) unitsPerOne

theorem HasSign.one_div (h : x.HasSign s) : (1 / x).HasSign s := by
  rw [one_eq]
  change (div _ _).HasSign s
  cases x with
  | nan => cases h
  | infinite t =>
    cases h
    simpa [div] using hasSign_ofUnits (false != s) 0 1
  | finite t u hu =>
    cases h
    rw [div]
    split
    · simp [Nat.ne_of_gt unitsPerOne_pos, HasSign]
    · simpa using hasSign_ofUnits (false != s) (unitsPerOne * unitsPerOne) u

theorem HasSign.zero_atMost (h : x.HasSign false) : atMost 0 x := by
  rw [zero_eq]
  cases x with
  | nan => cases h
  | infinite t =>
    cases h
    simp [atMost, position]
  | finite t u hu =>
    cases h
    simp [atMost, position]

theorem HasSign.atMost_zero (h : x.HasSign true) : x.atMost 0 := by
  rw [zero_eq]
  cases x with
  | nan => cases h
  | infinite t =>
    cases h
    simp [atMost, position]
  | finite t u hu =>
    cases h
    simp [atMost, position]

private theorem HasSign.not_less (h : x.HasSign s) :
    (x.less (finite true unitsPerOne .one) → s = true) ∧
      ((finite false unitsPerOne .one).less x → s = false) := by
  cases x with
  | nan => cases h
  | infinite t =>
    cases h
    cases s <;> simp [less, position]
  | finite t u hu =>
    cases h
    cases s <;> simp [less, position]

theorem neg_one_eq : (-1 : Binary64) = finite true unitsPerOne .one := by
  rw [one_eq]
  rfl

theorem HasSign.clamp (h : x.HasSign s) : (x.clamp (-1) 1).HasSign s := by
  obtain ⟨hlow, hhigh⟩ := h.not_less
  unfold Binary64.clamp
  rw [neg_one_eq, one_eq]
  split
  · next hless => exact (hlow hless).symm
  · split
    · next hless => exact (hhigh hless).symm
    · exact h

theorem HasSign.clamp_bounds (h : x.HasSign s) :
    atMost (-1) (x.clamp (-1) 1) ∧ (x.clamp (-1) 1).atMost 1 := by
  have hone : atMost 1 1 ∧ atMost (-1) 1 ∧ atMost (-1) (-1) := by
    rw [neg_one_eq, one_eq]
    simp [atMost, position]
  unfold Binary64.clamp
  split
  · exact ⟨hone.2.2, hone.2.1⟩
  · next hlow =>
    split
    · exact ⟨hone.2.1, hone.1⟩
    · next hhigh =>
      rw [neg_one_eq, one_eq] at *
      cases x with
      | nan => cases h
      | infinite t => cases t <;> simp_all [less, atMost, position]
      | finite t u hu => cases t <;> simp_all [less, atMost, position]

end Signs

section Order
variable {x y : Binary64}

private theorem zero_atMost_iff : atMost 0 x ↔ ∃ p, x.position = some p ∧ 0 ≤ p := by
  rw [zero_eq]
  unfold atMost
  cases x.position <;> simp [position]

theorem isFinite_iff_of_zero_atMost (h : atMost 0 x) : x.isFinite ↔ x ≠ .infinite false := by
  obtain ⟨p, hp, hpos⟩ := zero_atMost_iff.1 h
  cases x with
  | nan => cases hp
  | infinite s =>
    cases s with
    | true =>
      have hover : 0 < overflowUnits := Representable.zero.1
      simp only [position, Option.some.injEq, if_true] at hp
      omega
    | false => simp [isFinite]
  | finite s u hu => simp [isFinite]

theorem less_iff_not_atMost (hx : atMost 0 x) (hy : atMost 0 y) : x.less y ↔ ¬y.atMost x := by
  obtain ⟨p, hp, -⟩ := zero_atMost_iff.1 hx
  obtain ⟨q, hq, -⟩ := zero_atMost_iff.1 hy
  simp [less, atMost, hp, hq]

theorem zero_less_iff (h : atMost 0 x) : less 0 x ↔ ¬x.same 0 := by
  have hzero : atMost 0 0 := zero_atMost_iff.2 ⟨0, by rw [zero_eq]; rfl, le_rfl⟩
  rw [less_iff_not_atMost hzero h, same, h, Bool.and_true]

theorem isFinite_of_atMost (hlow : atMost (-1) x) (hhigh : x.atMost 1) : x.isFinite := by
  rw [neg_one_eq] at hlow
  rw [one_eq] at hhigh
  have hover := Representable.one.1
  cases x with
  | nan => cases hlow
  | infinite s =>
    cases s with
    | true => 
      simp [atMost, position] at hlow
      omega
    | false =>
      simp [atMost, position] at hhigh
      omega
  | finite s u hu => rfl

end Order
end Binary64

namespace Numeral

private theorem hasSign_of_unsigned? {text : List Char} {x : Binary64}
    (h : unsigned? text = some x) :
    x.HasSign false := by
  unfold unsigned? at h
  dsimp only at h
  split at h
  · cases h
  · obtain ⟨exponent, -, rfl⟩ := Option.map_eq_some_iff.1 h
    apply Binary64.hasSign_ofDecimal

/-- A numeral that begins with a digit is read as a number without a sign. -/
theorem hasSign_of_read? {c : Char} {rest : List Char} (hc : isDecimalDigit c) {x : Binary64}
    (h : read? (c :: rest) = some x) : x.HasSign false := by
  rw [read?_of_isDecimalDigit hc] at h
  exact hasSign_of_unsigned? h

theorem hasSign_of_read?_digits {text : List Char}
    (h : ∀ c ∈ text, isDecimalDigit c ∨ c = '.') {x : Binary64} (hread : read? text = some x) :
    x.HasSign false := by
  cases text with
  | nil => cases hread
  | cons c rest =>
    rcases h c List.mem_cons_self with hc | rfl
    · exact hasSign_of_read? hc hread
    · have hpoint : read? ('.' :: rest) = magnitude? ('.' :: rest) := by simp [read?]
      rw [hpoint, magnitude?_eq_unsigned? (by decide) (by decide)] at hread
      exact hasSign_of_unsigned? hread

theorem exists_hasSign_of_read? {sign : List Char} (hsign : sign ∈ [[], ['+'], ['-']]) {c : Char}
    (hc : isDecimalDigit c) {rest : List Char} {x : Binary64}
    (hread : read? (sign ++ c :: rest) = some x) :
    ∃ s, x.HasSign s := by
  simp only [List.mem_cons, List.not_mem_nil, or_false] at hsign
  rcases hsign with rfl | rfl | rfl
  · exact ⟨false, hasSign_of_read? hc hread⟩
  · rw [List.singleton_append, read?, magnitude?_of_isDecimalDigit hc] at hread
    exact ⟨false, hasSign_of_unsigned? hread⟩
  · rw [List.singleton_append, read?, magnitude?_of_isDecimalDigit hc] at hread
    obtain ⟨y, hy, rfl⟩ := Option.map_eq_some_iff.1 hread
    exact ⟨_, (hasSign_of_unsigned? hy).neg⟩

end Numeral
end VideoEdit
