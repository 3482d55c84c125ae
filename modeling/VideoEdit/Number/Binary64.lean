import VideoEdit.Number.Rounding
/-!
Double-precision numbers. A finite one is a sign and a count of units of 2^-1074, the finest step
of the format, so it stands for an exact dyadic rational; every operation forms the exact result
and rounds it once, to the nearest representable count with ties to the even one.
-/
namespace VideoEdit

/-- The units in the number one. -/
def unitsPerOne : Nat := Nat.pow 2 1074

/-- The first count of units beyond the largest finite number. -/
def overflowUnits : Nat := Nat.pow 2 2098

/-- A count of units the format holds: in range, with at most 53 significant bits. -/
def Representable (units : Nat) : Prop :=
  units < overflowUnits ∧ Nat.pow 2 (units.log2 - 52) ∣ units

instance (units : Nat) : Decidable (Representable units) :=
  inferInstanceAs (Decidable (_ ∧ _))

/-- A double: not a number, an infinity, or a signed count of units (so zero has two signs). -/
inductive Binary64
  | nan
  | infinite (negative : Bool)
  | finite (negative : Bool) (units : Nat) (representable : Representable units)
  deriving DecidableEq

namespace Binary64

/-- The representable count nearest to `num / den` units, overflow aside: the quotient is rounded
on the grid on which its leading bit leaves 53 significant ones. -/
def nearestUnits (num den : Nat) : Nat :=
  let grid := Nat.pow 2 ((num / den).log2 - 52)
  roundDiv num (den * grid) * grid

private theorem dvd_mul_grid (m s : Nat) (hm : m ≤ Nat.pow 2 53) :
    Nat.pow 2 ((m * Nat.pow 2 s).log2 - 52) ∣ m * Nat.pow 2 s := by
  simp only [Nat.pow_eq] at hm ⊢
  rcases Nat.eq_zero_or_pos m with rfl | pos
  · simp
  rcases Nat.lt_or_eq_of_le hm with lt | rfl
  · have hlog : (m * 2 ^ s).log2 < 53 + s := by
      rw [Nat.log2_lt (Nat.mul_ne_zero (by omega) (by simp)), Nat.pow_add]
      exact Nat.mul_lt_mul_of_pos_right lt (Nat.two_pow_pos s)
    exact Nat.dvd_trans (Nat.pow_dvd_pow 2 (by omega)) (Nat.dvd_mul_left _ _)
  · rw [← Nat.pow_add, Nat.log2_two_pow]
    exact Nat.pow_dvd_pow 2 (by omega)

theorem nearestUnits_dvd (num den : Nat) :
    Nat.pow 2 ((nearestUnits num den).log2 - 52) ∣ nearestUnits num den := by
  refine dvd_mul_grid _ _ ?_
  simp only [Nat.pow_eq]
  rcases Nat.eq_zero_or_pos den with rfl | pos
  · have := (roundDiv_bounds num (0 * 2 ^ ((num / 0).log2 - 52))).2
    simp only [Nat.zero_mul, Nat.div_zero] at this ⊢
    exact Nat.le_trans this (by decide)
  refine roundDiv_le_of_lt_mul ?_
  have below : num / den < 2 ^ ((num / den).log2 - 52 + 53) :=
    Nat.lt_of_lt_of_le Nat.lt_log2_self (Nat.pow_le_pow_right (by decide) (by omega))
  rw [Nat.mul_assoc, ← Nat.pow_add, Nat.mul_comm]
  exact (Nat.div_lt_iff_lt_mul pos).1 below

/-- The double nearest to `num / den` units with the given sign. -/
def ofUnits (negative : Bool) (num den : Nat) : Binary64 :=
  if h : nearestUnits num den < overflowUnits then
    finite negative (nearestUnits num den) ⟨h, nearestUnits_dvd num den⟩
  else
    infinite negative

def fraction (num den : Nat) : Binary64 := ofUnits false (num * unitsPerOne) den

def ofNat (n : Nat) : Binary64 := fraction n 1

instance (n : Nat) : OfNat Binary64 n := ⟨ofNat n⟩

def isFinite : Binary64 → Bool
  | finite .. => true
  | _ => false

def neg : Binary64 → Binary64
  | nan => nan
  | infinite s => infinite !s
  | finite s u h => finite (!s) u h

instance : Neg Binary64 := ⟨neg⟩

/-- The exact sum, rounded once; a sum that cancels is the positive zero. -/
def add : Binary64 → Binary64 → Binary64
  | nan, _ | _, nan => nan
  | infinite s, infinite t => if s = t then infinite s else nan
  | infinite s, finite .. => infinite s
  | finite .., infinite t => infinite t
  | finite s u _, finite t v _ =>
    if s = t then ofUnits s (u + v) 1
    else if v < u then ofUnits s (u - v) 1
    else if u < v then ofUnits t (v - u) 1
    else 0

instance : Add Binary64 := ⟨add⟩
instance : Sub Binary64 := ⟨fun x y => x + -y⟩

/-- The exact product, rounded once. -/
def mul : Binary64 → Binary64 → Binary64
  | nan, _ | _, nan => nan
  | infinite s, infinite t => infinite (s != t)
  | infinite s, finite t v _ | finite t v _, infinite s => if v = 0 then nan else infinite (s != t)
  | finite s u _, finite t v _ => ofUnits (s != t) (u * v) unitsPerOne

instance : Mul Binary64 := ⟨mul⟩

/-- The exact quotient, rounded once; a division by zero is infinite. -/
def div : Binary64 → Binary64 → Binary64
  | nan, _ | _, nan => nan
  | infinite _, infinite _ => nan
  | infinite s, finite t _ _ => infinite (s != t)
  | finite s _ _, infinite t => ofUnits (s != t) 0 1
  | finite s u _, finite t v _ =>
    if v = 0 then (if u = 0 then nan else infinite (s != t))
    else ofUnits (s != t) (u * unitsPerOne) v

instance : Div Binary64 := ⟨div⟩

/-- The position on the number line in units, an infinity lying at the overflow point; NaN has
none, and both zeros share theirs. -/
def position : Binary64 → Option Int
  | nan => none
  | infinite s => some (if s then -(overflowUnits : Int) else overflowUnits)
  | finite s u _ => some (if s then -(u : Int) else u)

/-- Numeric order; false whenever NaN takes part. -/
def less (x y : Binary64) : Bool :=
  match x.position, y.position with
  | some a, some b => a < b
  | _, _ => false

/-- Numeric order or equality; false whenever NaN takes part. -/
def atMost (x y : Binary64) : Bool :=
  match x.position, y.position with
  | some a, some b => a ≤ b
  | _, _ => false

/-- Numeric equality: the zeros are equal, and NaN equals nothing. -/
def same (x y : Binary64) : Bool := x.atMost y && y.atMost x

/-- The nearest point of the closed interval from `low` to `high`; NaN stays NaN. -/
def clamp (x low high : Binary64) : Binary64 :=
  if x.less low then low else if high.less x then high else x

end Binary64

end VideoEdit
