import VideoEdit.Number.Fixed
/-!
The fewest decimal digits that read back to the same double, and the two ways the program lays
them out: in JSON and in log lines. The digits come from the coarsest power of ten that has a
multiple among the numbers that round to the double.
-/
namespace VideoEdit

namespace Binary64

/-- The numbers that round to a double, in quarters of a unit: from `low` to `high`, whose ends
belong to it when the significand is even. -/
structure RoundingInterval where
  low : Nat
  high : Nat
  closed : Bool

/-- The interval of a non-zero magnitude. Just above a power of two the gap below is half the gap
above, unless the unit is already the finest step. -/
def roundingInterval (units : Nat) : RoundingInterval :=
  let step := Nat.pow 2 (units.log2 - 52)
  let below := if units = Nat.pow 2 units.log2 ∧ 52 < units.log2 then step else 2 * step
  ⟨4 * units - below, 4 * units + 2 * step, (units / step) % 2 = 0⟩

/-- Whether `x / scale` quarters of a unit lie in the interval. -/
def RoundingInterval.has (i : RoundingInterval) (x scale : Nat) : Bool :=
  (i.low * scale < x && x < i.high * scale) ||
    (i.closed && (x = i.low * scale || x = i.high * scale))

/-- The multiple of `10 ^ exponent` that reads back to `units` and lies nearest to it, as a
multiplier; only the two neighbours of the value can be it. -/
def multiple? (tieUp : Bool) (units : Nat) (exponent : Int) : Option Nat :=
  let scale := Nat.pow 10 (-exponent).toNat
  let grid := Nat.pow 10 exponent.toNat * (4 * unitsPerOne)
  let value := 4 * units * scale
  let down := value / grid
  let interval := roundingInterval units
  let downHits := interval.has (down * grid) scale
  let upHits := interval.has ((down + 1) * grid) scale
  let twice := 2 * (value % grid)
  let preferUp := grid < twice || (twice = grid && (tieUp || down % 2 = 1))
  if downHits && !(upHits && preferUp) then some down
  else if upHits then some (down + 1)
  else none

/-- The powers of ten worth trying: from one above the value down past seventeen digits. A bit is
worth less than 0.30103 decimal digits. -/
def candidateExponents (units : Nat) : List Int :=
  let top : Int := ((units.log2 : Int) - 1074) * 30103 / 100000 + 2
  (List.range 22).map fun (i : Nat) => top - i

/-- The fewest digits that read back, and the power of ten of the last one. -/
def shortestDigits (tieUp : Bool) (units : Nat) : Nat × Int :=
  ((candidateExponents units).findSome? fun e =>
    (multiple? tieUp units e).map fun m => (m, e)).getD (0, 0)

/-- How a shortest decimal is laid out: the powers of ten of the first digit that are written
positionally, whether a positive exponent has a sign, and which way an exact tie goes. -/
structure DecimalLayout where
  least : Int
  beyond : Int
  plusSign : Bool
  tieUp : Bool

/-- JSON numbers are positional from 0.00001 up to 10^16 and have a signed exponent elsewhere. -/
def jsonLayout : DecimalLayout := ⟨-5, 16, true, false⟩

/-- Log lines are positional from 0.0001 up to 10^16; their exponents have no plus sign. -/
def logLayout : DecimalLayout := ⟨-4, 16, false, true⟩

/-- Writes digits positionally, the first of them standing for `10 ^ lead`; a whole number gets
one zero after the point. -/
def positional (digits : List Char) (lead : Int) : List Char :=
  let whole := (lead + 1).toNat
  if lead < 0 then '0' :: '.' :: List.replicate (-lead - 1).toNat '0' ++ digits
  else if digits.length ≤ whole then
    digits ++ List.replicate (whole - digits.length) '0' ++ ['.', '0']
  else digits.take whole ++ '.' :: digits.drop whole

/-- Writes digits with one of them before the point and an exponent. -/
def scientific (plusSign : Bool) (digits : List Char) (lead : Int) : List Char :=
  let exponent := Nat.toDigits 10 lead.natAbs
  let sign := if lead < 0 then ['-'] else if plusSign then ['+'] else []
  let fractional := if digits.length ≤ 1 then [] else '.' :: digits.drop 1
  digits.take 1 ++ fractional ++ 'e' :: sign ++ exponent

def DecimalLayout.magnitude (layout : DecimalLayout) (units : Nat) : List Char :=
  if units = 0 then "0.0".toList
  else
    let (number, exponent) := shortestDigits layout.tieUp units
    let digits := Nat.toDigits 10 number
    let lead := exponent + digits.length - 1
    if layout.least ≤ lead ∧ lead < layout.beyond then positional digits lead
    else scientific layout.plusSign digits lead

/-- The shortest decimal that reads back to the number. -/
def toShortest (layout : DecimalLayout) : Binary64 → List Char
  | nan => "NaN".toList
  | infinite s => signed s "inf".toList
  | finite s u _ => signed s (layout.magnitude u)

end Binary64

end VideoEdit
