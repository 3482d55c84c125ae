import VideoEdit.Number.Binary64
/-!
Reading decimal numerals: an optional sign, ASCII digits with an optional point, an optional
exponent. The numeral's exact rational value is rounded once to the nearest double.
-/
namespace VideoEdit

namespace Binary64

/-- The double nearest to `digits * 10 ^ exponent`. Beyond 10^308 the result is infinite; a power
of ten is more than that power of eight, so a small enough exponent gives zero without a
division. -/
def ofDecimal (digits : Nat) : Int → Binary64
  | .ofNat k =>
    if digits ≠ 0 ∧ 308 < k then infinite false else fraction (digits * Nat.pow 10 k) 1
  | .negSucc k =>
    if digits.log2 + 1076 ≤ 3 * (k + 1) then ofUnits false 0 1
    else fraction digits (Nat.pow 10 (k + 1))

end Binary64

namespace Numeral

def natOfDigits (digits : List Char) : Nat := Nat.ofDigitChars 10 digits 0

/-- Reads the rest of a numeral as its exponent: nothing, or `e`, a sign if any, and digits. -/
def exponent? : List Char → Option Int
  | [] => some 0
  | e :: rest =>
    if e ≠ 'e' ∧ e ≠ 'E' then none
    else
      let (negative, digits) := match rest with
        | '-' :: r => (true, r)
        | '+' :: r => (false, r)
        | r => (false, r)
      if digits ≠ [] ∧ digits.all Char.isDigit then
        some (if negative then -(natOfDigits digits : Int) else natOfDigits digits)
      else none

/-- Splits a point and the digits after it from the front of a text. -/
def splitFraction : List Char → List Char × List Char
  | '.' :: rest => (rest.takeWhile Char.isDigit, rest.dropWhile Char.isDigit)
  | rest => ([], rest)

/-- Reads a numeral without a sign; the point may lead or end it, but one digit is needed. -/
def unsigned? (text : List Char) : Option Binary64 :=
  let whole := text.takeWhile Char.isDigit
  let (decimals, rest) := splitFraction (text.dropWhile Char.isDigit)
  if whole = [] ∧ decimals = [] then none
  else (exponent? rest).map fun e =>
    Binary64.ofDecimal (natOfDigits (whole ++ decimals)) (e - decimals.length)

/-- Reads a magnitude: a numeral, or one of the words for infinity and NaN in any letter case. -/
def magnitude? (text : List Char) : Option Binary64 :=
  let word := text.map Char.toLower
  if word = "inf".toList ∨ word = "infinity".toList then some (.infinite false)
  else if word = "nan".toList then some .nan
  else unsigned? text

/-- Reads a signed numeral; the whole text must be one. -/
def read? : List Char → Option Binary64
  | '-' :: rest => (magnitude? rest).map (- ·)
  | '+' :: rest => magnitude? rest
  | text => magnitude? text

end Numeral

end VideoEdit
