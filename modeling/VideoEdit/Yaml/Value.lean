import VideoEdit.Number.Numeral
import VideoEdit.Number.Radix
import VideoEdit.Number.Shortest
import VideoEdit.Text.Quoted
import VideoEdit.Yaml.Node
/-!
What a scalar stands for. A plain scalar is a null, a boolean, an integer or a float if it has the
form of one; a tag of the core schema asks for one of these whatever the style, and any other tag or
style leaves a scalar its text.
-/
namespace VideoEdit

namespace Yaml

namespace Number

/-- The number that digits denote in a base; there must be at least one. -/
def inBase? (base : Nat) (digits : List Char) : Option Nat :=
  if digits = [] then none else natInBase? base digits

/-- Whether a text is a row of digits that starts with a superfluous zero. -/
def hasLeadingZero : List Char → Bool
  | '0' :: rest => rest ≠ [] && rest.all Char.isDigit
  | _ => false

/-- Reads a numeral without a sign, in base 16, 8 or 2 if it is marked so. -/
def natural? : List Char → Option Nat
  | '0' :: 'x' :: digits => inBase? 16 digits
  | '0' :: 'o' :: digits => inBase? 8 digits
  | '0' :: 'b' :: digits => inBase? 2 digits
  | digits => if hasLeadingZero digits then none else inBase? 10 digits

def unsigned? : List Char → Option Nat
  | '+' :: rest => natural? rest
  | text => natural? text

/-- The least and the greatest integer that are told from a float. -/
def least : Int := -(Nat.pow 2 127 : Int)

/-- The number after the greatest integer that is told from a float. -/
def beyond : Nat := Nat.pow 2 128

/-- Reads an integer that is not too large for one. -/
def integer? : List Char → Option Int
  | '-' :: rest => do
    let n ← natural? rest
    if least ≤ -(n : Int) then return -n else none
  | text => do
    let n ← unsigned? text
    if n < beyond then return n else none

/-- Reads a float; infinities and NaN are words after a point. -/
def float? (text : List Char) : Option Binary64 :=
  let unsigned := match text with
    | '+' :: rest => rest
    | _ => text
  if unsigned ≠ text && (unsigned.head? == some '+' || unsigned.head? == some '-') then none
  else if [".inf", ".Inf", ".INF"].contains (String.ofList unsigned) then some (.infinite false)
  else if ["-.inf", "-.Inf", "-.INF"].contains (String.ofList text) then some (.infinite true)
  else if [".nan", ".NaN", ".NAN"].contains (String.ofList text) then some .nan
  else (Numeral.read? unsigned).bind fun x => if x.isFinite then some x else none

/-- Whether a row of digits, behind a sign or not, is a text only because of the zero at its
front. -/
def isPadded : List Char → Bool
  | '-' :: rest | '+' :: rest => hasLeadingZero rest
  | text => hasLeadingZero text

end Number

inductive Value
  | null
  | bool (value : Bool)
  | int (value : Int)
  | float (value : Binary64)
  | text (value : List Char)

namespace Value

def isNull (text : List Char) : Bool := ["null", "Null", "NULL", "~"].contains (String.ofList text)

def bool? (text : List Char) : Option Bool :=
  if ["true", "True", "TRUE"].contains (String.ofList text) then some true
  else if ["false", "False", "FALSE"].contains (String.ofList text) then some false
  else none

def ofPlain (s : List Char) : Value :=
  if s = [] || isNull s then null
  else match bool? s with
    | some b => bool b
    | none => match Number.integer? s with
      | some n => int n
      | none => match (if Number.isPadded s then none else Number.float? s) with
        | some x => float x
        | none => text s

def coreTag (name : String) : List Char := ("tag:yaml.org,2002:" ++ name).toList

/-- Whether a tag is local to a document: it starts with an exclamation mark. -/
def isLocal (tag : List Char) : Bool := tag.head? == some '!'

/-- What a scalar stands for, or what its tag asks for in vain. -/
def ofScalar (tag : Option (List Char)) (style : ScalarStyle) (s : List Char) :
    Except String Value :=
  if tag = some (coreTag "bool") then
    ((bool? s).map fun b => Except.ok (bool b)).getD (.error "a boolean")
  else if tag = some (coreTag "int") then
    ((Number.integer? s).map fun n => Except.ok (int n)).getD (.error "an integer")
  else if tag = some (coreTag "float") then
    ((Number.float? s).map fun x => Except.ok (float x)).getD (.error "a float")
  else if tag = some (coreTag "null") then if isNull s then .ok null else .error "null"
  else if style = .plain && tag.all isLocal then .ok (ofPlain s)
  else .ok (text s)

/-- A float in a message is always positional. -/
def floatLayout : Binary64.DecimalLayout := ⟨-400, 400, false, true⟩

/-- What marks an integer in a message that needs more than 64 bits. -/
def widthNote (n : Int) : String :=
  if n < -(Nat.pow 2 63 : Int) then " as i128"
  else if (Nat.pow 2 64 : Int) ≤ n then " as u128"
  else ""

def description : Value → String
  | null => "unit value"
  | bool b => "boolean `" ++ (if b then "true" else "false") ++ "`"
  | int n => "integer `" ++ n.repr ++ "`" ++ widthNote n
  | float x => "floating point `" ++ String.ofList (x.toShortest floatLayout) ++ "`"
  | text s => "string " ++ quotedText (String.ofList s)

end Value

end Yaml

end VideoEdit
