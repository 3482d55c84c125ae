import VideoEdit.Number.Shortest
/-!
JSON values and their two written forms, on one line and indented. Fields keep the order in which
they are given; `sortKeys` puts them into the order of their keys at every level.
-/
namespace VideoEdit

/-- A JSON value. JSON has no infinities and no NaN; a number that is one is written `null`. -/
inductive Json
  | null
  | bool (value : Bool)
  | int (value : Int)
  | number (value : Binary64)
  | text (value : String)
  | array (items : List Json)
  | object (fields : List (String × Json))
  deriving Inhabited

namespace Json

def hexDigit (n : Nat) : Char := Nat.digitChar (n % 16)

/-- One character of a string: the quote, the backslash and control characters are escaped. -/
def escapeChar (c : Char) : List Char :=
  if c = '"' then ['\\', '"']
  else if c = '\\' then ['\\', '\\']
  else if c = '\n' then ['\\', 'n']
  else if c = '\r' then ['\\', 'r']
  else if c = '\t' then ['\\', 't']
  else if c = '\x08' then ['\\', 'b']
  else if c = '\x0c' then ['\\', 'f']
  else if c.toNat < 0x20 then ['\\', 'u', '0', '0', hexDigit (c.toNat / 16), hexDigit c.toNat]
  else [c]

def quoted (s : String) : List Char := '"' :: s.toList.flatMap escapeChar ++ ['"']

def leaf : Json → List Char
  | bool true => "true".toList
  | bool false => "false".toList
  | int n => n.repr.toList
  | number x => if x.isFinite then x.toShortest Binary64.jsonLayout else "null".toList
  | text s => quoted s
  | _ => "null".toList

mutual

/-- The value on one line, without blanks. -/
def compactChars : Json → List Char
  | array items => '[' :: compactItems items ++ [']']
  | object fields => '{' :: compactFields fields ++ ['}']
  | value => leaf value

def compactItems : List Json → List Char
  | [] => []
  | [item] => compactChars item
  | item :: rest => compactChars item ++ ',' :: compactItems rest

def compactFields : List (String × Json) → List Char
  | [] => []
  | [(key, value)] => quoted key ++ ':' :: compactChars value
  | (key, value) :: rest => quoted key ++ ':' :: compactChars value ++ ',' :: compactFields rest

end

/-- A new line, indented by two blanks for each level. -/
def newLine (depth : Nat) : List Char := '\n' :: List.replicate (2 * depth) ' '

mutual

/-- The value with one item or field on a line. -/
def prettyChars (depth : Nat) : Json → List Char
  | array [] => ['[', ']']
  | array items => '[' :: prettyItems (depth + 1) items ++ newLine depth ++ [']']
  | object [] => ['{', '}']
  | object fields => '{' :: prettyFields (depth + 1) fields ++ newLine depth ++ ['}']
  | value => leaf value

def prettyItems (depth : Nat) : List Json → List Char
  | [] => []
  | [item] => newLine depth ++ prettyChars depth item
  | item :: rest => newLine depth ++ prettyChars depth item ++ ',' :: prettyItems depth rest

def prettyFields (depth : Nat) : List (String × Json) → List Char
  | [] => []
  | [(key, value)] => newLine depth ++ quoted key ++ ':' :: ' ' :: prettyChars depth value
  | (key, value) :: rest =>
    newLine depth ++ quoted key ++ ':' :: ' ' :: prettyChars depth value ++
      ',' :: prettyFields depth rest

end

def compact (value : Json) : String := String.ofList value.compactChars

def pretty (value : Json) : String := String.ofList (value.prettyChars 0)

def insertField (key : String) (value : Json) : List (String × Json) → List (String × Json)
  | [] => [(key, value)]
  | (k, v) :: rest =>
    if k < key then (k, v) :: insertField key value rest else (key, value) :: (k, v) :: rest

mutual

/-- The same value with the fields of every object in the order of their keys. -/
def sortKeys : Json → Json
  | array items => array (sortItems items)
  | object fields => object (sortFields fields)
  | value => value

def sortItems : List Json → List Json
  | [] => []
  | item :: rest => sortKeys item :: sortItems rest

def sortFields : List (String × Json) → List (String × Json)
  | [] => []
  | (key, value) :: rest => insertField key (sortKeys value) (sortFields rest)

end

def texts (items : List String) : Json := array (items.map text)

end Json

end VideoEdit
