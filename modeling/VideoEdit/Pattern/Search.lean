import VideoEdit.Pattern.Basic
/-!
Searching a whole text: from left to right, at each place the most preferred way to match, and
after a match on from its end, so the matches found do not overlap. Places are byte offsets in
UTF-8.
-/
namespace VideoEdit

/-- A match: where it starts and stops, and the parts it captured. -/
structure Match (γ : Type) where
  start : Nat
  stop : Nat
  captured : List (γ × List Char)
  deriving DecidableEq

def utf8Length (text : List Char) : Nat := text.foldr (fun c n => c.utf8Size + n) 0

/-- The text captured under a name, if the match went through that part. -/
def Match.text? {γ : Type} [DecidableEq γ] (m : Match γ) (name : γ) : Option (List Char) :=
  m.captured.lookup name

namespace Pattern
variable {γ : Type}

/-- The match at a place, if it takes at least one character, with the number it takes. -/
def matchAt (p : Pattern γ) (offset : Nat) (before : Option Char) (rest : List Char) :
    Option (Nat × Match γ) :=
  let here : Scan γ := ⟨before, rest, []⟩
  (p.first? here).bind fun there =>
    let taken := rest.length - there.rest.length
    if taken = 0 then none
    else some (taken, ⟨offset, offset + utf8Length (rest.take taken),
      there.captured.map fun (name, span) => (name, span.text)⟩)

/-- The matches from a place on, after `skip` more characters of an earlier match. -/
def searchFrom (p : Pattern γ) : Nat → Nat → Option Char → List Char → List (Match γ)
  | _, _, _, [] => []
  | skip + 1, offset, _, c :: rest => p.searchFrom skip (offset + c.utf8Size) (some c) rest
  | 0, offset, before, c :: rest =>
    match p.matchAt offset before (c :: rest) with
    | none => p.searchFrom 0 (offset + c.utf8Size) (some c) rest
    | some (taken, found) =>
      found :: p.searchFrom (taken - 1) (offset + c.utf8Size) (some c) rest

/-- All matches in a text, from left to right, none sharing text with another. -/
def search (p : Pattern γ) (text : List Char) : List (Match γ) := p.searchFrom 0 0 none text

end Pattern

end VideoEdit
