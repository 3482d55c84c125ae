/-!
Decoding UTF-8. Where bytes are not well formed, each longest part that could still have begun a
character is decoded as one replacement character.
-/
namespace VideoEdit

abbrev Bytes := List UInt8

namespace Utf8

/-- A character that has begun: how many bytes it lacks, the range the next one must lie in, and
the bits read so far. -/
structure Pending where
  missing : Nat
  low : UInt8
  high : UInt8
  bits : Nat

/-- What a byte at the start of a character is: a character, the start of a longer one, or
neither. -/
inductive Lead
  | whole (c : Char)
  | pending (p : Pending)
  | bad

/-- Reads the first byte of a character. The second byte is restricted where it could otherwise
make an overlong form, a surrogate or a number beyond the last code point. -/
def lead (b : UInt8) : Lead :=
  if b < 0x80 then .whole (Char.ofNat b.toNat)
  else if b < 0xC2 then .bad
  else if b < 0xE0 then .pending ⟨1, 0x80, 0xBF, b.toNat - 0xC0⟩
  else if b < 0xF0 then
    .pending ⟨2, if b = 0xE0 then 0xA0 else 0x80, if b = 0xED then 0x9F else 0xBF, b.toNat - 0xE0⟩
  else if b < 0xF5 then
    .pending ⟨3, if b = 0xF0 then 0x90 else 0x80, if b = 0xF4 then 0x8F else 0xBF, b.toNat - 0xF0⟩
  else .bad

/-- Decodes bytes after a character that may have begun; `none` stands for a part that is not well
formed. -/
def decodeFrom : Option Pending → Bytes → List (Option Char)
  | none, [] => []
  | some _, [] => [none]
  | none, b :: rest => start b rest
  | some p, b :: rest =>
    if p.low ≤ b ∧ b ≤ p.high then
      let bits := p.bits * 64 + b.toNat % 64
      if p.missing ≤ 1 then some (Char.ofNat bits) :: decodeFrom none rest
      else decodeFrom (some ⟨p.missing - 1, 0x80, 0xBF, bits⟩) rest
    else none :: match lead b with
      | .whole c => some c :: decodeFrom none rest
      | .pending q => decodeFrom (some q) rest
      | .bad => none :: decodeFrom none rest
where
  /-- Decodes bytes of which the first starts a character. -/
  start (b : UInt8) (rest : Bytes) : List (Option Char) :=
    match lead b with
    | .whole c => some c :: decodeFrom none rest
    | .pending q => decodeFrom (some q) rest
    | .bad => none :: decodeFrom none rest

def replacement : Char := '\uFFFD'

/-- Decodes bytes, with replacement characters where they are not well formed. -/
def decodeLossy (bytes : Bytes) : String :=
  String.ofList ((decodeFrom none bytes).map (·.getD replacement))

def decode? (bytes : Bytes) : Option String :=
  ((decodeFrom none bytes).mapM id).map String.ofList

def encode (text : String) : Bytes := text.toUTF8.toList

end Utf8

end VideoEdit
