import VideoEdit.Invocation.Sha256
import VideoEdit.Text.Utf8
/-!
The fingerprint of an invocation: the SHA-256 digest of its arguments, each closed by a zero byte.
-/
namespace VideoEdit

namespace Arguments

/-- The bytes of one argument and the zero byte that closes it. -/
def closed (argument : String) : Bytes := Utf8.encode argument ++ [0]

/-- The bytes that a fingerprint is taken of. -/
def stream (arguments : List String) : Bytes := arguments.flatMap closed

end Arguments

def hexByte (b : UInt8) : List Char := [Nat.digitChar (b.toNat / 16), Nat.digitChar (b.toNat % 16)]

def hexText (bytes : Bytes) : String := String.ofList (bytes.flatMap hexByte)

def Arguments.fingerprint (arguments : List String) : String :=
  hexText (Sha256.digest (Arguments.stream arguments))

end VideoEdit
