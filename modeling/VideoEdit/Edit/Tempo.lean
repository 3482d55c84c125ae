import VideoEdit.Number.Fixed
/-!
Changes of tempo. One filter instance scales the tempo by a factor from a half to two, so a larger
change is a chain of such factors whose product it is: twos or halves, and one last factor.
-/
namespace VideoEdit

namespace Tempo

def least : Binary64 := .fraction 1 2

def greatest : Binary64 := 2

/-- Halves a factor until one instance can take it. A finite double passes the end of the format
after 1024 halvings, so the bound on the number of steps is never met by one. -/
def halvings : Nat → Binary64 → List Binary64
  | 0, remaining => [remaining]
  | steps + 1, remaining =>
    if greatest.less remaining then greatest :: halvings steps (remaining / greatest)
    else [remaining]

/-- Doubles a factor until one instance can take it; 1074 doublings bring the least positive double
to one. -/
def doublings : Nat → Binary64 → List Binary64
  | 0, remaining => [remaining]
  | steps + 1, remaining =>
    if remaining.less least then least :: doublings steps (remaining / least)
    else [remaining]

/-- The factors that make up a change of tempo; none for a factor of one, and none for a factor
that is no tempo. -/
def chain (factor : Binary64) : List Binary64 :=
  if !factor.isFinite || factor.atMost 0 || factor.same 1 then []
  else if greatest.less factor then halvings 1100 factor
  else doublings 1100 factor

/-- The product of a chain, from the left. -/
def product (factors : List Binary64) : Binary64 := factors.foldl (· * ·) 1

def step (factor : Binary64) : String := "atempo=" ++ String.ofList (factor.toDecimal 4)

/-- The filter for a chain; an empty chain needs none. -/
def filter? (factors : List Binary64) : Option String :=
  if factors = [] then none else some (",".intercalate (factors.map step))

end Tempo

end VideoEdit
