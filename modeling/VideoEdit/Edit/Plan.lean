import VideoEdit.Prompt.Extraction
/-!
Plans: at most one valid operation of each kind, in the order in which they are applied.
Operations that cannot be carried out are dropped before duplicates are settled, so a valid
mention still counts when an invalid one of its kind precedes it.
-/
namespace VideoEdit

/-- Which mention counts when several valid ones have the same kind. -/
inductive DuplicatePolicy
  | first
  | last
  deriving DecidableEq

def DuplicatePolicy.name : DuplicatePolicy → String
  | first => "first"
  | last => "last"

/-- The member of a list that counts. -/
def DuplicatePolicy.pick {α : Type} : DuplicatePolicy → List α → Option α
  | first, members => members.head?
  | last, members => members.getLast?

/-- The operations to apply, in order, and the format to write. -/
structure Plan where
  operations : List Operation
  output : OutputFormat
  deriving DecidableEq

namespace Extraction

/-- The operation that a plan takes from an extraction for one kind. -/
def chosen? (e : Extraction) (policy : DuplicatePolicy) (kind : Kind) : Option Operation :=
  policy.pick ((e.mentions.map Mention.operation).filter fun op => op.isValid && op.kind = kind)

/-- The plan that an extraction leads to. -/
def plan (e : Extraction) (policy : DuplicatePolicy) : Plan :=
  ⟨Kind.all.filterMap (e.chosen? policy), e.output⟩

end Extraction

namespace Plan

def ofPrompt (prompt : String) (policy : DuplicatePolicy) : Plan :=
  (Prompt.parse prompt).plan policy

def contains (p : Plan) (kind : Kind) : Bool := p.operations.any fun op => op.kind = kind

def trim? (p : Plan) : Option (Binary64 × Option Binary64) :=
  p.operations.findSome? fun
    | .trim start finish => some (start, finish)
    | _ => none

def speed? (p : Plan) : Option Binary64 :=
  p.operations.findSome? fun
    | .speed factor => some factor
    | _ => none

def isMuted (p : Plan) : Bool := p.contains .mute

end Plan

end VideoEdit
