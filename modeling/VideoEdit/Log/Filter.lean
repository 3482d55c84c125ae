import VideoEdit.Log.Directive
/-!
Which events are written. A filter is a list of directives; of those that concern an event the most
special one decides.
-/
namespace VideoEdit

namespace Log

/-- A list of directives, in the order in which they are written. -/
abbrev Filter := List Directive

namespace Filter

/-- Of the directives that concern an event the one that decides: the most special, and of equally
special ones the last. -/
def deciding? (f : Filter) (e : Event) : Option Directive :=
  (f.filter (·.concerns e)).foldl (fun best d =>
    match best with
    | some b => if b.outranks d then best else some d
    | none => some d) none

def passes (f : Filter) (e : Event) : Bool :=
  (f.deciding? e).any fun d => e.level.rank ≤ d.depth

/-- The parts of a text that stand for directives. -/
def parts (text : String) : List (List Char) := (fields ',' text.toList).filter (· ≠ [])

def orErrors (directives : List Directive) : Filter :=
  if directives = [] then [⟨Level.error.rank, none, none, false⟩] else directives

/-- The filter that a text describes, if all its directives can be read. -/
def ofText? (text : String) : Option Filter :=
  ((parts text).mapM fun part => (Directive.read part).toOption).map orErrors

/-- The filter that a text describes, without the directives that cannot be read. -/
def ofText (text : String) : Filter :=
  orErrors ((parts text).filterMap fun part => (Directive.read part).toOption)

/-- What is said about the directives of a text that cannot be read. -/
def complaints (text : String) : List String :=
  (parts text).filterMap fun part =>
    match Directive.read part with
    | .ok _ => none
    | .error e => some ("ignoring `" ++ String.ofList part ++ "`: " ++ e.message)

end Filter

end Log

end VideoEdit
