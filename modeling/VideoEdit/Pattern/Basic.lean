import VideoEdit.Text.Blank
import VideoEdit.Text.Digit
import VideoEdit.Text.LetterCase
import VideoEdit.Text.Word
/-!
Patterns over text. A pattern can often match in several ways from one place; they are ordered by
preference, earlier alternatives before later ones and longer repetitions before shorter ones.
`ways` lists them all, `firstWay` finds the most preferred one that a continuation accepts, and
`firstWay_eq` says that the second is a search through the first.
-/
namespace VideoEdit

/-- A test on one character: equality up to letter case, a digit of any script, white space, or
white space and the hyphen. -/
inductive CharClass
  | literal (c : Char)
  | digit
  | blank
  | gap
  deriving DecidableEq

def CharClass.accepts : CharClass → Char → Bool
  | literal c, x => foldCase x == c
  | digit, x => isDecimalDigit x
  | blank, x => isBlank x
  | gap, x => isBlank x || x == '-'

/-- A pattern whose captured parts are named by values of `γ`. -/
inductive Pattern (γ : Type)
  | never
  | empty
  | one (cls : CharClass)
  | many (cls : CharClass)
  | wordBoundary
  | seq (first second : Pattern γ)
  | alt (first second : Pattern γ)
  | capture (name : γ) (inner : Pattern γ)
  deriving DecidableEq

/-- A part of a text, given by the text from its start on and the text from its end on. -/
structure Span where
  start : List Char
  stop : List Char
  deriving DecidableEq

def Span.text (s : Span) : List Char := s.start.take (s.start.length - s.stop.length)

/-- A place in a text, with the parts captured on the way to it, the latest in front. -/
structure Scan (γ : Type) where
  before : Option Char
  rest : List Char
  captured : List (γ × Span)
  deriving DecidableEq

namespace Scan
variable {γ : Type}

/-- Whether a word begins or ends between a character and the text after it. -/
def boundary (before : Option Char) (rest : List Char) : Bool :=
  before.any isWord != rest.head?.any isWord

/-- Records the part from `s` to `t` under a name. -/
def record (name : γ) (s t : Scan γ) : Scan γ :=
  ⟨t.before, t.rest, (name, ⟨s.rest, t.rest⟩) :: t.captured⟩

end Scan

namespace Pattern
variable {γ : Type}

/-- The places that a run of a class can stop at, the farthest first. -/
def stops (cls : CharClass) (captured : List (γ × Span)) :
    Option Char → List Char → List (Scan γ)
  | before, [] => [⟨before, [], captured⟩]
  | before, x :: rest =>
    if cls.accepts x then stops cls captured (some x) rest ++ [⟨before, x :: rest, captured⟩]
    else [⟨before, x :: rest, captured⟩]

/-- Every way to match from a place, in order of preference. -/
def ways : Pattern γ → Scan γ → List (Scan γ)
  | never, _ => []
  | empty, s => [s]
  | one cls, s =>
    match s.rest with
    | [] => []
    | x :: rest => if cls.accepts x then [⟨some x, rest, s.captured⟩] else []
  | many cls, s => stops cls s.captured s.before s.rest
  | wordBoundary, s => if Scan.boundary s.before s.rest then [s] else []
  | seq p q, s => (p.ways s).flatMap q.ways
  | alt p q, s => p.ways s ++ q.ways s
  | capture name p, s => (p.ways s).map (s.record name)

/-- Tries the stops of a run, the farthest first. -/
def firstStop {β : Type} (cls : CharClass) (captured : List (γ × Span))
    (next : Scan γ → Option β) : Option Char → List Char → Option β
  | before, [] => next ⟨before, [], captured⟩
  | before, x :: rest =>
    if cls.accepts x then
      match firstStop cls captured next (some x) rest with
      | some found => some found
      | none => next ⟨before, x :: rest, captured⟩
    else next ⟨before, x :: rest, captured⟩

/-- The result of the most preferred way from which the rest of the match succeeds. -/
def firstWay {β : Type} : Pattern γ → Scan γ → (Scan γ → Option β) → Option β
  | never, _, _ => none
  | empty, s, next => next s
  | one cls, s, next =>
    match s.rest with
    | [] => none
    | x :: rest => if cls.accepts x then next ⟨some x, rest, s.captured⟩ else none
  | many cls, s, next => firstStop cls s.captured next s.before s.rest
  | wordBoundary, s, next => if Scan.boundary s.before s.rest then next s else none
  | seq p q, s, next => p.firstWay s fun t => q.firstWay t next
  | alt p q, s, next =>
    match p.firstWay s next with
    | some found => some found
    | none => q.firstWay s next
  | capture name p, s, next => p.firstWay s fun t => next (s.record name t)

private theorem firstStop_eq {β : Type} (cls : CharClass) (captured : List (γ × Span))
    (next : Scan γ → Option β) (before : Option Char) (rest : List Char) :
    firstStop cls captured next before rest = (stops cls captured before rest).findSome? next := by
  induction rest generalizing before with
  | nil => simp [firstStop, stops]
  | cons x rest ih =>
    unfold firstStop stops
    split
    · rw [ih, List.findSome?_append]
      cases (stops cls captured (some x) rest).findSome? next <;> simp
    · simp

/-- Searching with a continuation finds the first way that the continuation accepts. -/
theorem firstWay_eq {β : Type} (p : Pattern γ) (s : Scan γ) (next : Scan γ → Option β) :
    p.firstWay s next = (p.ways s).findSome? next := by
  induction p generalizing s β with
  | never => rfl
  | empty => simp [firstWay, ways]
  | one cls =>
    unfold firstWay ways
    split
    · simp
    · split <;> simp
  | many cls => exact firstStop_eq ..
  | wordBoundary => unfold firstWay ways; split <;> simp
  | seq p q ihp ihq =>
    simp only [firstWay, ways, ihp, ihq]
    induction p.ways s with
    | nil => rfl
    | cons t ts ih =>
      simp only [List.findSome?_cons, List.flatMap_cons, List.findSome?_append, ih]
      cases (q.ways t).findSome? next <;> simp
  | alt p q ihp ihq =>
    simp only [firstWay, ways, ihp, ihq, List.findSome?_append]
    cases (p.ways s).findSome? next <;> simp
  | capture name p ih => simp only [firstWay, ways, ih, List.findSome?_map]; rfl

def first? (p : Pattern γ) (s : Scan γ) : Option (Scan γ) := p.firstWay s some

theorem first?_eq_head? (p : Pattern γ) (s : Scan γ) : p.first? s = (p.ways s).head? := by
  rw [first?, firstWay_eq]
  cases p.ways s <;> simp

instance : Append (Pattern γ) := ⟨seq⟩
instance : OrOp (Pattern γ) := ⟨alt⟩

/-- A text up to letter case. -/
def word (text : String) : Pattern γ :=
  text.toList.foldr (fun c rest => one (.literal c) ++ rest) empty

/-- One of several patterns, the earlier ones preferred. -/
def choice (patterns : List (Pattern γ)) : Pattern γ := patterns.foldr alt never

/-- One of several texts, the earlier ones preferred. -/
def oneOf (texts : List String) : Pattern γ := choice (texts.map word)

/-- A pattern or, failing that, nothing. -/
def maybe (p : Pattern γ) : Pattern γ := p ||| empty

/-- At least one character of a class, as many as possible. -/
def oneOrMore (cls : CharClass) : Pattern γ := one cls ++ many cls

end Pattern

end VideoEdit
