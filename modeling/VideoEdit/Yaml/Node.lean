import VideoEdit.Yaml.Token
/-!
The nodes of a YAML document. An anchored node has a number, and an alias stands for the node with
its number; if several nodes have that number, for the last of them in the text. Of a document that
breaks off there are the nodes in front of that place, and a missing one there.
-/
namespace VideoEdit

namespace Yaml

/-- Where a node starts, its tag if it has one, and the number of its anchor if it has one. -/
structure Properties where
  mark : Mark
  tag : Option (List Char)
  anchor : Option Nat

/-- Why a document breaks off: its text is no YAML, or an alias stands before its anchor. -/
inductive FaultKind
  | malformed
  | unknownAnchor
  deriving DecidableEq

/-- The place where a document breaks off, and why. -/
structure Fault where
  kind : FaultKind
  mark : Mark
  deriving DecidableEq

inductive Node
  | scalar (properties : Properties) (style : ScalarStyle) (text : List Char)
  | sequence (properties : Properties) (items : List Node)
  | mapping (properties : Properties) (pairs : List (Node × Node))
  | reference (mark : Mark) (number : Nat)
  | missing (fault : Fault)

/-- The first document of a text, where it breaks off if it does, and whether it is the last one. A
text without documents counts as one without a root. -/
structure Document where
  root : Option Node
  fault : Option Fault
  isLast : Bool

/-- Whether a text is well-formed and has no more than one document. -/
def Document.isWhole (d : Document) : Bool := d.fault.isNone && d.isLast

/-- Anchored nodes with their numbers. -/
abbrev Anchors := List (Nat × Node)

namespace Properties

/-- The entry of a node with these properties among the anchored ones. -/
def entry (p : Properties) (node : Node) : Anchors :=
  match p.anchor with
  | some number => [(number, node)]
  | none => []

end Properties

namespace Node

def mark : Node → Mark
  | scalar p _ _ | sequence p _ | mapping p _ => p.mark
  | reference mark _ => mark
  | missing fault => fault.mark

mutual

/-- The anchored nodes among a node and the nodes inside it, the last in the text first. -/
def anchors : Node → Anchors
  | n@(scalar p _ _) => p.entry n
  | n@(sequence p items) => itemAnchors items ++ p.entry n
  | n@(mapping p pairs) => pairAnchors pairs ++ p.entry n
  | reference _ _ | missing _ => []

def itemAnchors : List Node → Anchors
  | [] => []
  | n :: rest => itemAnchors rest ++ n.anchors

def pairAnchors : List (Node × Node) → Anchors
  | [] => []
  | (k, v) :: rest => pairAnchors rest ++ v.anchors ++ k.anchors

end

/-- The node itself, or the one that it is an alias for. -/
def resolve (anchors : Anchors) : Node → Node
  | n@(reference _ number) => (anchors.lookup number).getD n
  | n => n

end Node

end Yaml

end VideoEdit
