import VideoEdit.Yaml.Node
import VideoEdit.Yaml.Scanner
/-!
From tokens to a document. A node that is left out where one may stand is an empty plain scalar at
the place where it would have stood. Where the text breaks off, all that is still to read is
missing.
-/
namespace VideoEdit

namespace Yaml

/-- What is left to read, the names of the anchors so far with their numbers, the latest first, the
tag handles in force, and the place where the document has broken off, if it has. -/
structure Reader where
  tokens : List Token
  anchors : List (List Char × Nat)
  handles : List (List Char × List Char)
  fault : Option Fault

namespace Reader

def kind (r : Reader) : TokenKind :=
  match r.tokens with
  | t :: _ => t.kind
  | [] => .unreadable

def start (r : Reader) : Mark :=
  match r.tokens with
  | t :: _ => t.start
  | [] => ⟨0, 0, 0⟩

def stop (r : Reader) : Mark :=
  match r.tokens with
  | t :: _ => t.stop
  | [] => ⟨0, 0, 0⟩

def skip (r : Reader) : Reader := { r with tokens := r.tokens.drop 1 }

def emptyNode (mark : Mark) : Node := .scalar ⟨mark, none, none⟩ .plain []

/-- Breaks off at the next token, unless the document has broken off before. Nothing is left to
read. -/
def halt (r : Reader) (kind : FaultKind) : Node × Reader :=
  let fault := r.fault.getD ⟨kind, r.start⟩
  (.missing fault, { r with tokens := [], fault := some fault })

def haltItems (r : Reader) : List Node × Reader :=
  let (item, r) := r.halt .malformed
  ([item], r)

def haltPairs (r : Reader) : List (Node × Node) × Reader :=
  let (key, r) := r.halt .malformed
  ([(key, key)], r)

/-- A node that is left out in front of the next token. -/
def omitted (r : Reader) : Node × Reader :=
  match r.kind with
  | .unreadable => r.halt .malformed
  | _ => (emptyNode r.start, r)

def resolveTag? (r : Reader) (handle suffix : List Char) : Option (List Char) :=
  if handle = [] then some suffix else (r.handles.lookup handle).map (· ++ suffix)

/-- The number of the next anchor is how many names are in use. -/
def nextNumber (r : Reader) : Nat := (r.anchors.map Prod.fst).eraseDups.length

def anchored (r : Reader) (name : List Char) : Reader :=
  { r.skip with anchors := (name, r.nextNumber) :: r.anchors }

/-- Reads the anchor and the tag of a node, in either order. -/
def properties? (r : Reader) : Option (Properties × Reader) :=
  let mark := r.start
  match r.kind with
  | .anchor name =>
    let number := r.nextNumber
    let r := r.anchored name
    match r.kind with
    | .tag h t => (r.resolveTag? h t).map fun tag => (⟨mark, some tag, some number⟩, r.skip)
    | _ => some (⟨mark, none, some number⟩, r)
  | .tag h t =>
    (r.resolveTag? h t).map fun tag =>
      let r := r.skip
      match r.kind with
      | .anchor name => (⟨mark, some tag, some r.nextNumber⟩, r.anchored name)
      | _ => (⟨mark, some tag, none⟩, r)
  | _ => some (⟨mark, none, none⟩, r)

/-- An alias has the number of the latest anchor with its name. -/
def reference (r : Reader) (name : List Char) : Node × Reader :=
  match r.anchors.lookup name with
  | some number => (.reference r.start number, r.skip)
  | none => r.halt .unknownAnchor

/-- A node of which only an anchor or a tag is written. -/
def emptyContent (p : Properties) (r : Reader) : Node × Reader :=
  match r.kind with
  | .unreadable => r.halt .malformed
  | _ => if p.anchor.isSome || p.tag.isSome then (.scalar p .plain [], r) else r.halt .malformed

/-- Moves over the comma in front of an item or a pair that is not the first. -/
def comma? (r : Reader) (first : Bool) : Option Reader :=
  if first then some r
  else match r.kind with
    | .flowEntry => some r.skip
    | _ => none

mutual

/-- Reads a node. Outside flow collections it may be a block collection, and after the key of a
mapping a sequence whose dashes are not indented. -/
def node : Nat → Bool → Bool → Reader → Node × Reader
  | 0, _, _, r => r.halt .malformed
  | fuel + 1, block, dashes, r =>
    match r.kind with
    | .reference name => r.reference name
    | _ =>
      match r.properties? with
      | none => r.halt .malformed
      | some (p, r) =>
        match r.kind with
        | .blockEntry =>
          if !dashes then emptyContent p r
          else
            let (items, r) := dashItems fuel r
            (.sequence p items, r)
        | .scalar style text => (.scalar p style text, r.skip)
        | .flowSequenceStart =>
          let (items, r) := flowItems fuel true r.skip
          (.sequence p items, r)
        | .flowMappingStart =>
          let (pairs, r) := flowPairs fuel true r.skip
          (.mapping p pairs, r)
        | .blockSequenceStart =>
          if !block then emptyContent p r
          else
            let (items, r) := blockItems fuel r.skip
            (.sequence p items, r)
        | .blockMappingStart =>
          if !block then emptyContent p r
          else
            let (pairs, r) := blockPairs fuel r.skip
            (.mapping p pairs, r)
        | _ => emptyContent p r

def blockItems : Nat → Reader → List Node × Reader
  | 0, r => r.haltItems
  | fuel + 1, r =>
    match r.kind with
    | .blockEnd => ([], r.skip)
    | .blockEntry =>
      let mark := r.stop
      let r := r.skip
      let (item, r) := match r.kind with
        | .blockEntry | .blockEnd => (emptyNode mark, r)
        | _ => node fuel true false r
      let (items, r) := blockItems fuel r
      (item :: items, r)
    | _ => r.haltItems

/-- Reads the items of a sequence whose dashes stand in the column of the mapping around it. -/
def dashItems : Nat → Reader → List Node × Reader
  | 0, r => r.haltItems
  | fuel + 1, r =>
    match r.kind with
    | .blockEntry =>
      let mark := r.stop
      let r := r.skip
      let (item, r) := match r.kind with
        | .blockEntry | .key | .value | .blockEnd => (emptyNode mark, r)
        | _ => node fuel true false r
      let (items, r) := dashItems fuel r
      (item :: items, r)
    | .unreadable => r.haltItems
    | _ => ([], r)

def blockPairs : Nat → Reader → List (Node × Node) × Reader
  | 0, r => r.haltPairs
  | fuel + 1, r =>
    match r.kind with
    | .blockEnd => ([], r.skip)
    | .key =>
      let mark := r.stop
      let r := r.skip
      let (key, r) := match r.kind with
        | .key | .value | .blockEnd => (emptyNode mark, r)
        | _ => node fuel true true r
      let (value, r) := blockValue fuel r
      let (pairs, r) := blockPairs fuel r
      ((key, value) :: pairs, r)
    | _ => r.haltPairs

def blockValue : Nat → Reader → Node × Reader
  | 0, r => r.halt .malformed
  | fuel + 1, r =>
    match r.kind with
    | .value =>
      let mark := r.stop
      let r := r.skip
      match r.kind with
      | .key | .value | .blockEnd => (emptyNode mark, r)
      | _ => node fuel true true r
    | _ => r.omitted

/-- Reads the items of a flow sequence and its end. An item with a key is a mapping of one pair. -/
def flowItems : Nat → Bool → Reader → List Node × Reader
  | 0, _, r => r.haltItems
  | fuel + 1, first, r =>
    match r.kind with
    | .flowSequenceEnd => ([], r.skip)
    | _ =>
      match r.comma? first with
      | none => r.haltItems
      | some r =>
        match r.kind with
        | .flowSequenceEnd => ([], r.skip)
        | .key =>
          let mark := r.start
          let (pair, r) := singlePair fuel r.skip
          let (items, r) := flowItems fuel false r
          (.mapping ⟨mark, none, none⟩ [pair] :: items, r)
        | _ =>
          let (item, r) := node fuel false false r
          let (items, r) := flowItems fuel false r
          (item :: items, r)

/-- Reads the pair that is one item of a flow sequence. A key that is left out takes the next token
with it. -/
def singlePair : Nat → Reader → (Node × Node) × Reader
  | 0, r =>
    let (key, r) := r.halt .malformed
    ((key, key), r)
  | fuel + 1, r =>
    let (key, r) := match r.kind with
      | .value | .flowEntry | .flowSequenceEnd => (emptyNode r.stop, r.skip)
      | _ => node fuel false false r
    let (value, r) := flowValue fuel .flowSequenceEnd r
    ((key, value), r)

/-- Reads the pairs of a flow mapping and its end. A node without a key sign is a key whose value
is left out. -/
def flowPairs : Nat → Bool → Reader → List (Node × Node) × Reader
  | 0, _, r => r.haltPairs
  | fuel + 1, first, r =>
    match r.kind with
    | .flowMappingEnd => ([], r.skip)
    | _ =>
      match r.comma? first with
      | none => r.haltPairs
      | some r =>
        match r.kind with
        | .flowMappingEnd => ([], r.skip)
        | .key =>
          let r := r.skip
          let (key, r) := match r.kind with
            | .value | .flowEntry | .flowMappingEnd => (emptyNode r.start, r)
            | _ => node fuel false false r
          let (value, r) := flowValue fuel .flowMappingEnd r
          let (pairs, r) := flowPairs fuel false r
          ((key, value) :: pairs, r)
        | _ =>
          let (key, r) := node fuel false false r
          let (value, r) := r.omitted
          let (pairs, r) := flowPairs fuel false r
          ((key, value) :: pairs, r)

/-- Reads the value of a pair in a flow collection that a token of the kind `close` ends. -/
def flowValue : Nat → TokenKind → Reader → Node × Reader
  | 0, _, r => r.halt .malformed
  | fuel + 1, close, r =>
    match r.kind with
    | .value =>
      let r := r.skip
      if r.kind = .flowEntry ∨ r.kind = close then (emptyNode r.start, r)
      else node fuel false false r
    | _ => r.omitted

end

/-- The handles that hold in every document. -/
def standardHandles : List (List Char × List Char) :=
  [("!".toList, "!".toList), ("!!".toList, "tag:yaml.org,2002:".toList)]

/-- Reads directives: one version, which must be 1.1 or 1.2, and handles, none of them twice. -/
def directives? : Bool → List (List Char × List Char) → List Token →
    Option (List (List Char × List Char) × List Token)
  | versioned, handles, t :: rest =>
    match t.kind with
    | .version major minor =>
      if versioned || major ≠ 1 || (minor ≠ 1 && minor ≠ 2) then none
      else directives? true handles rest
    | .tagPrefix handle expansion =>
      if (handles.lookup handle).isSome then none
      else directives? versioned ((handle, expansion) :: handles) rest
    | _ => some (handles ++ standardHandles, t :: rest)
  | _, handles, [] => some (handles ++ standardHandles, [])

def content (r : Reader) : Node × Reader :=
  match r.kind with
  | .version .. | .tagPrefix .. | .documentStart | .documentEnd | .streamEnd =>
    (emptyNode r.start, r)
  | _ => node (4 * r.tokens.length + 4) true false r

/-- Reads the root of the first document of a text, which needs no start marker. -/
def root (tokens : List Token) : Node × Reader :=
  match directives? false [] tokens with
  | none => halt ⟨tokens, [], [], none⟩ .malformed
  | some (handles, rest) =>
    let r : Reader := ⟨rest, [], handles, none⟩
    match r.kind with
    | .documentStart => content r.skip
    | _ =>
      if rest.length < tokens.length then r.halt .malformed
      else node (4 * rest.length + 4) true false r

end Reader

/-- The first document of a text. It ends in front of the next token, which has to be readable; only
end markers may stand between the last document and the end of the text. -/
def document (text : String) : Document :=
  let tokens := tokens text.toList
  match tokens.head?.map Token.kind with
  | some .streamEnd => ⟨none, none, true⟩
  | _ =>
    let (root, r) := Reader.root tokens
    match r.kind with
    | .unreadable => ⟨some root, (r.halt .malformed).2.fault, true⟩
    | _ =>
      let next := (r.tokens.dropWhile fun t => t.kind = .documentEnd).head?
      ⟨some root, none, next.map Token.kind = some .streamEnd⟩

end Yaml

end VideoEdit
