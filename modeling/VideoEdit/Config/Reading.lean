import VideoEdit.Config.ReadError
import VideoEdit.Config.Settings
import VideoEdit.Yaml.Document
/-!
Reading settings from a YAML document. A setting that is not written keeps its default; a key that
is no setting, a key that is written twice and a value of the wrong type are refused, in the order
of the text, up to where it breaks off.
-/
namespace VideoEdit

namespace Config

open Yaml (Node Anchors Value)

abbrev Reading (α : Type) := Except ReadError α

/-- What a node is, in a message, or what its tag asks for in vain. -/
def foundAt : Node → Except (String × String) String
  | .scalar p style text =>
    match Value.ofScalar p.tag style text with
    | .ok value => .ok value.description
    | .error expected => .error ((Value.text text).description, expected)
  | .sequence .. => .ok "sequence"
  | .mapping .. => .ok "map"
  | .reference .. => .ok "alias"
  | .missing _ => .ok "nothing"

def mismatch (expected : String) (node : Node) : Complaint :=
  match foundAt node with
  | .ok found => .wrongType found expected
  | .error (found, expected) => .wrongValue found expected

/-- Refuses a node. One that is missing is refused because the document breaks off there. -/
def refuse {α : Type} (node : Node) (path : List String) (complaint : Complaint) : Reading α :=
  match node with
  | .missing fault => .error (.ofFault fault)
  | _ => .error ⟨⟨node.mark, path⟩, complaint⟩

/-- A type of whole numbers: its name and the first number too large for it. -/
structure Width where
  name : String
  beyond : Nat

def Width.places : Width := ⟨"usize", Nat.pow 2 64⟩

def Width.size : Width := ⟨"u32", Nat.pow 2 32⟩

/-- The whole number that a scalar gives where one is expected: of plain style whatever the tag, or
a literal that is tagged as an integer. Numbers of more than 64 bits are none. -/
def unsigned? : Node → Option Nat
  | .scalar p style text =>
    if style = .plain ∨ (style = .literal ∧ p.tag = some (Value.coreTag "int")) then
      (Yaml.Number.unsigned? text).filter (· < Nat.pow 2 64)
    else none
  | _ => none

def readNat (width : Width) (path : List String) (node : Node) : Reading Nat :=
  match unsigned? node with
  | some n =>
    if n < width.beyond then .ok n
    else refuse node path (.wrongValue (Value.int n).description width.name)
  | none => refuse node path (mismatch width.name node)

/-- Reads a string: any scalar is one. -/
def readText (expected : String) (path : List String) : Node → Reading String
  | .scalar _ _ text => .ok (String.ofList text)
  | node => refuse node path (mismatch expected node)

def policyNamed (name : String) : Except Complaint DuplicatePolicy :=
  match [DuplicatePolicy.first, .last].find? fun policy => policy.name = name with
  | some policy => .ok policy
  | none => .error (.unknownVariant name [DuplicatePolicy.first.name, DuplicatePolicy.last.name])

/-- The name that a local tag gives: what follows its exclamation mark, or the mark if it stands
alone. -/
def variantTag? : Node → Option String
  | .scalar p .. | .sequence p _ | .mapping p _ =>
    match p.tag with
    | some ['!'] => some "!"
    | some ('!' :: name) => some (String.ofList name)
    | _ => none
  | .reference .. | .missing _ => none

/-- Reads nothing: a plain scalar that is empty or a word for null. -/
def readUnit (path : List String) (node : Node) : Reading Unit :=
  match node with
  | .scalar _ style text =>
    if style = .plain && (text = [] || Value.isNull text) then .ok ()
    else refuse node path (.wrongValue (Value.text text).description "null")
  | _ => refuse node path (mismatch "unit" node)

/-- Reads a policy, by the text of a scalar or by a local tag on nothing. A tag that names no policy
is an error of the place `outer`. -/
def readPolicy (outer : Place) (path : List String) (node : Node) : Reading DuplicatePolicy :=
  match variantTag? node with
  | some name =>
    match policyNamed name with
    | .error complaint => .error ⟨outer, complaint⟩
    | .ok policy => (readUnit path node).map fun () => policy
  | none =>
    match node with
    | .scalar _ _ text =>
      match policyNamed (String.ofList text) with
      | .error complaint => refuse node path complaint
      | .ok policy => .ok policy
    | _ => refuse node path (mismatch "a YAML tag starting with '!'" node)

/-- A setting: its key, and how the node behind the key changes the settings. It is given the place
of the mapping, the keys that lead to the node, and the node itself. -/
structure Field (α : Type) where
  key : String
  read : Place → List String → Node → α → Reading α

/-- A field whose node is read by itself, behind its alias if it is one. -/
def Field.of {α β : Type} (anchors : Anchors) (key : String)
    (read : List String → Node → Reading β) (set : β → α → α) : Field α where
  key := key
  read _ path node settings := (read path (node.resolve anchors)).map (set · settings)

def pathPart : Node → String
  | .scalar _ _ text => String.ofList text
  | _ => "?"

/-- Reads the pairs of a mapping; `seen` are the keys so far. -/
def readPairs {α : Type} (anchors : Anchors) (fields : List (Field α)) (here : Place) :
    List String → List (Node × Node) → α → Reading α
  | _, [], settings => .ok settings
  | seen, (keyNode, value) :: rest, settings => do
    let key ← readText "field identifier" here.path (keyNode.resolve anchors)
    match fields.find? fun field => field.key = key with
    | none =>
      refuse (keyNode.resolve anchors) here.path (.unknownField key (fields.map Field.key))
    | some field =>
      if key ∈ seen then .error ⟨here, .duplicateField key⟩
      else
        let settings ← field.read here (here.path ++ [pathPart keyNode]) value settings
        readPairs anchors fields here (key :: seen) rest settings

/-- Reads a group of settings; nothing at all is an empty group. -/
def readGroup {α : Type} (anchors : Anchors) (name : String) (fields : List (Field α))
    (settings : α) (path : List String) (node : Node) : Reading α :=
  match node with
  | .mapping p pairs => readPairs anchors fields ⟨p.mark, path⟩ [] pairs settings
  | .scalar _ .plain [] => .ok settings
  | _ => refuse node path (mismatch ("struct " ++ name) node)

def mp4Fields (anchors : Anchors) : List (Field Mp4Settings) :=
  [.of anchors "video_codec" (readText "a string") fun v s => { s with videoCodec := v },
    .of anchors "audio_codec" (readText "a string") fun v s => { s with audioCodec := v },
    .of anchors "preset" (readText "a string") fun v s => { s with preset := v },
    .of anchors "pixel_format" (readText "a string") fun v s => { s with pixelFormat := v }]

def gifFields (anchors : Anchors) : List (Field GifSettings) :=
  [.of anchors "fps" (readNat .size) fun v s => { s with fps := v }]

def portraitFields (anchors : Anchors) : List (Field PortraitSettings) :=
  [.of anchors "width" (readNat .size) fun v s => { s with width := v },
    .of anchors "height" (readNat .size) fun v s => { s with height := v }]

/-- The field for the policy. The place of a tag that names none is that of the alias if the node is
one, and that of the mapping otherwise. -/
def policyField (anchors : Anchors) : Field Settings where
  key := "duplicates"
  read here path node settings :=
    let outer := match node with
      | .reference mark _ => ⟨mark, path⟩
      | _ => here
    (readPolicy outer path (node.resolve anchors)).map fun v => { settings with duplicates := v }

def fields (anchors : Anchors) : List (Field Settings) :=
  [policyField anchors,
    .of anchors "time_precision" (readNat .places) fun v s => { s with timePrecision := v },
    .of anchors "mp4" (readGroup anchors "Mp4Profile" (mp4Fields anchors) {}) fun v s =>
      { s with mp4 := v },
    .of anchors "gif" (readGroup anchors "GifProfile" (gifFields anchors) {}) fun v s =>
      { s with gif := v },
    .of anchors "portrait" (readGroup anchors "PortraitTarget" (portraitFields anchors) {})
      fun v s => { s with portrait := v }]

/-- Reads all settings from the root of a document. -/
def readRoot (root : Node) : Reading Settings :=
  readGroup root.anchors "CompilerConfig" (fields root.anchors) {} [] root

end Config

/-- Why a text gives no settings that can be used. -/
inductive ConfigError
  | unreadable (error : Config.ReadError)
  | severalDocuments
  | unusable (error : SettingsError)

def ConfigError.message : ConfigError → String
  | unreadable error => error.message
  | severalDocuments =>
    "failed to parse yaml at unknown location: deserializing from YAML containing more than one " ++
      "document is not supported"
  | unusable error => error.message

/-- The settings of a document; one without a root has the defaults. It is read as far as it goes
before it is refused for breaking off or for not being the only one. -/
def Settings.ofDocument (document : Yaml.Document) : Except ConfigError Settings :=
  match document.root with
  | none => .ok {}
  | some root => do
    let settings ← (Config.readRoot root).mapError .unreadable
    if let some fault := document.fault then throw (.unreadable (.ofFault fault))
    if !document.isLast then throw .severalDocuments
    settings.check.mapError .unusable
    return settings

/-- The settings that a text gives; a blank one gives the defaults. -/
def Settings.ofText (text : String) : Except ConfigError Settings :=
  if isAllBlank text then .ok {} else Settings.ofDocument (Yaml.document text)

end VideoEdit
