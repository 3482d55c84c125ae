import VideoEdit.Yaml.Document
/-!
# Trees in flow style

A tree of words, strings and mappings has a text in which each mapping stands between braces, a word
stands for itself, and a string stands between double quotes with an escape for each character that
cannot stand there for itself. Beside the text are the tokens that it is to be scanned as and the
nodes that it is to be read as.
-/
namespace VideoEdit.Yaml

def isWordChar (c : Char) : Bool :=
  ('a' ≤ c && c ≤ 'z') || ('A' ≤ c && c ≤ 'Z') || ('0' ≤ c && c ≤ '9') || c == '_'

/-- A text that is a plain scalar wherever it stands. -/
structure Word where
  text : List Char
  nonempty : text ≠ []
  isWord : ∀ c ∈ text, isWordChar c

/-- A word that is short enough for a key. -/
structure Key extends Word where
  short : text.length ≤ 1024

/-- Words, strings, and mappings from words to further ones. -/
inductive Tree
  | word (word : Word)
  | string (text : List Char)
  | mapping (pairs : List (Key × Tree))

def hexDigits : Nat → Nat → List Char
  | 0, _ => []
  | width + 1, n => hexDigits width (n / 16) ++ [Nat.digitChar (n % 16)]

/-- A character that stands for itself between double quotes. -/
def isGraphic (c : Char) : Bool := '!' ≤ c && c ≤ '~' && c != '"' && c != '\\'

def quotedChar (c : Char) : List Char :=
  if isGraphic c then [c] else '\\' :: 'U' :: hexDigits 8 c.toNat

/-- A string from behind its opening quote to its closing one. -/
def quotedTail (text : List Char) : List Char := text.flatMap quotedChar ++ ['"']

namespace Tree

mutual

def text : Tree → List Char
  | word w => w.text
  | string t => '"' :: quotedTail t
  | mapping pairs => '\x7b' :: pairsText true pairs

/-- The text of the pairs of a mapping and its end; a comma stands in front of all pairs but the
first. -/
def pairsText : Bool → List (Key × Tree) → List Char
  | _, [] => ['\x7d']
  | first, (key, value) :: rest =>
    (if first then [] else [',', ' ']) ++ key.text ++ ':' :: ' ' :: value.text ++
      pairsText false rest

end

mutual

def kinds : Tree → List TokenKind
  | word w => [.scalar .plain w.text]
  | string t => [.scalar .doubleQuoted t]
  | mapping pairs => .flowMappingStart :: pairsKinds true pairs

/-- The tokens of the pairs of a mapping and its end. -/
def pairsKinds : Bool → List (Key × Tree) → List TokenKind
  | _, [] => [.flowMappingEnd]
  | first, (key, value) :: rest =>
    (if first then [] else [.flowEntry]) ++ .key :: .scalar .plain key.text :: .value ::
      value.kinds ++ pairsKinds false rest

end

mutual

/-- The nodes of a tree: where they stand does not matter. -/
def IsNode : Tree → Node → Prop
  | word w, node => ∃ mark, node = .scalar ⟨mark, none, none⟩ .plain w.text
  | string t, node => ∃ mark, node = .scalar ⟨mark, none, none⟩ .doubleQuoted t
  | mapping pairs, node => ∃ mark nodes, node = .mapping ⟨mark, none, none⟩ nodes ∧
      ArePairs pairs nodes

/-- The pairs of nodes of the pairs of a mapping. -/
def ArePairs : List (Key × Tree) → List (Node × Node) → Prop
  | [], nodes => nodes = []
  | (key, value) :: rest, nodes => ∃ mark node more,
      nodes = (.scalar ⟨mark, none, none⟩ .plain key.text, node) :: more ∧ value.IsNode node ∧
        ArePairs rest more

end

end Tree

section Allowed
variable {c : Char}

private theorem isAllowed_of_bounds (hlow : 32 ≤ c.toNat) (hhigh : c.toNat ≤ 126) :
    isAllowed c := by
  have h : ' ' ≤ c ∧ c ≤ '~' := by
    simpa [Char.le_def, UInt32.le_iff_toNat_le] using And.intro hlow hhigh
  simp [isAllowed, h]

private theorem isAllowed_of_isWordChar (h : isWordChar c) : isAllowed c := by
  have h : ((97 ≤ c.toNat ∧ c.toNat ≤ 122 ∨ 65 ≤ c.toNat ∧ c.toNat ≤ 90) ∨
      48 ≤ c.toNat ∧ c.toNat ≤ 57) ∨ c = '_' := by
    simpa [isWordChar, Char.le_def, UInt32.le_iff_toNat_le] using h
  obtain h | rfl := h
  · exact isAllowed_of_bounds (by omega) (by omega)
  · decide

private theorem isAllowed_of_isGraphic (h : isGraphic c) : isAllowed c := by
  have h : ((33 ≤ c.toNat ∧ c.toNat ≤ 126) ∧ c ≠ '"') ∧ c ≠ '\\' := by
    simpa [isGraphic, Char.le_def, UInt32.le_iff_toNat_le] using h
  exact isAllowed_of_bounds (by omega) (by omega)

private theorem isWordChar_of_mem_hexDigits {width n : Nat} (h : c ∈ hexDigits width n) :
    isWordChar c := by
  induction width generalizing n with
  | zero => cases h
  | succ width ih =>
    have hdigit : ∀ d < 16, isWordChar (Nat.digitChar d) := by decide
    rcases List.mem_append.1 h with h | h
    · exact ih h
    · rw [List.mem_singleton.1 h]
      exact hdigit _ (Nat.mod_lt n (by decide))

private theorem isAllowed_of_mem_quotedTail {text : List Char} (h : c ∈ quotedTail text) :
    isAllowed c := by
  rcases List.mem_append.1 h with h | h
  · obtain ⟨x, -, hx⟩ := List.mem_flatMap.1 h
    unfold quotedChar at hx
    split at hx
    · next hgraphic => exact isAllowed_of_isGraphic (List.mem_singleton.1 hx ▸ hgraphic)
    · rcases List.mem_cons.1 hx with rfl | hx
      · decide
      · rcases List.mem_cons.1 hx with rfl | hx
        · decide
        · exact isAllowed_of_isWordChar (isWordChar_of_mem_hexDigits hx)
  · rw [List.mem_singleton.1 h]
    decide

end Allowed

mutual

theorem Tree.isAllowed_of_mem_text : ∀ (t : Tree) {c : Char}, c ∈ t.text → isAllowed c
  | .word w, c, h => by
    rw [Tree.text] at h
    exact isAllowed_of_isWordChar (w.isWord c h)
  | .string text, c, h => by
    rw [Tree.text] at h
    rcases List.mem_cons.1 h with rfl | h
    · decide
    · exact isAllowed_of_mem_quotedTail h
  | .mapping pairs, c, h => by
    rw [Tree.text] at h
    rcases List.mem_cons.1 h with rfl | h
    · decide
    · exact isAllowed_of_mem_pairsText true pairs h

private theorem Tree.isAllowed_of_mem_pairsText : ∀ (first : Bool) (pairs : List (Key × Tree))
    {c : Char},
    c ∈ Tree.pairsText first pairs → isAllowed c
  | first, [], c, h => by
    rw [Tree.pairsText] at h
    rw [List.mem_singleton.1 h]
    decide
  | first, (key, value) :: pairs, c, h => by
    rw [Tree.pairsText] at h
    have hcomma (h : c ∈ if first then [] else [',', ' ']) : isAllowed c := by
      cases first with
      | true => cases h
      | false =>
        have hallowed : [',', ' '].all isAllowed := by decide
        exact List.all_eq_true.1 hallowed c h
    simp only [List.mem_append, List.mem_cons] at h
    obtain (((h | h) | rfl | rfl | h) | h) := h
    · exact hcomma h
    · exact isAllowed_of_isWordChar (key.isWord c h)
    · decide
    · decide
    · exact isAllowed_of_mem_text value h
    · exact isAllowed_of_mem_pairsText false pairs h

end

end VideoEdit.Yaml
