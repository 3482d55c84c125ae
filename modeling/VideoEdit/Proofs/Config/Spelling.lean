import VideoEdit.Proofs.Config.Overrides
import VideoEdit.Proofs.Yaml.FlowRead
/-!
# Writing settings

Any settings can be written as a tree in flow style, with the keys in any order: names as words,
numbers by their digits and strings in double quotes. What is read from the text of the tree writes
these settings.
-/
namespace VideoEdit

namespace Yaml

def Word.ofNat (n : Nat) : Word where
  text := Nat.toDigits 10 n
  nonempty := Nat.toDigits_ne_nil
  isWord c hc := by
    have hbounds := Numeral.digit_bounds (Nat.isDigit_of_mem_toDigits (by decide) (by decide) hc)
    simp [isWordChar, Char.le_def, UInt32.le_iff_toNat_le, hbounds]

private theorem unsigned?_toDigits (n : Nat) : Number.unsigned? (Nat.toDigits 10 n) = some n := by
  have hnot (c : Char) (hc : c.isDigit = false) : c ∉ Nat.toDigits 10 n := not_mem_toDigits hc n
  have hread : Number.inBase? 10 (Nat.toDigits 10 n) = some n := by
    rw [Number.inBase?, if_neg Nat.toDigits_ne_nil, Numeral.natInBase?_ten fun c hc =>
      Nat.isDigit_of_mem_toDigits (by decide) (by decide) hc]
    exact congrArg some Nat.ofDigitChars_ten_toDigits
  have hlead : Number.hasLeadingZero (Nat.toDigits 10 n) = false := by
    obtain h | h := Numeral.head?_toDigits n
    · rw [h]
      rfl
    · unfold Number.hasLeadingZero
      split
      · next heq => simp [heq] at h
      · rfl
  have hnatural : Number.natural? (Nat.toDigits 10 n) = some n := by
    unfold Number.natural?
    split
    · next heq => exact absurd (heq ▸ by simp) (hnot 'x' (by decide))
    · next heq => exact absurd (heq ▸ by simp) (hnot 'o' (by decide))
    · next heq => exact absurd (heq ▸ by simp) (hnot 'b' (by decide))
    · rw [hlead, if_neg Bool.false_ne_true, hread]
  unfold Number.unsigned?
  split
  · next heq => exact absurd (heq ▸ by simp) (hnot '+' (by decide))
  · exact hnatural

def Key.name (key : Key) : String := String.ofList key.text

theorem Tree.IsNode.resolve {tree : Tree} {node : Node} (h : tree.IsNode node)
    (anchors : Anchors) : node.resolve anchors = node := by
  cases tree <;> rw [Tree.IsNode] at h
  · obtain ⟨mark, rfl⟩ := h
    rfl
  · obtain ⟨mark, rfl⟩ := h
    rfl
  · obtain ⟨mark, nodes, rfl, -⟩ := h
    rfl

end Yaml

namespace Config
open Yaml (Node Anchors Tree Key Word)

section Given
variable {anchors : Anchors} {settings : List (Key × Option Tree)} {pairs : List (Key × Tree)}
  {nodes : List (Node × Node)}

def given (settings : List (Key × Option Tree)) : List (Key × Tree) :=
  settings.filterMap fun setting => setting.2.map fun tree => (setting.1, tree)

private theorem mem_given {pair : Key × Tree} :
    pair ∈ given settings ↔ (pair.1, some pair.2) ∈ settings := by
  simp only [given, List.mem_filterMap, Option.map_eq_some_iff]
  constructor
  · rintro ⟨⟨key, _⟩, hmem, tree, rfl, rfl⟩
    exact hmem
  · exact fun h => ⟨_, h, pair.2, rfl, rfl⟩

private theorem names_given_sublist (settings : List (Key × Option Tree)) :
    (given settings).map (·.1.name) |>.Sublist (settings.map (·.1.name)) := by
  induction settings with
  | nil => exact .slnil
  | cons setting settings ih =>
    obtain ⟨key, _ | tree⟩ := setting
    · exact .cons _ ih
    · exact .cons_cons _ ih

private theorem map_keyText?_of_arePairs (h : Tree.ArePairs pairs nodes) (anchors : Anchors) :
    nodes.map (fun node => keyText? anchors node.1) = pairs.map fun pair => some pair.1.name := by
  induction pairs generalizing nodes with
  | nil =>
    rw [Tree.ArePairs] at h
    rw [h]
    rfl
  | cons pair pairs ih =>
    rw [Tree.ArePairs] at h
    obtain ⟨mark, node, more, rfl, -, hmore⟩ := h
    rw [List.map_cons, List.map_cons, ih hmore]
    rfl

private theorem exists_node_of_mem (h : Tree.ArePairs pairs nodes) (anchors : Anchors)
    {pair : Key × Tree} (hpair : pair ∈ pairs) :
    ∃ node ∈ nodes, keyText? anchors node.1 = some pair.1.name ∧ pair.2.IsNode node.2 := by
  induction pairs generalizing nodes with
  | nil => cases hpair
  | cons first pairs ih =>
    rw [Tree.ArePairs] at h
    obtain ⟨mark, node, more, rfl, hnode, hmore⟩ := h
    rcases List.mem_cons.1 hpair with rfl | hpair
    · exact ⟨_, List.mem_cons_self, rfl, hnode⟩
    · obtain ⟨other, hother, hsame⟩ := ih hmore hpair
      exact ⟨other, List.mem_cons_of_mem _ hother, hsame⟩

section Written
variable (hpairs : pairs.Perm (given settings)) (hnodes : Tree.ArePairs pairs nodes)
  (hnodup : (settings.map (·.1.name)).Nodup)
include hpairs hnodes hnodup

private theorem hasKeys_of_given : HasKeys anchors (settings.map (·.1.name)) nodes := by
  have hkeys := map_keyText?_of_arePairs hnodes anchors
  have hsublist := names_given_sublist settings
  refine ⟨fun node hnode => ?_, ?_⟩
  · have hmem := List.mem_map_of_mem (f := fun node => keyText? anchors node.1) hnode
    rw [hkeys] at hmem
    obtain ⟨pair, hpair, hsame⟩ := List.mem_map.1 hmem
    exact ⟨pair.1.name, hsublist.subset (List.mem_map_of_mem (hpairs.subset hpair)), hsame.symm⟩
  · rw [hkeys, ← Function.comp_def, ← List.map_map]
    refine List.Nodup.map (Option.some_injective _) ?_
    exact ((hpairs.map _).nodup_iff).2 (hnodup.sublist hsublist)

private theorem gives_of_given {β : Type} {writes : β → Node → Prop} {key : Key} {value? : Option β}
    {tree? : Option Tree} (hmem : (key, tree?) ∈ settings)
    (hwrites : Option.Rel (fun value tree => ∀ node, tree.IsNode node → writes value node)
      value? tree?) : Gives writes anchors nodes key.name value? := by
  cases hwrites with
  | none =>
    intro node hnode hkey
    have hsame : some key.name ∈ pairs.map fun pair => some pair.1.name := by
      rw [← map_keyText?_of_arePairs hnodes anchors, ← hkey]
      exact List.mem_map_of_mem hnode
    obtain ⟨other, hother, hname⟩ := List.mem_map.1 hsame
    have heq := List.inj_on_of_nodup_map hnodup (mem_given.1 (hpairs.subset hother)) hmem
      (Option.some_inj.1 hname)
    cases heq
  | @some value tree hwrites =>
    have hgiven : (key, tree) ∈ given settings := mem_given.2 hmem
    obtain ⟨node, hnode, hkey, htree⟩ :=
      exists_node_of_mem hnodes anchors (hpairs.symm.subset hgiven)
    refine ⟨node, hnode, hkey, ?_⟩
    rw [Tree.IsNode.resolve htree]
    exact hwrites node.2 htree

end Written
end Given

def isKeyName (name : String) : Bool :=
  name.toList ≠ [] && name.toList.all Yaml.isWordChar && decide (name.toList.length ≤ 1024)

def keyOf (name : String) (h : isKeyName name) : Key :=
  have h : (name.toList ≠ [] ∧ ∀ c ∈ name.toList, Yaml.isWordChar c) ∧
      name.toList.length ≤ 1024 := by
    simpa [isKeyName] using h
  ⟨⟨name.toList, h.1.1, h.1.2⟩, h.2⟩

def policyWord (policy : DuplicatePolicy) : Word where
  text := policy.name.toList
  nonempty := by cases policy <;> decide
  isWord := List.all_eq_true.1 (by cases policy <;> decide)

def Mp4Overrides.settings (o : Mp4Overrides) : List (Key × Option Tree) :=
  [(keyOf "video_codec" (by decide), o.videoCodec.map (.string ·.toList)),
    (keyOf "audio_codec" (by decide), o.audioCodec.map (.string ·.toList)),
    (keyOf "preset" (by decide), o.preset.map (.string ·.toList)),
    (keyOf "pixel_format" (by decide), o.pixelFormat.map (.string ·.toList))]

def GifOverrides.settings (o : GifOverrides) : List (Key × Option Tree) :=
  [(keyOf "fps" (by decide), o.fps.map (.word <| .ofNat ·))]

def PortraitOverrides.settings (o : PortraitOverrides) : List (Key × Option Tree) :=
  [(keyOf "width" (by decide), o.width.map (.word <| .ofNat ·)),
    (keyOf "height" (by decide), o.height.map (.word <| .ofNat ·))]

def Overrides.settings (o : Overrides) (mp4 gif portrait : Option Tree) :
    List (Key × Option Tree) :=
  [(keyOf "duplicates" (by decide), o.duplicates.map (.word <| policyWord ·)),
    (keyOf "time_precision" (by decide), o.timePrecision.map (.word <| .ofNat ·)),
    (keyOf "mp4" (by decide), mp4), (keyOf "gif" (by decide), gif),
    (keyOf "portrait" (by decide), portrait)]

/-- A tree spells settings: it is a mapping of those that are given, in any order. -/
def Spells (settings : List (Key × Option Tree)) (tree : Tree) : Prop :=
  ∃ pairs, tree = .mapping pairs ∧ pairs.Perm (given settings)

/-- A tree spells some of all settings, in any order, and its groups do. -/
def Overrides.IsSpelling (o : Overrides) (tree : Tree) : Prop :=
  ∃ mp4 gif portrait, Option.Rel (fun group => Spells group.settings) o.mp4 mp4 ∧
    Option.Rel (fun group => Spells group.settings) o.gif gif ∧
    Option.Rel (fun group => Spells group.settings) o.portrait portrait ∧
    Spells (o.settings mp4 gif portrait) tree

/-- Numbers that are not too large for their type. -/
structure Overrides.Fits (o : Overrides) : Prop where
  timePrecision : ∀ n ∈ o.timePrecision, n < Width.places.beyond
  fps : ∀ gif ∈ o.gif, ∀ n ∈ gif.fps, n < Width.size.beyond
  width : ∀ portrait ∈ o.portrait, ∀ n ∈ portrait.width, n < Width.size.beyond
  height : ∀ portrait ∈ o.portrait, ∀ n ∈ portrait.height, n < Width.size.beyond

section Nodes
variable {anchors : Anchors} {node : Node}

private theorem writesText_of_isNode {text : String} (h : (Tree.string text.toList).IsNode node) :
    WritesText text node := by
  rw [Tree.IsNode] at h
  obtain ⟨mark, rfl⟩ := h
  exact ⟨_, _, rfl⟩

private theorem writesNat_of_isNode {width : Width} {n : Nat} (hn : n < width.beyond)
    (h : (Tree.word (.ofNat n)).IsNode node) : WritesNat width n node := by
  rw [Tree.IsNode] at h
  obtain ⟨mark, rfl⟩ := h
  exact ⟨_, _, rfl, Yaml.unsigned?_toDigits n, hn⟩

private theorem writesPolicy_of_isNode {policy : DuplicatePolicy}
    (h : (Tree.word (policyWord policy)).IsNode node) : WritesPolicy policy node := by
  rw [Tree.IsNode] at h
  obtain ⟨mark, rfl⟩ := h
  exact ⟨_, _, rfl, rfl⟩

theorem rel_map {β : Type} {tree : β → Tree} {R : β → Tree → Prop} {value? : Option β}
    (h : ∀ value ∈ value?, R value (tree value)) : Option.Rel R value? (value?.map tree) := by
  cases value? with
  | none => exact .none
  | some value => exact .some (h value rfl)

private theorem Mp4Overrides.isWritten_of_isNode {o : Mp4Overrides} {tree : Tree}
    (h : Spells o.settings tree) (hnode : tree.IsNode node) : o.IsWritten anchors node := by
  obtain ⟨pairs, rfl, hpairs⟩ := h
  rw [Tree.IsNode] at hnode
  obtain ⟨mark, nodes, rfl, hnodes⟩ := hnode
  have hnodup : (o.settings.map (·.1.name)).Nodup := by
    change mp4Keys.Nodup
    decide
  have htext (value? : Option String) : Option.Rel
      (fun value tree => ∀ node, tree.IsNode node → WritesText value node) value?
      (value?.map (Tree.string ·.toList)) := rel_map fun _ _ _ => writesText_of_isNode
  refine ⟨_, nodes, rfl, hasKeys_of_given hpairs hnodes hnodup, ?_, ?_, ?_, ?_⟩
  · exact gives_of_given hpairs hnodes hnodup (.head _) (htext _)
  · exact gives_of_given hpairs hnodes hnodup (.tail _ (.head _)) (htext _)
  · exact gives_of_given hpairs hnodes hnodup (.tail _ (.tail _ (.head _))) (htext _)
  · exact gives_of_given hpairs hnodes hnodup (.tail _ (.tail _ (.tail _ (.head _)))) (htext _)

private theorem GifOverrides.isWritten_of_isNode {o : GifOverrides} {tree : Tree}
    (h : Spells o.settings tree) (hfps : ∀ n ∈ o.fps, n < Width.size.beyond)
    (hnode : tree.IsNode node) : o.IsWritten anchors node := by
  obtain ⟨pairs, rfl, hpairs⟩ := h
  rw [Tree.IsNode] at hnode
  obtain ⟨mark, nodes, rfl, hnodes⟩ := hnode
  have hnodup : (o.settings.map (·.1.name)).Nodup := List.nodup_singleton _
  refine ⟨_, nodes, rfl, hasKeys_of_given hpairs hnodes hnodup, ?_⟩
  exact gives_of_given hpairs hnodes hnodup (.head _)
    (rel_map fun n hn _ => writesNat_of_isNode (hfps n hn))

private theorem PortraitOverrides.isWritten_of_isNode {o : PortraitOverrides} {tree : Tree}
    (h : Spells o.settings tree) (hwidth : ∀ n ∈ o.width, n < Width.size.beyond)
    (hheight : ∀ n ∈ o.height, n < Width.size.beyond) (hnode : tree.IsNode node) :
    o.IsWritten anchors node := by
  obtain ⟨pairs, rfl, hpairs⟩ := h
  rw [Tree.IsNode] at hnode
  obtain ⟨mark, nodes, rfl, hnodes⟩ := hnode
  have hnodup : (o.settings.map (·.1.name)).Nodup := by
    change portraitKeys.Nodup
    decide
  refine ⟨_, nodes, rfl, hasKeys_of_given hpairs hnodes hnodup, ?_, ?_⟩
  · exact gives_of_given hpairs hnodes hnodup (.head _)
      (rel_map fun n hn _ => writesNat_of_isNode (hwidth n hn))
  · exact gives_of_given hpairs hnodes hnodup (.tail _ (.head _))
      (rel_map fun n hn _ => writesNat_of_isNode (hheight n hn))

private theorem rel_group {β : Type} {spells : β → Tree → Prop} {writes : β → Node → Prop}
    {group? : Option β} {tree? : Option Tree} (hrel : Option.Rel spells group? tree?)
    (h : ∀ group ∈ group?, ∀ tree node, spells group tree → tree.IsNode node → writes group node) :
    Option.Rel (fun group tree => ∀ node, tree.IsNode node → writes group node) group? tree? := by
  cases hrel with
  | none => exact .none
  | some hspells => exact .some fun node hnode => h _ rfl _ node hspells hnode

private theorem Overrides.isWritten_of_isNode {o : Overrides} {tree : Tree} (h : o.IsSpelling tree)
    (hfits : o.Fits) (hnode : tree.IsNode node) : o.IsWritten anchors node := by
  obtain ⟨mp4, gif, portrait, hmp4, hgif, hportrait, pairs, rfl, hpairs⟩ := h
  rw [Tree.IsNode] at hnode
  obtain ⟨mark, nodes, rfl, hnodes⟩ := hnode
  have hnodup : ((o.settings mp4 gif portrait).map (·.1.name)).Nodup := by
    change rootKeys.Nodup
    decide
  refine ⟨_, nodes, rfl, hasKeys_of_given hpairs hnodes hnodup, ?_, ?_, ?_, ?_, ?_⟩
  · exact gives_of_given hpairs hnodes hnodup (.head _)
      (rel_map fun _ _ _ => writesPolicy_of_isNode)
  · exact gives_of_given hpairs hnodes hnodup (.tail _ (.head _))
      (rel_map fun n hn _ => writesNat_of_isNode (hfits.timePrecision n hn))
  · exact gives_of_given hpairs hnodes hnodup (.tail _ (.tail _ (.head _)))
      (rel_group hmp4 fun _ _ _ _ hspells => Mp4Overrides.isWritten_of_isNode hspells)
  · exact gives_of_given hpairs hnodes hnodup (.tail _ (.tail _ (.tail _ (.head _))))
      (rel_group hgif fun group hgroup _ _ hspells =>
        GifOverrides.isWritten_of_isNode hspells (hfits.fps group hgroup))
  · exact gives_of_given hpairs hnodes hnodup (.tail _ (.tail _ (.tail _ (.tail _ (.head _)))))
      (rel_group hportrait fun group hgroup _ _ hspells =>
        PortraitOverrides.isWritten_of_isNode hspells (hfits.width group hgroup)
          (hfits.height group hgroup))

private theorem hasUnknownKey_of_isNode {pairs : List (Key × Tree)} {keys : List String}
    (hnode : (Tree.mapping pairs).IsNode node) {pair : Key × Tree} (hpair : pair ∈ pairs)
    (hunknown : pair.1.name ∉ keys) : HasUnknownKey anchors keys node := by
  rw [Tree.IsNode] at hnode
  obtain ⟨mark, nodes, rfl, hnodes⟩ := hnode
  obtain ⟨other, hother, hkey, -⟩ := exists_node_of_mem hnodes anchors hpair
  refine ⟨_, nodes, rfl, other, hother, fun key hmem hsame => ?_⟩
  obtain rfl : key = pair.1.name := Option.some_inj.1 (hsame.symm.trans hkey)
  exact hunknown hmem

theorem hasUnknownSetting_of_isNode {pairs inner : List (Key × Tree)}
    (hnode : (Tree.mapping pairs).IsNode node) {key : Key} (hmem : (key, .mapping inner) ∈ pairs)
    {keys : List String} (hgroup : (key.name, keys) ∈ groups) {pair : Key × Tree}
    (hpair : pair ∈ inner) (hunknown : pair.1.name ∉ keys) : HasUnknownSetting node := by
  rw [Tree.IsNode] at hnode
  obtain ⟨mark, nodes, rfl, hnodes⟩ := hnode
  obtain ⟨other, hother, hkey, htree⟩ := exists_node_of_mem hnodes _ hmem
  refine .inr ⟨_, nodes, rfl, other, hother, _, hgroup, hkey, ?_⟩
  rw [Tree.IsNode.resolve htree]
  exact hasUnknownKey_of_isNode htree hpair hunknown

/-- The text of a tree that spells settings writes them. -/
theorem Overrides.isWrittenIn_of_isSpelling {o : Overrides} {tree : Tree} (h : o.IsSpelling tree)
    (hfits : o.Fits) : o.IsWrittenIn (String.ofList tree.text) := by
  obtain ⟨-, -, -, -, -, -, pairs, rfl, -⟩ := id h
  obtain ⟨root, hroot, hwhole, hnode⟩ := Yaml.document_mapping pairs
  exact ⟨root, hroot, hwhole, Overrides.isWritten_of_isNode h hfits hnode⟩

end Nodes
end Config
end VideoEdit
