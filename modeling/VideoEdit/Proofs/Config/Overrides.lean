import VideoEdit.Proofs.Config.Pairs
/-!
# Settings that a document gives

A document gives some of the settings and leaves the others at their defaults. However its keys are
ordered, and whichever they are, the settings that it gives are the ones that are read. A key that
is no setting is refused wherever it stands.
-/
namespace VideoEdit

namespace Config
open Yaml (Node Anchors)

/-! Some of the settings of each group, and of all of them. A group of which no setting is given may
be there or not. -/

structure Mp4Overrides where
  videoCodec : Option String := none
  audioCodec : Option String := none
  preset : Option String := none
  pixelFormat : Option String := none

structure GifOverrides where
  fps : Option Nat := none

structure PortraitOverrides where
  width : Option Nat := none
  height : Option Nat := none

structure Overrides where
  duplicates : Option DuplicatePolicy := none
  timePrecision : Option Nat := none
  mp4 : Option Mp4Overrides := none
  gif : Option GifOverrides := none
  portrait : Option PortraitOverrides := none

/-! The settings that are given, over others. -/

def Mp4Overrides.over (o : Mp4Overrides) (s : Mp4Settings) : Mp4Settings where
  videoCodec := o.videoCodec.getD s.videoCodec
  audioCodec := o.audioCodec.getD s.audioCodec
  preset := o.preset.getD s.preset
  pixelFormat := o.pixelFormat.getD s.pixelFormat

def GifOverrides.over (o : GifOverrides) (s : GifSettings) : GifSettings where
  fps := o.fps.getD s.fps

def PortraitOverrides.over (o : PortraitOverrides) (s : PortraitSettings) : PortraitSettings where
  width := o.width.getD s.width
  height := o.height.getD s.height

def Overrides.over (o : Overrides) (s : Settings) : Settings where
  duplicates := o.duplicates.getD s.duplicates
  timePrecision := o.timePrecision.getD s.timePrecision
  mp4 := (o.mp4.getD {}).over s.mp4
  gif := (o.gif.getD {}).over s.gif
  portrait := (o.portrait.getD {}).over s.portrait

section Written
variable (anchors : Anchors)

/-- A string is written as any scalar. -/
def WritesText (text : String) (node : Node) : Prop :=
  ∃ p style, node = .scalar p style text.toList

/-- A whole number of some width is written as a plain scalar. -/
def WritesNat (width : Width) (n : Nat) (node : Node) : Prop :=
  ∃ p text, node = .scalar p .plain text ∧ Yaml.Number.unsigned? text = some n ∧ n < width.beyond

/-- A policy is written by its name, without a tag of the document's own. -/
def WritesPolicy (policy : DuplicatePolicy) (node : Node) : Prop :=
  ∃ p style, node = .scalar p style policy.name.toList ∧ p.tag.all (!Yaml.Value.isLocal ·)

/-! The keys of each group and of a configuration, and how a mapping writes some of the settings. -/

def mp4Keys : List String := ["video_codec", "audio_codec", "preset", "pixel_format"]

def gifKeys : List String := ["fps"]

def portraitKeys : List String := ["width", "height"]

def rootKeys : List String := ["duplicates", "time_precision", "mp4", "gif", "portrait"]

def groups : List (String × List String) :=
  [("mp4", mp4Keys), ("gif", gifKeys), ("portrait", portraitKeys)]

def Mp4Overrides.IsWritten (o : Mp4Overrides) (node : Node) : Prop :=
  ∃ p pairs, node = .mapping p pairs ∧
    HasKeys anchors mp4Keys pairs ∧
    Gives WritesText anchors pairs "video_codec" o.videoCodec ∧
    Gives WritesText anchors pairs "audio_codec" o.audioCodec ∧
    Gives WritesText anchors pairs "preset" o.preset ∧
    Gives WritesText anchors pairs "pixel_format" o.pixelFormat

def GifOverrides.IsWritten (o : GifOverrides) (node : Node) : Prop :=
  ∃ p pairs, node = .mapping p pairs ∧ HasKeys anchors gifKeys pairs ∧
    Gives (WritesNat .size) anchors pairs "fps" o.fps

def PortraitOverrides.IsWritten (o : PortraitOverrides) (node : Node) : Prop :=
  ∃ p pairs, node = .mapping p pairs ∧ HasKeys anchors portraitKeys pairs ∧
    Gives (WritesNat .size) anchors pairs "width" o.width ∧
    Gives (WritesNat .size) anchors pairs "height" o.height

def Overrides.IsWritten (o : Overrides) (node : Node) : Prop :=
  ∃ p pairs, node = .mapping p pairs ∧
    HasKeys anchors rootKeys pairs ∧
    Gives WritesPolicy anchors pairs "duplicates" o.duplicates ∧
    Gives (WritesNat .places) anchors pairs "time_precision" o.timePrecision ∧
    Gives (Mp4Overrides.IsWritten anchors) anchors pairs "mp4" o.mp4 ∧
    Gives (GifOverrides.IsWritten anchors) anchors pairs "gif" o.gif ∧
    Gives (PortraitOverrides.IsWritten anchors) anchors pairs "portrait" o.portrait

/-- A text writes some of the settings: it is one whole document whose root does. -/
def Overrides.IsWrittenIn (o : Overrides) (text : String) : Prop :=
  ∃ root, (Yaml.document text).root = some root ∧ (Yaml.document text).isWhole ∧
    o.IsWritten root.anchors root

/-- A configuration has a key that is no setting: one of its own, or one in a group. -/
def HasUnknownSetting (root : Node) : Prop :=
  HasUnknownKey root.anchors rootKeys root ∨
    ∃ p pairs, root = .mapping p pairs ∧ ∃ pair ∈ pairs,
      ∃ group ∈ groups, keyText? root.anchors pair.1 = some group.1 ∧
        HasUnknownKey root.anchors group.2 (pair.2.resolve root.anchors)

end Written

private theorem readText_of_writes (expected : String) (path : List String) {node : Node}
    {text : String} (h : WritesText text node) : readText expected path node = .ok text := by
  obtain ⟨p, style, rfl⟩ := h
  rw [readText, String.ofList_toList]

private theorem readNat_of_writes (width : Width) (hwidth : width.beyond ≤ Nat.pow 2 64)
    (path : List String) {node : Node} {n : Nat} (h : WritesNat width n node) :
    readNat width path node = .ok n := by
  obtain ⟨p, text, rfl, htext, hn⟩ := h
  have hread : unsigned? (.scalar p .plain text) = some n := by
    simp [unsigned?, htext, Nat.lt_of_lt_of_le hn hwidth]
  simp only [readNat, hread, if_pos hn]

private theorem readPolicy_of_writes (outer : Place) (path : List String) {node : Node}
    {policy : DuplicatePolicy} (h : WritesPolicy policy node) :
    readPolicy outer path node = .ok policy := by
  obtain ⟨p, style, rfl, htag⟩ := h
  have hname : policyNamed policy.name = .ok policy := by cases policy <;> rfl
  have hvariant : variantTag? (.scalar p style policy.name.toList) = none := by
    unfold variantTag?
    simp only
    split
    · next htagged => simp [htagged, Yaml.Value.isLocal] at htag
    · next htagged => simp [htagged, Yaml.Value.isLocal] at htag
    · rfl
  simp only [readPolicy, hvariant, String.ofList_toList, hname]

section Groups
variable {anchors : Anchors} {node : Node} {path : List String}

private theorem mp4Fields_sets (anchors : Anchors) :
    Sets anchors (mp4Fields anchors) "video_codec" WritesText Mp4Settings.videoCodec id ∧
      Sets anchors (mp4Fields anchors) "audio_codec" WritesText Mp4Settings.audioCodec id ∧
      Sets anchors (mp4Fields anchors) "preset" WritesText Mp4Settings.preset id ∧
      Sets anchors (mp4Fields anchors) "pixel_format" WritesText Mp4Settings.pixelFormat id := by
  have hread (path node value) (h : WritesText value node) :
      readText "a string" path node = .ok (id value) := readText_of_writes "a string" path h
  refine ⟨.of_field rfl hread (fun _ _ => rfl) fun field hfield hkey => ?_,
    .of_field rfl hread (fun _ _ => rfl) fun field hfield hkey => ?_,
    .of_field rfl hread (fun _ _ => rfl) fun field hfield hkey => ?_,
    .of_field rfl hread (fun _ _ => rfl) fun field hfield hkey => ?_⟩
  all_goals
    simp only [mp4Fields, List.mem_cons, List.not_mem_nil, or_false] at hfield
    rcases hfield with rfl | rfl | rfl | rfl
  all_goals
    first
      | exact absurd rfl hkey
      | exact Field.of_keeps fun _ _ => rfl

private theorem readGroup_mp4 {o : Mp4Overrides} (h : o.IsWritten anchors node) :
    readGroup anchors "Mp4Profile" (mp4Fields anchors) {} path node = .ok (o.over {}) := by
  obtain ⟨p, pairs, rfl, hkeys, hvideo, haudio, hpreset, hpixel⟩ := h
  obtain ⟨hsvideo, hsaudio, hspreset, hspixel⟩ := mp4Fields_sets anchors
  obtain ⟨⟨video, audio, preset, pixel⟩, hread⟩ :
      ∃ s', readPairs anchors (mp4Fields anchors) ⟨p.mark, path⟩ [] pairs {} = .ok s' := by
    refine exists_readPairs_of_hasKeys hkeys (fun key hmem pair hpair hkey => ?_) _
    simp only [mp4Keys, List.mem_cons, List.not_mem_nil, or_false] at hmem
    rcases hmem with rfl | rfl | rfl | rfl
    · exact hsvideo.accepts hvideo hkeys.once hpair hkey
    · exact hsaudio.accepts haudio hkeys.once hpair hkey
    · exact hspreset.accepts hpreset hkeys.once hpair hkey
    · exact hspixel.accepts hpixel hkeys.once hpair hkey
  have hvideo : video = _ := hsvideo.part_eq hvideo hkeys.once hread
  have haudio : audio = _ := hsaudio.part_eq haudio hkeys.once hread
  have hpreset : preset = _ := hspreset.part_eq hpreset hkeys.once hread
  have hpixel : pixel = _ := hspixel.part_eq hpixel hkeys.once hread
  subst hvideo haudio hpreset hpixel
  simp only [readGroup, hread, Option.map_id_fun, id_eq, Mp4Overrides.over]

private theorem gifFields_sets (anchors : Anchors) :
    Sets anchors (gifFields anchors) "fps" (WritesNat .size) GifSettings.fps id := by
  refine .of_field rfl (fun path node value => readNat_of_writes .size (by decide) path)
    (fun _ _ => rfl) fun field hfield hkey => ?_
  obtain rfl := List.mem_singleton.1 hfield
  exact absurd rfl hkey

private theorem readGroup_gif {o : GifOverrides} (h : o.IsWritten anchors node) :
    readGroup anchors "GifProfile" (gifFields anchors) {} path node = .ok (o.over {}) := by
  obtain ⟨p, pairs, rfl, hkeys, hfps⟩ := h
  have hsfps := gifFields_sets anchors
  obtain ⟨⟨fps⟩, hread⟩ :
      ∃ s', readPairs anchors (gifFields anchors) ⟨p.mark, path⟩ [] pairs {} = .ok s' := by
    refine exists_readPairs_of_hasKeys hkeys (fun key hmem pair hpair hkey => ?_) _
    obtain rfl := List.mem_singleton.1 hmem
    exact hsfps.accepts hfps hkeys.once hpair hkey
  have hfps : fps = _ := hsfps.part_eq hfps hkeys.once hread
  subst hfps
  simp only [readGroup, hread, Option.map_id_fun, id_eq, GifOverrides.over]

private theorem portraitFields_sets (anchors : Anchors) :
    Sets anchors (portraitFields anchors) "width" (WritesNat .size) PortraitSettings.width id ∧
      Sets anchors (portraitFields anchors) "height" (WritesNat .size) PortraitSettings.height
        id := by
  have hread (path node value) (h : WritesNat .size value node) :
      readNat .size path node = .ok (id value) := readNat_of_writes .size (by decide) path h
  refine ⟨.of_field rfl hread (fun _ _ => rfl) fun field hfield hkey => ?_,
    .of_field rfl hread (fun _ _ => rfl) fun field hfield hkey => ?_⟩
  all_goals
    simp only [portraitFields, List.mem_cons, List.not_mem_nil, or_false] at hfield
    rcases hfield with rfl | rfl
  all_goals
    first
      | exact absurd rfl hkey
      | exact Field.of_keeps fun _ _ => rfl

private theorem readGroup_portrait {o : PortraitOverrides} (h : o.IsWritten anchors node) :
    readGroup anchors "PortraitTarget" (portraitFields anchors) {} path node =
      .ok (o.over {}) := by
  obtain ⟨p, pairs, rfl, hkeys, hwidth, hheight⟩ := h
  obtain ⟨hswidth, hsheight⟩ := portraitFields_sets anchors
  obtain ⟨⟨width, height⟩, hread⟩ :
      ∃ s', readPairs anchors (portraitFields anchors) ⟨p.mark, path⟩ [] pairs {} = .ok s' := by
    refine exists_readPairs_of_hasKeys hkeys (fun key hmem pair hpair hkey => ?_) _
    simp only [portraitKeys, List.mem_cons, List.not_mem_nil, or_false] at hmem
    rcases hmem with rfl | rfl
    · exact hswidth.accepts hwidth hkeys.once hpair hkey
    · exact hsheight.accepts hheight hkeys.once hpair hkey
  have hwidth : width = _ := hswidth.part_eq hwidth hkeys.once hread
  have hheight : height = _ := hsheight.part_eq hheight hkeys.once hread
  subst hwidth hheight
  simp only [readGroup, hread, Option.map_id_fun, id_eq, PortraitOverrides.over]

end Groups

section Root
variable {anchors : Anchors} {node : Node}

private theorem policyField_keeps {γ : Type} {part : Settings → γ}
    (h : ∀ policy s, part { s with duplicates := policy } = part s) :
    (policyField anchors).Keeps part := by
  intro here path node s s' hread
  obtain ⟨policy, -, rfl⟩ := exists_of_map_eq_ok hread
  exact h policy s

private theorem policyField_takes :
    (policyField anchors).Takes anchors WritesPolicy fun policy s =>
      { s with duplicates := policy } := by
  intro here path node policy s hwrites
  simp only [policyField, readPolicy_of_writes _ path hwrites]
  rfl

private theorem fields_sets (anchors : Anchors) :
    Sets anchors (fields anchors) "duplicates" WritesPolicy Settings.duplicates id ∧
      Sets anchors (fields anchors) "time_precision" (WritesNat .places)
        Settings.timePrecision id ∧
      Sets anchors (fields anchors) "mp4" (Mp4Overrides.IsWritten anchors) Settings.mp4
        (·.over {}) ∧
      Sets anchors (fields anchors) "gif" (GifOverrides.IsWritten anchors) Settings.gif
        (·.over {}) ∧
      Sets anchors (fields anchors) "portrait" (PortraitOverrides.IsWritten anchors)
        Settings.portrait (·.over {}) := by
  refine ⟨⟨⟨policyField anchors, _, rfl, policyField_takes, fun _ _ => rfl⟩,
      fun field hfield hkey => ?_⟩,
    .of_field rfl (fun path _ _ => readNat_of_writes .places (Nat.le_refl _) path)
      (fun _ _ => rfl) fun field hfield hkey => ?_,
    .of_field rfl (fun _ _ _ => readGroup_mp4) (fun _ _ => rfl) fun field hfield hkey => ?_,
    .of_field rfl (fun _ _ _ => readGroup_gif) (fun _ _ => rfl) fun field hfield hkey => ?_,
    .of_field rfl (fun _ _ _ => readGroup_portrait) (fun _ _ => rfl)
      fun field hfield hkey => ?_⟩
  all_goals
    simp only [fields, List.mem_cons, List.not_mem_nil, or_false] at hfield
    rcases hfield with rfl | rfl | rfl | rfl | rfl
  all_goals
    first
      | exact absurd rfl hkey
      | exact Field.of_keeps fun _ _ => rfl
      | exact policyField_keeps fun _ _ => rfl

private theorem readRoot_mapping {p : Yaml.Properties} {pairs : List (Node × Node)}
    (h : node = .mapping p pairs) :
    readRoot node = readPairs node.anchors (fields node.anchors) ⟨p.mark, []⟩ [] pairs {} := by
  subst h
  rfl

/-- A mapping that writes some of the settings is read as these settings over the defaults. -/
theorem readRoot_of_isWritten {o : Overrides} (h : o.IsWritten node.anchors node) :
    readRoot node = .ok (o.over {}) := by
  obtain ⟨p, pairs, hnode, hkeys, hpolicy, hplaces, hmp4, hgif, hportrait⟩ := h
  obtain ⟨hspolicy, hsplaces, hsmp4, hsgif, hsportrait⟩ := fields_sets node.anchors
  obtain ⟨⟨policy, places, mp4, gif, portrait⟩, hread⟩ :
      ∃ s', readPairs node.anchors (fields node.anchors) ⟨p.mark, []⟩ [] pairs {} = .ok s' := by
    refine exists_readPairs_of_hasKeys hkeys (fun key hmem pair hpair hkey => ?_) _
    simp only [rootKeys, List.mem_cons, List.not_mem_nil, or_false] at hmem
    rcases hmem with rfl | rfl | rfl | rfl | rfl
    · exact hspolicy.accepts hpolicy hkeys.once hpair hkey
    · exact hsplaces.accepts hplaces hkeys.once hpair hkey
    · exact hsmp4.accepts hmp4 hkeys.once hpair hkey
    · exact hsgif.accepts hgif hkeys.once hpair hkey
    · exact hsportrait.accepts hportrait hkeys.once hpair hkey
  have hpolicy : policy = _ := hspolicy.part_eq hpolicy hkeys.once hread
  have hplaces : places = _ := hsplaces.part_eq hplaces hkeys.once hread
  have hmp4 : mp4 = _ := hsmp4.part_eq hmp4 hkeys.once hread
  have hgif : gif = _ := hsgif.part_eq hgif hkeys.once hread
  have hportrait : portrait = _ := hsportrait.part_eq hportrait hkeys.once hread
  subst hpolicy hplaces hmp4 hgif hportrait
  rw [readRoot_mapping hnode, hread]
  cases hm : o.mp4 <;> cases hg : o.gif <;> cases ht : o.portrait <;>
    simp [Overrides.over, hm, hg, ht, Mp4Overrides.over, GifOverrides.over, PortraitOverrides.over]

private theorem Field.of_rejects {α β : Type} {key : String} {read : List String → Node → Reading β}
    {set : β → α → α} {node : Node}
    (h : ∀ path, ∃ e, read path (node.resolve anchors) = .error e) (here : Place)
    (path : List String) (s : α) : ∃ e, (Field.of anchors key read set).read here path node s =
      .error e := by
  obtain ⟨e, he⟩ := h path
  exact ⟨e, congrArg (Except.map (set · s)) he⟩

/-- A key that is no setting is refused, in the configuration itself and in each of its groups. -/
theorem readRoot_of_hasUnknownSetting (h : HasUnknownSetting node) :
    ∃ e, readRoot node = .error e := by
  obtain hroot | ⟨p, pairs, hnode, pair, hpair, group, hgroup, hkey, hunknown⟩ := h
  · exact readGroup_eq_error hroot
  · have hrejects : Rejects node.anchors (fields node.anchors) pair := by
      intro key field hname hfield
      obtain rfl : key = group.1 := Option.some_inj.1 (hname.symm.trans hkey)
      simp only [groups, List.mem_cons, List.not_mem_nil, or_false] at hgroup
      rcases hgroup with rfl | rfl | rfl <;> cases hfield <;>
        exact Field.of_rejects fun path => readGroup_eq_error hunknown
    rw [readRoot_mapping hnode]
    exact readPairs_eq_error hpair hrejects

end Root
end Config
end VideoEdit
