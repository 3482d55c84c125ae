import VideoEdit.Proofs.Invocation.Chains
/-!
# What one effect changes

Plans that differ in one effect compile to invocations that differ in the options of that effect. A
window touches the seek and the duration, the removal of sound its own switch and the two options
that it makes void, the effects on single pictures their chain of filters, and a change of speed
both chains, of the first one only its own filter.
-/
namespace VideoEdit

namespace Plan

/-- Plans of one format that have the same operations, apart from those of some kinds. -/
structure AgreeBut (kinds : List Kind) (p q : Plan) : Prop where
  output : p.output = q.output
  operations : p.operations.filter (fun op => op.kind ∉ kinds) =
    q.operations.filter (fun op => op.kind ∉ kinds)

instance (kinds : List Kind) (p q : Plan) : Decidable (p.AgreeBut kinds q) :=
  decidable_of_iff (_ ∧ _) ⟨fun h => ⟨h.1, h.2⟩, fun h => ⟨h.output, h.operations⟩⟩

namespace AgreeBut
variable {kinds : List Kind} {p q : Plan} {α : Type}

private theorem flatMap_eq (h : p.AgreeBut kinds q) {make : Operation → List α}
    (hmake : ∀ op, op.kind ∈ kinds → make op = []) :
    p.operations.flatMap make = q.operations.flatMap make := by
  have hfilter (ops : List Operation) :
      (ops.filter fun op => op.kind ∉ kinds).flatMap make = ops.flatMap make := by
    induction ops with
    | nil => rfl
    | cons op ops ih =>
      by_cases hop : op.kind ∈ kinds
      · rw [List.filter_cons_of_neg (by simpa using hop), ih, List.flatMap_cons, hmake op hop,
          List.nil_append]
      · rw [List.filter_cons_of_pos (by simpa using hop), List.flatMap_cons, List.flatMap_cons, ih]
  rw [← hfilter, h.operations, hfilter]

private theorem findSome?_eq (h : p.AgreeBut kinds q) {find : Operation → Option α}
    (hfind : ∀ op, op.kind ∈ kinds → find op = none) :
    p.operations.findSome? find = q.operations.findSome? find := by
  have hmake : p.operations.flatMap (fun op => (find op).toList) =
      q.operations.flatMap fun op => (find op).toList :=
    h.flatMap_eq fun op hop => by rw [hfind op hop, Option.toList_none]
  simp only [← List.head?_filterMap, List.filterMap_eq_flatMap_toList, hmake]

private theorem trim?_eq (h : p.AgreeBut kinds q) (hkind : .trim ∉ kinds) : p.trim? = q.trim? := by
  refine h.findSome?_eq fun op hop => ?_
  cases op with
  | trim => exact absurd hop hkind
  | _ => rfl

private theorem speed?_eq (h : p.AgreeBut kinds q) (hkind : .speed ∉ kinds) :
    p.speed? = q.speed? := by
  refine h.findSome?_eq fun op hop => ?_
  cases op with
  | speed => exact absurd hop hkind
  | _ => rfl

private theorem isMuted_eq (h : p.AgreeBut kinds q) (hkind : .mute ∉ kinds) :
    p.isMuted = q.isMuted := by
  have hmem (r : Plan) : .mute ∈ r.operations ↔
      .mute ∈ r.operations.filter (fun op => op.kind ∉ kinds) := by
    simp [List.mem_filter, Operation.kind, hkind]
  rw [Bool.eq_iff_iff, isMuted_iff, isMuted_iff, hmem p, hmem q, h.operations]

end AgreeBut
end Plan

namespace Filters
variable {kinds : List Kind} {p q : Plan}

private theorem filter_video_eq (h : p.AgreeBut kinds q) (settings : Settings)
    (keep : String → Bool) (hkeep : ∀ op : Operation, op.kind ∈ kinds →
      (ofOperation settings.portrait op).filter keep = []) :
    (video p settings).filter keep = (video q settings).filter keep := by
  rw [video, video, List.filter_append, List.filter_append, List.filter_flatMap,
    List.filter_flatMap, h.flatMap_eq hkeep, h.output]

private theorem video_eq (h : p.AgreeBut kinds q) (settings : Settings)
    (hkinds : ∀ kind ∈ kinds, kind = .trim ∨ kind = .mute) :
    video p settings = video q settings := by
  rw [video, video, h.output, h.flatMap_eq]
  intro op hop
  cases op with
  | trim | mute => rfl
  | _ => simpa [Operation.kind] using hkinds _ hop

end Filters

namespace Arguments

/-- The items that arguments read as, up to the output that ends them. -/
structure Lists (arguments : List String) (items : List Item) (output : String) : Prop where
  read : read? arguments.dropLast = some items
  written : arguments = items.flatMap Item.write ++ [output]

/-- Arguments that end in one output and have the same items once these are edited. -/
def SameAfter (edit : List Item → List Item) (arguments arguments' : List String) : Prop :=
  ∃ output items items', Lists arguments items output ∧ Lists arguments' items' output ∧
    edit items = edit items'

def without (flags : List String) (items : List Item) : List Item :=
  items.filter fun item => !item.flag?.any (· ∈ flags)

/-- An item without the filters of a name: what is left of a chain is joined again, and nothing is
left of an option whose chain loses all of its filters. -/
def Item.withoutFilter (name : String) : Item → Option Item
  | option flag value =>
    if flag = "-vf" then
      let kept := ((Filters.pieces value).map String.ofList).filter (Filters.name · ≠ name)
      if kept = [] then none else some (option flag (",".intercalate kept))
    else some (option flag value)
  | item => some item

/-- Arguments and the same without sound: a switch stands in the place of the tempo filters, which
is between the options for input and pictures and those for the encoding, and the sound codec is
gone. -/
def Silences (arguments arguments' : List String) : Prop :=
  ∃ output front tempo back, Lists arguments (front ++ tempo ++ back) output ∧
    Lists arguments' (front ++ .switch "-an" :: without ["-c:a"] back) output ∧
    (tempo = [] ∨ ∃ chain, tempo = [.option "-af" chain]) ∧
    (∀ item ∈ front, ∃ flag ∈ ["-ss", "-i", "-t", "-vf"], item.flag? = some flag) ∧
    ∀ item ∈ back, ∃ flag ∈ formatFlags, item.flag? = some flag

private theorem lists_compile (plan : Plan) (settings : Settings) (input output : String) :
    Lists (plan.compile input output settings) (options plan settings input) output :=
  ⟨read?_compile plan settings input output, compile_eq plan settings input output⟩

private theorem without_append (flags : List String) (items items' : List Item) :
    without flags (items ++ items') = without flags items ++ without flags items' :=
  List.filter_append _ _

private theorem without_options (flags : List String) (name : String) (values : List String) :
    without flags (values.map (Item.option name)) =
      if name ∈ flags then [] else values.map (Item.option name) := by
  split_ifs with hname <;> simp [without, Item.flag?, hname]

section Differ
variable {kinds : List Kind} {p q : Plan}

private theorem sound_eq (h : p.AgreeBut kinds q) (hspeed : .speed ∉ kinds)
    (hmute : .mute ∉ kinds) :
    sound p = sound q := by
  rw [sound, sound, Plan.tempi, Plan.tempi, h.speed?_eq hspeed, h.isMuted_eq hmute]

private theorem without_sound (h : p.AgreeBut kinds q) (hmute : .mute ∉ kinds) :
    without ["-af"] (sound p) = without ["-af"] (sound q) := by
  rw [sound, sound, without_append, without_append, without_options, without_options,
    h.isMuted_eq hmute]
  rfl

private theorem encoding_eq (h : p.AgreeBut kinds q) (hmute : .mute ∉ kinds) (settings : Settings) :
    encoding p settings = encoding q settings := by
  rw [encoding, encoding, h.output, h.isMuted_eq hmute]

private theorem times_seek?_eq (h : p.AgreeBut kinds q) (htrim : .trim ∉ kinds)
    (settings : Settings) :
    times settings p.seek? = times settings q.seek? := by
  rw [Plan.seek?, Plan.seek?, h.trim?_eq htrim]

private theorem times_length?_eq (h : p.AgreeBut kinds q) (htrim : .trim ∉ kinds)
    (settings : Settings) :
    times settings p.length? = times settings q.length? := by
  rw [Plan.length?, Plan.length?, h.trim?_eq htrim]

private theorem videoChain_eq (h : p.AgreeBut kinds q)
    (hkinds : ∀ kind ∈ kinds, kind = .trim ∨ kind = .mute) (settings : Settings) :
    videoChain p settings = videoChain q settings := by
  rw [videoChain, videoChain, Filters.video_eq h settings hkinds]

private theorem sameAfter_of_trim (h : p.AgreeBut [.trim] q) (settings : Settings)
    (input output : String) :
    SameAfter (without ["-ss", "-t"]) (p.compile input output settings)
      (q.compile input output settings) := by
  refine ⟨output, _, _, lists_compile p settings input output,
    lists_compile q settings input output, ?_⟩
  simp only [options, without_append, without_options, sound_eq h (by decide) (by decide),
    encoding_eq h (by decide) settings, videoChain_eq h (by decide) settings]
  rfl

private theorem sameAfter_of_picture (h : p.AgreeBut [.grayscale, .brightness, .crop] q)
    (settings : Settings) (input output : String) :
    SameAfter (without ["-vf"]) (p.compile input output settings)
      (q.compile input output settings) := by
  refine ⟨output, _, _, lists_compile p settings input output,
    lists_compile q settings input output, ?_⟩
  simp only [options, without_append, without_options, sound_eq h (by decide) (by decide),
    encoding_eq h (by decide) settings, times_seek?_eq h (by decide) settings,
    times_length?_eq h (by decide) settings]
  rfl

private theorem withoutFilter_videoChain (name : String) (plan : Plan) (settings : Settings) :
    ((videoChain plan settings).map (Item.option "-vf")).filterMap (Item.withoutFilter name) =
      let kept := (Filters.video plan settings).filter (Filters.name · ≠ name)
      if kept = [] then [] else [.option "-vf" (",".intercalate kept)] := by
  unfold videoChain
  dsimp only
  by_cases hfilters : Filters.video plan settings = []
  · simp [hfilters]
  · have hpieces : (Filters.pieces (",".intercalate (Filters.video plan settings))).map
        String.ofList = Filters.video plan settings := by
      rw [Filters.pieces_video hfilters, List.map_map]
      simp [Function.comp_def]
    rw [if_neg hfilters, List.map_singleton, List.filterMap_cons]
    simp only [Item.withoutFilter, if_true, hpieces]
    split_ifs <;> rfl

private theorem sameAfter_of_speed (h : p.AgreeBut [.speed] q) (settings : Settings)
    (input output : String) :
    SameAfter (fun items => (without ["-af"] items).filterMap (Item.withoutFilter "setpts"))
      (p.compile input output settings) (q.compile input output settings) := by
  have hfilters := Filters.filter_video_eq h settings (Filters.name · ≠ "setpts") (by
    intro op hop
    cases op with
    | speed factor => simp [Filters.ofOperation, Filters.setpts, Filters.name]
    | _ => simp [Operation.kind] at hop)
  refine ⟨output, _, _, lists_compile p settings input output,
    lists_compile q settings input output, ?_⟩
  -- The tempo filters go first; the video filters are none of them.
  have hchain (r : Plan) : without ["-af"] ((videoChain r settings).map (.option "-vf")) =
      (videoChain r settings).map (.option "-vf") := by
    rw [without_options, if_neg (by decide)]
  simp only [options, without_append, List.filterMap_append, hchain, withoutFilter_videoChain,
    hfilters, without_sound h (by decide), encoding_eq h (by decide) settings,
    times_seek?_eq h (by decide) settings, times_length?_eq h (by decide) settings]

private theorem silences_of_mute (h : p.AgreeBut [.mute] q) (hp : .mute ∉ p.operations)
    (hq : .mute ∈ q.operations) (settings : Settings) (input output : String) :
    Silences (p.compile input output settings) (q.compile input output settings) := by
  have hmuted : q.isMuted := q.isMuted_iff.2 hq
  have hsounding : p.isMuted = false := by
    rw [Bool.eq_false_iff, ne_eq, p.isMuted_iff]
    exact hp
  -- Up to the sound both plans have the same options.
  let front : List Item := (times settings p.seek?).map (.option "-ss") ++
    [input].map (.option "-i") ++ (times settings p.length?).map (.option "-t") ++
    (videoChain p settings).map (.option "-vf")
  have hread := lists_compile p settings input output
  have hread' := lists_compile q settings input output
  have hfront : options q settings input = front ++ sound q ++ encoding q settings := by
    simp only [options, front, times_seek?_eq h (by decide) settings,
      times_length?_eq h (by decide) settings, videoChain_eq h (by decide) settings]
  have hsound : sound q = [.switch "-an"] := by
    simp [sound, Plan.tempi, hmuted, Tempo.filter?]
  have hback : encoding q settings = without ["-c:a"] (encoding p settings) := by
    rw [encoding, encoding, h.output, hmuted, hsounding]
    cases q.output <;> rfl
  rw [hfront, hsound, hback, List.append_assoc, List.singleton_append] at hread'
  refine ⟨output, front, sound p, encoding p settings, hread, hread', ?_, ?_, ?_⟩
  · unfold sound
    cases Tempo.filter? p.tempi with
    | none => exact .inl (by simp [hsounding])
    | some chain => exact .inr ⟨chain, by simp [hsounding]⟩
  · intro item hitem
    simp only [front, List.mem_append, List.mem_map] at hitem
    rcases hitem with ((⟨_, _, rfl⟩ | ⟨_, _, rfl⟩) | ⟨_, _, rfl⟩) | ⟨_, _, rfl⟩
    all_goals exact ⟨_, by decide, rfl⟩
  · intro item hitem
    obtain ⟨flag, hflag, value, rfl⟩ := mem_encoding p settings hitem
    exact ⟨flag, hflag, rfl⟩

end Differ

/-- Each effect touches its own arguments. Plans that differ in their windows alone compile alike
but for the seek and the duration, and plans that differ in effects on single pictures alike but for
the chain of video filters. Removing the sound puts a switch in the place of the tempo filters and
drops the sound codec. A change of speed touches the tempo filters and one video filter. -/
theorem compile_effects (p q : Plan) (settings : Settings) (input output : String) :
    (p.AgreeBut [.trim] q →
      SameAfter (without ["-ss", "-t"]) (p.compile input output settings)
        (q.compile input output settings)) ∧
    (p.AgreeBut [.mute] q → .mute ∉ p.operations → .mute ∈ q.operations →
      Silences (p.compile input output settings) (q.compile input output settings)) ∧
    (p.AgreeBut [.grayscale, .brightness, .crop] q →
      SameAfter (without ["-vf"]) (p.compile input output settings)
        (q.compile input output settings)) ∧
    (p.AgreeBut [.speed] q →
      SameAfter (fun items => (without ["-af"] items).filterMap (Item.withoutFilter "setpts"))
        (p.compile input output settings) (q.compile input output settings)) :=
  ⟨fun h => sameAfter_of_trim h settings input output,
    fun h hp hq => silences_of_mute h hp hq settings input output,
    fun h => sameAfter_of_picture h settings input output,
    fun h => sameAfter_of_speed h settings input output⟩

/-- A window, a change of speed and a crop, of which one is changed at a time. -/
theorem compile_effects_cropped :
    let p : Plan := ⟨[.trim 1 (some 3), .speed 2, .crop .square], .mp4⟩
    let later : Plan := ⟨[.trim 2 none, .speed 2, .crop .square], .mp4⟩
    let silent : Plan := ⟨[.trim 1 (some 3), .speed 2, .crop .square, .mute], .mp4⟩
    let tall : Plan := ⟨[.trim 1 (some 3), .grayscale, .speed 2, .crop .portraitFill], .mp4⟩
    let slow : Plan := ⟨[.trim 1 (some 3), .crop .square], .mp4⟩
    let arguments (r : Plan) : List String := r.compile "in.mp4" "out.mp4" {}
    (p.AgreeBut [.trim] later ∧
        SameAfter (without ["-ss", "-t"]) (arguments p) (arguments later)) ∧
      (p.AgreeBut [.mute] silent ∧ .mute ∉ p.operations ∧ .mute ∈ silent.operations ∧
        Silences (arguments p) (arguments silent)) ∧
      (p.AgreeBut [.grayscale, .brightness, .crop] tall ∧
        SameAfter (without ["-vf"]) (arguments p) (arguments tall)) ∧
      p.AgreeBut [.speed] slow ∧
        SameAfter (fun items => (without ["-af"] items).filterMap (Item.withoutFilter "setpts"))
          (arguments p) (arguments slow) := by
  intro p later silent tall slow arguments
  have hlater : p.AgreeBut [.trim] later := by decide +kernel
  have hsilent : p.AgreeBut [.mute] silent := by decide +kernel
  have hsounds : .mute ∉ p.operations := by decide +kernel
  have hmuted : .mute ∈ silent.operations := by decide +kernel
  have htall : p.AgreeBut [.grayscale, .brightness, .crop] tall := by decide +kernel
  have hslow : p.AgreeBut [.speed] slow := by decide +kernel
  exact ⟨⟨hlater, (compile_effects p later {} "in.mp4" "out.mp4").1 hlater⟩,
    ⟨hsilent, hsounds, hmuted,
      (compile_effects p silent {} "in.mp4" "out.mp4").2.1 hsilent hsounds hmuted⟩,
    ⟨htall, (compile_effects p tall {} "in.mp4" "out.mp4").2.2.1 htall⟩,
    hslow, (compile_effects p slow {} "in.mp4" "out.mp4").2.2.2 hslow⟩

end Arguments
end VideoEdit
