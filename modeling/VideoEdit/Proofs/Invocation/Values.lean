import VideoEdit.Proofs.Invocation.Reading
/-!
# The values of options

What the engine makes of the options that carry numbers. A compiled plan gives each of them one
value at most: the time to seek to, the length of the window, the chain of video filters and the
chain of tempo filters, and no other option is taken for one of these.
-/
namespace VideoEdit

namespace Plan

/-- The time to seek to: the start of the window, if that is later than the start of the video. -/
def seek? (p : Plan) : Option Binary64 := (p.trim?.map Prod.fst).filter (Binary64.less 0)

/-- The length of the window, if it ends. -/
def length? (p : Plan) : Option Binary64 :=
  p.trim?.bind fun (start, finish) => (finish.filter start.less).map (· - start)

/-- The factors by which the tempo of the sound changes; sound that is removed has none. -/
def tempi (p : Plan) : List Binary64 :=
  if p.isMuted then [] else (p.speed?.map Tempo.chain).getD []

end Plan

theorem Extraction.isFinite_of_mem_tempi (e : Extraction) (policy : DuplicatePolicy)
    {factor : Binary64} (h : factor ∈ (e.plan policy).tempi) : factor.isFinite := by
  unfold Plan.tempi at h
  split_ifs at h
  · cases h
  cases hspeed : (e.plan policy).speed? with
  | none =>
    rw [hspeed] at h
    cases h
  | some f =>
    rw [hspeed] at h
    obtain ⟨hf, hpos⟩ := e.plan_speed_pos policy ((e.plan_speed?_iff policy f).1 hspeed)
    exact Tempo.isFinite_of_mem_chain hf hpos h

namespace Arguments

def Item.valueFor? (flag : String) : Item → Option String
  | option flag' value => if flag' = flag then some value else none
  | switch _ | name _ => none

def valuesOf (flag : String) (items : List Item) : List String :=
  items.filterMap (Item.valueFor? flag)

private theorem valuesOf_append (flag : String) (items items' : List Item) :
    valuesOf flag (items ++ items') = valuesOf flag items ++ valuesOf flag items' :=
  List.filterMap_append

private theorem valuesOf_options (flag name : String) (values : List String) :
    valuesOf flag (values.map (Item.option name)) = if name = flag then values else [] := by
  rw [valuesOf, List.filterMap_map]
  split_ifs with hname
  · have hall : Item.valueFor? flag ∘ Item.option name = some := funext fun _ => if_pos hname
    rw [hall, List.filterMap_some]
  · rw [List.filterMap_eq_nil_iff]
    exact fun _ _ => if_neg hname

section Compiled
variable (plan : Plan) (settings : Settings) (input output : String)

def times (settings : Settings) (time? : Option Binary64) : List String :=
  time?.toList.map fun time => String.ofList (time.toFixed settings.timePrecision)

def videoChain (plan : Plan) (settings : Settings) : List String :=
  let filters := Filters.video plan settings
  if filters = [] then [] else [",".intercalate filters]

theorem seek_eq : seek plan settings.timePrecision =
    ((times settings plan.seek?).map (Item.option "-ss")).flatMap Item.write := by
  unfold seek Plan.seek? times
  cases plan.trim? with
  | none => rfl
  | some window => by_cases h : Binary64.less 0 window.1 <;> simp [Option.filter, h, Item.write]

theorem duration_eq : duration plan settings.timePrecision =
    ((times settings plan.length?).map (Item.option "-t")).flatMap Item.write := by
  unfold duration Plan.length? times
  rcases plan.trim? with _ | ⟨start, _ | finish⟩
  · rfl
  · rfl
  · by_cases h : start.less finish <;> simp [Option.filter, h, Item.write]

theorem videoFilters_eq : videoFilters plan settings =
    ((videoChain plan settings).map (Item.option "-vf")).flatMap Item.write := by
  unfold videoFilters videoChain
  by_cases h : Filters.video plan settings = [] <;> simp [h, Item.write]

def sound (plan : Plan) : List Item :=
  (if plan.isMuted then [.switch "-an"] else []) ++
    (Tempo.filter? plan.tempi).toList.map (.option "-af")

theorem audio_eq : audio plan = (sound plan).flatMap Item.write := by
  unfold audio sound Plan.tempi
  by_cases h : plan.isMuted
  · simp [h, Tempo.filter?, Item.write]
  · cases hfilter : Tempo.filter? ((plan.speed?.map Tempo.chain).getD []) <;>
      simp [h, hfilter, Item.write]

private theorem valuesOf_sound (flag : String) :
    valuesOf flag (sound plan) =
      if "-af" = flag then (Tempo.filter? plan.tempi).toList else [] := by
  have hswitch : valuesOf flag (if plan.isMuted then [.switch "-an"] else []) = [] := by
    split_ifs <;> rfl
  rw [sound, valuesOf_append, hswitch, List.nil_append, valuesOf_options]

def encoding (plan : Plan) (settings : Settings) : List Item :=
  match plan.output with
  | .mp4 =>
    [.option "-c:v" settings.mp4.videoCodec, .option "-preset" settings.mp4.preset,
        .option "-pix_fmt" settings.mp4.pixelFormat] ++
      (if plan.isMuted then [] else [.option "-c:a" settings.mp4.audioCodec]) ++
      [.option "-movflags" "+faststart"]
  | .gif => [.option "-loop" "0"]

private theorem format_eq : format plan settings = (encoding plan settings).flatMap Item.write := by
  unfold format encoding
  cases plan.output with
  | mp4 => cases hmuted : plan.isMuted <;> simp [mp4, Item.write]
  | gif => rfl

def formatFlags : List String := ["-c:v", "-preset", "-pix_fmt", "-c:a", "-movflags", "-loop"]

theorem mem_encoding {item : Item} (h : item ∈ encoding plan settings) :
    ∃ flag ∈ formatFlags, ∃ value, item = .option flag value := by
  unfold encoding at h
  cases hout : plan.output with
  | mp4 =>
    simp only [hout, List.mem_append, List.mem_cons, List.not_mem_nil, or_false] at h
    rcases h with ((rfl | rfl | rfl) | h) | rfl
    · exact ⟨_, by decide, _, rfl⟩
    · exact ⟨_, by decide, _, rfl⟩
    · exact ⟨_, by decide, _, rfl⟩
    · split_ifs at h
      · cases h
      · exact ⟨"-c:a", by decide, _, List.mem_singleton.1 h⟩
    · exact ⟨_, by decide, _, rfl⟩
  | gif =>
    rw [hout] at h
    exact ⟨"-loop", by decide, "0", List.mem_singleton.1 h⟩

private theorem valuesOf_encoding {flag : String} (h : flag ∉ formatFlags) :
    valuesOf flag (encoding plan settings) = [] := by
  rw [valuesOf, List.filterMap_eq_nil_iff]
  intro item hitem
  obtain ⟨name, hname, value, rfl⟩ := mem_encoding plan settings hitem
  refine if_neg ?_
  rintro rfl
  exact h hname

def options (plan : Plan) (settings : Settings) (input : String) : List Item :=
  (times settings plan.seek?).map (.option "-ss") ++ [input].map (.option "-i") ++
    (times settings plan.length?).map (.option "-t") ++
    (videoChain plan settings).map (.option "-vf") ++ sound plan ++ encoding plan settings

theorem compile_eq : plan.compile input output settings =
    (options plan settings input).flatMap Item.write ++ [output] := by
  rw [Plan.compile, seek_eq, duration_eq, videoFilters_eq, audio_eq, format_eq]
  simp only [options, List.flatMap_append]
  rfl

private theorem legible_named {flag : String} (hflag : isFlag flag) (hne : flag ≠ "-an")
    (values : List String) : ∀ item ∈ values.map (Item.option flag), item.Legible := by
  intro item hitem
  obtain ⟨value, -, rfl⟩ := List.mem_map.1 hitem
  exact ⟨hflag, hne⟩

private theorem legible_sound : ∀ item ∈ sound plan, item.Legible := by
  intro item hitem
  rcases List.mem_append.1 hitem with hitem | hitem
  · split_ifs at hitem
    · rw [List.mem_singleton.1 hitem]
      rfl
    · cases hitem
  · exact legible_named (by decide) (by decide) _ item hitem

private theorem legible_encoding : ∀ item ∈ encoding plan settings, item.Legible := by
  have hflags : ∀ flag ∈ formatFlags, isFlag flag ∧ flag ≠ "-an" := by decide
  intro item hitem
  obtain ⟨flag, hflag, value, rfl⟩ := mem_encoding plan settings hitem
  exact hflags flag hflag

/-- Read up to the output, the arguments of a plan are its options, whatever the names and the
settings are. -/
theorem read?_compile :
    read? (plan.compile input output settings).dropLast = some (options plan settings input) := by
  rw [compile_eq, List.dropLast_concat]
  refine read?_write ?_
  simp only [options, List.mem_append]
  rintro item (((((hitem | hitem) | hitem) | hitem) | hitem) | hitem)
  · exact legible_named (by decide) (by decide) _ item hitem
  · exact legible_named (by decide) (by decide) _ item hitem
  · exact legible_named (by decide) (by decide) _ item hitem
  · exact legible_named (by decide) (by decide) _ item hitem
  · exact legible_sound plan item hitem
  · exact legible_encoding plan settings item hitem

/-- The options with numbers in them get the values of the plan. -/
theorem exists_values :
    ∃ items, read? (plan.compile input output settings).dropLast = some items ∧
      valuesOf "-ss" items = times settings plan.seek? ∧
      valuesOf "-t" items = times settings plan.length? ∧
      valuesOf "-vf" items = videoChain plan settings ∧
      valuesOf "-af" items = (Tempo.filter? plan.tempi).toList := by
  -- Each option that is asked for is the flag of one part; the encoding has flags of its own.
  have hvalues (flag : String) : valuesOf flag (options plan settings input) =
      (if "-ss" = flag then times settings plan.seek? else []) ++
        (if "-i" = flag then [input] else []) ++
        (if "-t" = flag then times settings plan.length? else []) ++
        (if "-vf" = flag then videoChain plan settings else []) ++
        (if "-af" = flag then (Tempo.filter? plan.tempi).toList else []) ++
        valuesOf flag (encoding plan settings) := by
    simp only [options, valuesOf_append, valuesOf_options, valuesOf_sound]
  refine ⟨_, read?_compile plan settings input output, ?seek, ?length, ?video, ?tempo⟩
  all_goals
    rw [hvalues, valuesOf_encoding plan settings (by decide)]
    simp

end Compiled

end Arguments
end VideoEdit
