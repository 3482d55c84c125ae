import VideoEdit.Engine.ResourceName
import VideoEdit.Invocation.Arguments
import VideoEdit.Proofs.Edit.Selection
import VideoEdit.Proofs.Edit.TempoChain
/-!
# How the engine reads an invocation

The engine reads its arguments from left to right: an option takes the next argument as its value
whatever that looks like, a switch takes none, and anything else names an output. A compiled plan
reads as the options that the plan calls for, in a fixed order, and as one output.
-/
namespace VideoEdit

theorem Extraction.plan_speed_pos (e : Extraction) (policy : DuplicatePolicy) {factor : Binary64}
    (h : .speed factor ∈ (e.plan policy).operations) : factor.isFinite ∧ 0 < factor.value := by
  have hvalid := e.plan_valid policy h
  simp only [Operation.isValid, Bool.and_eq_true] at hvalid
  exact ⟨hvalid.1, (Binary64.zero_less_iff_value hvalid.1).1 hvalid.2⟩

namespace Arguments

/-- What the engine makes of one or two arguments. -/
inductive Item
  | option (flag value : String)
  | switch (flag : String)
  | name (text : String)
  deriving DecidableEq

/-- Whether an argument is read as an option; a dash alone is the standard stream. -/
def isFlag (argument : String) : Bool :=
  match argument.toList with
  | '-' :: _ :: _ => true
  | _ => false

/-- The items of an argument list, unless an option at its end lacks a value. -/
def read? : List String → Option (List Item)
  | [] => some []
  | argument :: rest =>
    if argument = "-an" then (read? rest).map (.switch argument :: ·)
    else if isFlag argument then
      match rest with
      | [] => none
      | value :: rest => (read? rest).map (.option argument value :: ·)
    else (read? rest).map (.name argument :: ·)

namespace Item

def flag? : Item → Option String
  | option flag _ | switch flag => some flag
  | name _ => none

def write : Item → List String
  | option flag value => [flag, value]
  | switch flag => [flag]
  | name text => [text]

/-- The items that occur in a reading. -/
def Legible : Item → Prop
  | option flag _ => isFlag flag ∧ flag ≠ "-an"
  | switch flag => flag = "-an"
  | name text => ¬isFlag text

end Item

private theorem read?_option {flag : String} (hflag : isFlag flag) (hne : flag ≠ "-an")
    (value : String) (rest : List String) :
    read? (flag :: value :: rest) = (read? rest).map (.option flag value :: ·) := by
  simp only [read?, if_neg hne, if_pos hflag]

private theorem read?_switch (rest : List String) :
    read? ("-an" :: rest) = (read? rest).map (.switch "-an" :: ·) := by
  cases rest <;> simp [read?]

private theorem read?_name {text : String} (h : ¬isFlag text) (rest : List String) :
    read? (text :: rest) = (read? rest).map (.name text :: ·) := by
  have hne : text ≠ "-an" := by
    rintro rfl
    exact h (by decide)
  cases rest <;> simp [read?, hne, h]

theorem read?_write {items : List Item} (h : ∀ item ∈ items, item.Legible) :
    read? (items.flatMap Item.write) = some items := by
  induction items with
  | nil => rfl
  | cons item items ih =>
    have hitem := h item List.mem_cons_self
    have hrest := ih fun other hother => h other (List.mem_cons_of_mem item hother)
    rw [List.flatMap_cons]
    cases item with
    | option flag value =>
      rw [Item.write, List.cons_append, List.cons_append, List.nil_append,
        read?_option hitem.1 hitem.2, hrest, Option.map_some]
    | switch flag =>
      obtain rfl : flag = "-an" := hitem
      rw [Item.write, List.cons_append, List.nil_append, read?_switch, hrest, Option.map_some]
    | name text =>
      rw [Item.write, List.cons_append, List.nil_append, read?_name hitem, hrest, Option.map_some]

private theorem eq_of_write_eq {items items' : List Item} (h : ∀ item ∈ items, item.Legible)
    (h' : ∀ item ∈ items', item.Legible)
    (hwrite : items.flatMap Item.write = items'.flatMap Item.write) : items = items' := by
  have hread := read?_write h
  rw [hwrite, read?_write h'] at hread
  exact (Option.some.inj hread).symm

/-- Items that take the options of a table in turn, each of them exactly if its condition holds. -/
inductive Fits : List (String × Prop) → List Item → Prop
  | nil : Fits [] []
  | skip {flag : String} {used : Prop} {table : List (String × Prop)} {items : List Item}
      (h : ¬used) (rest : Fits table items) : Fits ((flag, used) :: table) items
  | take {flag : String} {used : Prop} {table : List (String × Prop)} {item : Item}
      {items : List Item} (h : used) (hflag : item.flag? = some flag) (rest : Fits table items) :
      Fits ((flag, used) :: table) (item :: items)

namespace Fits
variable {table table' : List (String × Prop)} {items items' : List Item}

theorem append (h : Fits table items) (h' : Fits table' items') :
    Fits (table ++ table') (items ++ items') := by
  induction h with
  | nil => exact h'
  | skip h _ ih => exact .skip h ih
  | take h hflag _ ih => exact .take h hflag ih

private theorem flags_sublist (h : Fits table items) :
    (items.filterMap Item.flag?).Sublist (table.map Prod.fst) := by
  induction h with
  | nil => exact .slnil
  | skip _ _ ih => exact ih.cons _
  | take _ hflag _ ih =>
    rw [List.filterMap_cons_some hflag]
    exact ih.cons_cons _

private theorem exists_flag (h : Fits table items) :
    ∀ item ∈ items, ∃ flag ∈ table.map Prod.fst, item.flag? = some flag := by
  induction h with
  | nil => simp
  | skip _ _ ih =>
    intro item hitem
    obtain ⟨flag, hmem, hflag⟩ := ih item hitem
    exact ⟨flag, List.mem_cons_of_mem _ hmem, hflag⟩
  | take _ hflag _ ih =>
    intro item hitem
    rcases List.mem_cons.1 hitem with rfl | hitem
    · exact ⟨_, List.mem_cons_self, hflag⟩
    · obtain ⟨flag, hmem, hflag'⟩ := ih item hitem
      exact ⟨flag, List.mem_cons_of_mem _ hmem, hflag'⟩

private theorem mem_flags_iff (h : Fits table items) (hnodup : (table.map Prod.fst).Nodup) :
    ∀ entry ∈ table, entry.1 ∈ items.filterMap Item.flag? ↔ entry.2 := by
  induction h with
  | nil => simp
  | @skip flag used table items hunused rest ih =>
    rw [List.map_cons, List.nodup_cons] at hnodup
    intro entry hentry
    rcases List.mem_cons.1 hentry with rfl | hentry
    · have hfresh : flag ∉ items.filterMap Item.flag? :=
        fun hmem => hnodup.1 (rest.flags_sublist.subset hmem)
      exact iff_of_false hfresh hunused
    · exact ih hnodup.2 entry hentry
  | @take flag used table item items hused hflag rest ih =>
    rw [List.map_cons, List.nodup_cons] at hnodup
    intro entry hentry
    rw [List.filterMap_cons_some hflag, List.mem_cons]
    rcases List.mem_cons.1 hentry with rfl | hentry
    · exact iff_of_true (.inl rfl) hused
    · have hne : entry.1 ≠ flag := by
        intro heq
        exact hnodup.1 (List.mem_map.2 ⟨entry, hentry, heq⟩)
      rw [or_iff_right hne]
      exact ih hnodup.2 entry hentry

end Fits

def Writes (table : List (String × Prop)) (arguments : List String) : Prop :=
  ∃ items, Fits table items ∧ (∀ item ∈ items, item.Legible) ∧ items.flatMap Item.write = arguments

namespace Writes
variable {flag : String} {used : Prop} {table table' : List (String × Prop)}
  {arguments arguments' : List String}

theorem nil : Writes [] [] := ⟨[], .nil, by simp, rfl⟩

theorem skip (h : ¬used) (rest : Writes table arguments) :
    Writes ((flag, used) :: table) arguments := by
  obtain ⟨items, hfits, hrest⟩ := rest
  exact ⟨items, .skip h hfits, hrest⟩

private theorem take (item : Item) (h : used) (hflag : item.flag? = some flag)
    (hlegible : item.Legible) (rest : Writes table arguments) :
    Writes ((flag, used) :: table) (item.write ++ arguments) := by
  obtain ⟨items, hfits, hrest, rfl⟩ := rest
  refine ⟨item :: items, .take h hflag hfits, ?_, List.flatMap_cons⟩
  intro other hother
  rcases List.mem_cons.1 hother with rfl | hother
  · exact hlegible
  · exact hrest other hother

theorem option (h : used) (value : String) (hflag : isFlag flag) (hne : flag ≠ "-an")
    (rest : Writes table arguments) :
    Writes ((flag, used) :: table) (flag :: value :: arguments) :=
  take (.option flag value) h rfl ⟨hflag, hne⟩ rest

theorem switch (h : used) (rest : Writes table arguments) :
    Writes (("-an", used) :: table) ("-an" :: arguments) :=
  take (.switch "-an") h rfl rfl rest

theorem append (h : Writes table arguments) (h' : Writes table' arguments') :
    Writes (table ++ table') (arguments ++ arguments') := by
  obtain ⟨items, hfits, hlegible, rfl⟩ := h
  obtain ⟨items', hfits', hlegible', rfl⟩ := h'
  refine ⟨items ++ items', hfits.append hfits', ?_, List.flatMap_append⟩
  intro item hitem
  exact (List.mem_append.1 hitem).elim (hlegible item) (hlegible' item)

end Writes

/-- The options of a plan in the order in which they are written, each with the condition on which
it is used. -/
def table (plan : Plan) (settings : Settings) : List (String × Prop) :=
  [("-ss", ∃ start finish, .trim start finish ∈ plan.operations ∧ 0 < start.value),
    ("-i", True),
    ("-t", ∃ start finish, .trim start (some finish) ∈ plan.operations),
    ("-vf", Filters.video plan settings ≠ []),
    ("-an", .mute ∈ plan.operations),
    ("-af", .mute ∉ plan.operations ∧ ∃ factor, .speed factor ∈ plan.operations ∧ factor ≠ 1),
    ("-c:v", plan.output = .mp4),
    ("-preset", plan.output = .mp4),
    ("-pix_fmt", plan.output = .mp4),
    ("-c:a", plan.output = .mp4 ∧ .mute ∉ plan.operations),
    ("-movflags", plan.output = .mp4),
    ("-loop", plan.output = .gif)]

section Parts
variable (e : Extraction) (policy : DuplicatePolicy)

private theorem seek_writes (places : Nat) :
    Writes [("-ss", ∃ start finish, .trim start finish ∈ (e.plan policy).operations ∧
        0 < start.value)]
      (seek (e.plan policy) places) := by
  unfold seek
  cases htrim : (e.plan policy).trim? with
  | none =>
    refine .skip ?_ .nil
    rintro ⟨start, finish, hop, -⟩
    rw [← e.plan_trim?_iff, htrim] at hop
    cases hop
  | some window =>
    obtain ⟨start, finish⟩ := window
    have hop := (e.plan_trim?_iff policy start finish).1 htrim
    have hvalid := e.plan_valid policy hop
    simp only [Operation.isValid, Bool.and_eq_true] at hvalid
    have hless := Binary64.zero_less_iff_value hvalid.1.1
    dsimp only
    split_ifs with hstart
    · exact .option ⟨start, finish, hop, hless.1 hstart⟩ _ (by decide) (by decide) .nil
    · refine .skip ?_ .nil
      rintro ⟨start', finish', hop', hpos⟩
      cases e.plan_unique policy hop' hop rfl
      exact hstart (hless.2 hpos)

private theorem duration_writes (places : Nat) :
    Writes [("-t", ∃ start finish, .trim start (some finish) ∈ (e.plan policy).operations)]
      (duration (e.plan policy) places) := by
  unfold duration
  cases htrim : (e.plan policy).trim? with
  | none =>
    refine .skip ?_ .nil
    rintro ⟨start, finish, hop⟩
    rw [← e.plan_trim?_iff, htrim] at hop
    cases hop
  | some window =>
    obtain ⟨start, finish⟩ := window
    have hop := (e.plan_trim?_iff policy start finish).1 htrim
    cases finish with
    | none =>
      refine .skip ?_ .nil
      rintro ⟨start', finish', hop'⟩
      cases e.plan_unique policy hop' hop rfl
    | some finish =>
      have hvalid := e.plan_valid policy hop
      simp only [Operation.isValid, Bool.and_eq_true, Option.all_some] at hvalid
      simp only [hvalid.2.2, if_true]
      exact .option ⟨start, finish, hop⟩ _ (by decide) (by decide) .nil

private theorem videoFilters_writes (plan : Plan) (settings : Settings) :
    Writes [("-vf", Filters.video plan settings ≠ [])] (videoFilters plan settings) := by
  unfold videoFilters
  dsimp only
  split_ifs with hfilters
  · exact .skip (not_not.2 hfilters) .nil
  · exact .option hfilters _ (by decide) (by decide) .nil

private theorem audio_writes :
    Writes [("-an", .mute ∈ (e.plan policy).operations),
        ("-af", .mute ∉ (e.plan policy).operations ∧
          ∃ factor, .speed factor ∈ (e.plan policy).operations ∧ factor ≠ 1)]
      (audio (e.plan policy)) := by
  unfold audio
  by_cases hmute : .mute ∈ (e.plan policy).operations
  · rw [if_pos ((Plan.isMuted_iff _).2 hmute)]
    exact .switch hmute (.skip (fun h => h.1 hmute) .nil)
  rw [if_neg (fun h => hmute ((Plan.isMuted_iff _).1 h))]
  refine .skip hmute ?_
  cases hspeed : (e.plan policy).speed? with
  | none =>
    refine .skip ?_ .nil
    rintro ⟨-, factor, hop, -⟩
    rw [← e.plan_speed?_iff, hspeed] at hop
    cases hop
  | some factor =>
    have hop := (e.plan_speed?_iff policy factor).1 hspeed
    obtain ⟨hfinite, hpos⟩ := e.plan_speed_pos policy hop
    have hchain := Tempo.chain_eq_nil_iff hfinite hpos
    rw [Option.map_some, Option.getD_some, Tempo.filter?]
    split_ifs with hnil
    · refine .skip ?_ .nil
      rintro ⟨-, factor', hop', hne⟩
      cases e.plan_unique policy hop' hop rfl
      exact hne (hchain.1 hnil)
    · exact .option ⟨hmute, factor, hop, mt hchain.2 hnil⟩ _ (by decide) (by decide) .nil

private theorem format_writes (plan : Plan) (settings : Settings) :
    Writes [("-c:v", plan.output = .mp4), ("-preset", plan.output = .mp4),
        ("-pix_fmt", plan.output = .mp4), ("-c:a", plan.output = .mp4 ∧ .mute ∉ plan.operations),
        ("-movflags", plan.output = .mp4), ("-loop", plan.output = .gif)]
      (format plan settings) := by
  unfold format
  cases hout : plan.output with
  | mp4 =>
    have hsound : Writes [("-c:a", OutputFormat.mp4 = .mp4 ∧ .mute ∉ plan.operations)]
        (if plan.isMuted then [] else ["-c:a", settings.mp4.audioCodec]) := by
      split_ifs with hmuted
      · exact .skip (fun h => h.2 ((Plan.isMuted_iff _).1 hmuted)) .nil
      · exact .option ⟨rfl, fun h => hmuted ((Plan.isMuted_iff _).2 h)⟩ _ (by decide) (by decide)
          .nil
    refine .option rfl _ (by decide) (by decide) ?_
    refine .option rfl _ (by decide) (by decide) ?_
    refine .option rfl _ (by decide) (by decide) ?_
    refine hsound.append ?_
    exact .option rfl _ (by decide) (by decide) (.skip (by decide) .nil)
  | gif =>
    refine .skip (by decide) (.skip (by decide) (.skip (by decide) ?_))
    refine .skip (by simp) (.skip (by decide) ?_)
    exact .option rfl _ (by decide) (by decide) .nil

end Parts

/-- What it means that arguments read as the options of a table: they have one reading, in which
the input stands after the seek at most, nothing but the output is free-standing and comes last,
and the options of the table that are used stand once each, in order. -/
structure Reads (table : List (String × Prop)) (input output : String) (arguments : List String)
    (items : List Item) : Prop where
  read : read? arguments = some items
  sole : ∀ others : List Item,
    (∀ item ∈ others, item.Legible) ∧ others.flatMap Item.write = arguments ↔ others = items
  input : ∃ before after, items = before ++ .option "-i" input :: after ∧
    (∀ item ∈ before, item.flag? = some "-ss") ∧
    ∀ item ∈ after, item.flag? ≠ some "-ss" ∧ item.flag? ≠ some "-i"
  output : ∃ front, items = front ++ [.name output] ∧ ∀ item ∈ front, item.flag?.isSome
  once : (items.filterMap Item.flag?).Nodup
  ordered : (items.filterMap Item.flag?).Sublist (table.map Prod.fst)
  used : ∀ entry ∈ table, entry.1 ∈ items.filterMap Item.flag? ↔ entry.2

private theorem head?_of_isFlag {argument : String} (h : isFlag argument) :
    argument.toList.head? = some '-' := by
  unfold isFlag at h
  split at h
  · next hlist => rw [hlist, List.head?_cons]
  · cases h

private theorem not_isFlag_of_check {input output : String}
    (h : ResourceName.check input output = .ok ()) : ¬isFlag output := by
  intro hflag
  unfold ResourceName.check at h
  split_ifs at h with hinput houtput
  simp only [Bool.not_eq_true', Bool.not_eq_false, ResourceName.isPlain, Bool.and_eq_true,
    bne_iff_ne] at houtput
  exact houtput.1.1.2 (head?_of_isFlag hflag)

private theorem exists_reads {seeks : Prop} {rest : List (String × Prop)} {front back : List String}
    (input : String) {output : String} (hfront : Writes [("-ss", seeks)] front)
    (hback : Writes rest back) (hnodup : ("-ss" :: "-i" :: rest.map Prod.fst).Nodup)
    (houtput : ¬isFlag output) :
    ∃ items, Reads (("-ss", seeks) :: ("-i", True) :: rest) input output
      (front ++ "-i" :: input :: back ++ [output]) items := by
  obtain ⟨before, hbefore, hlegible, rfl⟩ := hfront
  obtain ⟨after, hafter, hlegible', rfl⟩ := hback
  let options := before ++ .option "-i" input :: after
  have hfits : Fits (("-ss", seeks) :: ("-i", True) :: rest) options :=
    hbefore.append (.take trivial rfl hafter)
  have hflags : (options ++ [Item.name output]).filterMap Item.flag? =
      options.filterMap Item.flag? := by
    simp [Item.flag?]
  have hitems : ∀ item ∈ options ++ [Item.name output], item.Legible := by
    simp only [options, List.mem_append, List.mem_cons, List.not_mem_nil, or_false]
    rintro item ((hitem | rfl | hitem) | rfl)
    · exact hlegible item hitem
    · exact ⟨by decide, by decide⟩
    · exact hlegible' item hitem
    · exact houtput
  have hwrite : (options ++ [Item.name output]).flatMap Item.write =
      before.flatMap Item.write ++ "-i" :: input :: after.flatMap Item.write ++ [output] := by
    simp [options, Item.write]
  refine ⟨options ++ [.name output], ?read, ?sole, ?input, ⟨options, rfl, ?options⟩, ?once,
    ?ordered, ?used⟩
  case read =>
    rw [← hwrite]
    exact read?_write hitems
  case sole =>
    intro others
    constructor
    · rintro ⟨hothers, heq⟩
      exact eq_of_write_eq hothers hitems (heq.trans hwrite.symm)
    · rintro rfl
      exact ⟨hitems, hwrite⟩
  case input =>
    refine ⟨before, after ++ [.name output], by simp [options], ?_, ?_⟩
    · intro item hitem
      obtain ⟨flag, hmem, hflag⟩ := hbefore.exists_flag item hitem
      rw [hflag, List.mem_singleton.1 hmem]
    · intro item hitem
      rcases List.mem_append.1 hitem with hitem | hitem
      · obtain ⟨flag, hmem, hflag⟩ := hafter.exists_flag item hitem
        rw [List.nodup_cons, List.mem_cons, List.nodup_cons, not_or] at hnodup
        rw [hflag, ne_eq, ne_eq, Option.some_inj, Option.some_inj]
        constructor
        · rintro rfl
          exact hnodup.1.2 hmem
        · rintro rfl
          exact hnodup.2.1 hmem
      · rw [List.mem_singleton.1 hitem]
        simp [Item.flag?]
  case options =>
    intro item hitem
    obtain ⟨flag, -, hflag⟩ := hfits.exists_flag item hitem
    rw [hflag, Option.isSome_some]
  case once =>
    rw [hflags]
    exact hnodup.sublist hfits.flags_sublist
  case ordered =>
    rw [hflags]
    exact hfits.flags_sublist
  case used =>
    rw [hflags]
    exact hfits.mem_flags_iff hnodup

theorem compile_reads (e : Extraction) (policy : DuplicatePolicy) (settings : Settings)
    {input output : String} (h : ResourceName.check input output = .ok ()) :
    ∃ items, Reads (table (e.plan policy) settings) input output
      ((e.plan policy).compile input output settings) items := by
  have hback := (((duration_writes e policy settings.timePrecision).append
    (videoFilters_writes (e.plan policy) settings)).append (audio_writes e policy)).append
      (format_writes (e.plan policy) settings)
  have hreads := exists_reads input (seek_writes e policy settings.timePrecision) hback
    (by simp) (not_isFlag_of_check h)
  simp only [List.cons_append, List.nil_append, List.append_assoc] at hreads
  simpa only [Plan.compile, table, List.cons_append, List.nil_append, List.append_assoc] using hreads

/-- A codec that is named like a switch is the value of its option all the same. -/
theorem compile_reads_codec :
    let e : Extraction := ⟨[⟨0, .phrase .mute, .mute⟩, ⟨5, .phrase .speed, .speed 2⟩], .mp4⟩
    let settings : Settings := { mp4 := { videoCodec := "-an" } }
    settings.check = .ok () ∧ ResourceName.check "in.mp4" "out.mp4" = .ok () ∧
      ∃ items, Reads (table (e.plan .last) settings) "in.mp4" "out.mp4"
        ((e.plan .last).compile "in.mp4" "out.mp4" settings) items := by
  intro e settings
  exact ⟨by decide +kernel, by decide +kernel, compile_reads e .last settings (by decide +kernel)⟩

/-- The sound codec of MP4 stands before the last option of that format. -/
theorem compile_sound_before_movflags :
    let e : Extraction := ⟨[⟨0, .phrase .grayscale, .grayscale⟩], .mp4⟩
    Settings.check {} = .ok () ∧ ResourceName.check "in.mp4" "out.mp4" = .ok () ∧
      ¬∃ items, read? ((e.plan .first).compile "in.mp4" "out.mp4" {}) = some items ∧
        (items.filterMap Item.flag?).Sublist ["-ss", "-i", "-t", "-vf", "-an", "-af", "-c:v",
          "-preset", "-pix_fmt", "-movflags", "-c:a", "-loop"] := by
  intro e
  refine ⟨by decide +kernel, by decide +kernel, ?_⟩
  rintro ⟨items, hread, hsublist⟩
  have hitems : read? ((e.plan .first).compile "in.mp4" "out.mp4" {}) =
      some [.option "-i" "in.mp4", .option "-vf" "hue=s=0", .option "-c:v" "libx264",
        .option "-preset" "veryfast", .option "-pix_fmt" "yuv420p", .option "-c:a" "aac",
        .option "-movflags" "+faststart", .name "out.mp4"] := by
    decide +kernel
  rw [hitems] at hread
  cases hread
  revert hsublist
  decide +kernel

end Arguments
end VideoEdit
