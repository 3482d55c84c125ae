import VideoEdit.Proofs.Invocation.FilterText
import VideoEdit.Proofs.Invocation.Values
import VideoEdit.Proofs.Text.Quotes
/-!
# Chains of filters taken apart

The filters of a plan stand in one argument, joined by commas, and one of them has commas of its
own within quotes. Cut at the commas outside of quotes, the argument gives back the filters, in the
order in which the effects are applied.
-/
namespace VideoEdit

namespace Extraction
variable (e : Extraction) (policy : DuplicatePolicy)

private theorem mem_plan_iff_chosen? (op : Operation) :
    op ∈ (e.plan policy).operations ↔ e.chosen? policy op.kind = some op := by
  rw [mem_plan_iff, chosen?_eq_some_iff, and_iff_left rfl]

theorem plan_contains (kind : Kind) :
    (e.plan policy).contains kind = (e.chosen? policy kind).isSome := by
  rw [Bool.eq_iff_iff, Option.isSome_iff_exists]
  simp only [Plan.contains, List.any_eq_true, decide_eq_true_eq, mem_plan_iff,
    chosen?_eq_some_iff]

private theorem plan_flatMap {α : Type} (make : Operation → List α) :
    (e.plan policy).operations.flatMap make =
      Kind.all.flatMap fun kind => (e.chosen? policy kind).toList.flatMap make := by
  simp only [plan, List.filterMap_eq_flatMap_toList, List.flatMap_assoc]

end Extraction

namespace Filters

/-- The pieces of a chain of filters: a comma within quotes belongs to its filter. -/
def pieces (chain : String) : List (List Char) := unquotedFields ',' '\'' false chain.toList

/-- The name of a filter: what stands before its first equals sign. -/
def name (filter : String) : String := String.ofList (filter.toList.takeWhile (· ≠ '='))

/-- The names of the filters that a plan calls for: effect by effect, a portrait crop with two of
them, and the frame rate of a GIF last. -/
def names (plan : Plan) : List String :=
  (if plan.contains .grayscale then ["hue"] else []) ++
    (if plan.contains .speed then ["setpts"] else []) ++
    (if plan.contains .brightness then ["eq"] else []) ++
    (if .crop .square ∈ plan.operations then ["crop"] else []) ++
    (if .crop .portraitFill ∈ plan.operations then ["scale", "crop"] else []) ++
    if plan.output = .gif then ["fps"] else []

private theorem sealed_ofOperation (portrait : PortraitSettings) (op : Operation) :
    ∀ filter ∈ ofOperation portrait op, Sealed ',' '\'' filter.toList := by
  have hnumber (n : Nat) : ',' ∉ Nat.toDigits 10 n ∧ '\'' ∉ Nat.toDigits 10 n :=
    ⟨not_mem_toDigits (by decide) n, not_mem_toDigits (by decide) n⟩
  intro filter hfilter
  cases op with
  | trim | mute => cases hfilter
  | grayscale =>
    rw [List.mem_singleton.1 hfilter]
    decide
  | speed factor =>
    rw [List.mem_singleton.1 hfilter]
    refine sealed_of_not_mem (comma_not_mem_setpts factor) ?_
    have hquote : '\'' ∉ (1 / factor).toFixed (multiplierPlaces (1 / factor)) :=
      Binary64.not_mem_toFixed (by decide) _ _
    simp [setpts, hquote]
  | brightness value =>
    have hcomma : ',' ∉ value.toDecimal 2 := Binary64.not_mem_toDecimal (by decide) 2 value
    have hquote : '\'' ∉ value.toDecimal 2 := Binary64.not_mem_toDecimal (by decide) 2 value
    rw [List.mem_singleton.1 hfilter]
    refine sealed_of_not_mem ?_ ?_ <;> simp [decimalText, hcomma, hquote]
  | crop mode =>
    cases mode with
    | square =>
      rw [List.mem_singleton.1 hfilter]
      decide
    | portraitFill =>
      obtain ⟨hwidth, hwidth'⟩ := hnumber portrait.width
      obtain ⟨hheight, hheight'⟩ := hnumber portrait.height
      simp only [ofOperation, List.mem_cons, List.not_mem_nil, or_false] at hfilter
      rcases hfilter with rfl | rfl
      · refine sealed_of_not_mem ?_ ?_ <;> simp [hwidth, hheight, hwidth', hheight']
      · refine sealed_of_not_mem ?_ ?_ <;> simp [hwidth, hheight, hwidth', hheight']

private theorem sealed_video (plan : Plan) (settings : Settings) :
    ∀ filter ∈ video plan settings, Sealed ',' '\'' filter.toList := by
  intro filter hfilter
  rcases List.mem_append.1 hfilter with hfilter | hfilter
  · obtain ⟨op, -, hfilter⟩ := List.mem_flatMap.1 hfilter
    exact sealed_ofOperation settings.portrait op filter hfilter
  · split_ifs at hfilter
    · have hcomma := not_mem_toDigits (by decide : ','.isDigit = false) settings.gif.fps
      have hquote := not_mem_toDigits (by decide : '\''.isDigit = false) settings.gif.fps
      rw [List.mem_singleton.1 hfilter]
      refine sealed_of_not_mem ?_ ?_ <;> simp [hcomma, hquote]
    · cases hfilter

/-- The chain of the filters of a plan is cut into these filters. -/
theorem pieces_video {plan : Plan} {settings : Settings} (h : video plan settings ≠ []) :
    pieces (",".intercalate (video plan settings)) = (video plan settings).map String.toList := by
  have hsealed : ∀ text ∈ (video plan settings).map String.toList, Sealed ',' '\'' text := by
    intro text htext
    obtain ⟨filter, hfilter, rfl⟩ := List.mem_map.1 htext
    exact sealed_video plan settings filter hfilter
  rw [pieces, String.toList_intercalate]
  exact unquotedFields_intercalate (by decide) (by simpa using h) hsealed

/-- The names of the filters of an effect that is no crop. -/
def kindNames : Kind → List String
  | .grayscale => ["hue"]
  | .speed => ["setpts"]
  | .brightness => ["eq"]
  | .trim | .crop | .mute => []

def effectNames : Operation → List String
  | .crop .square => ["crop"]
  | .crop .portraitFill => ["scale", "crop"]
  | op => kindNames op.kind

private theorem map_name_ofOperation (portrait : PortraitSettings) (op : Operation) :
    (ofOperation portrait op).map name = effectNames op := by
  cases op with
  | trim | grayscale | mute => rfl
  | speed factor => simp [ofOperation, effectNames, kindNames, Operation.kind, setpts, name]
  | brightness value => simp [ofOperation, effectNames, kindNames, Operation.kind, name]
  | crop mode => cases mode <;> simp [ofOperation, effectNames, name]

private theorem name_step (factor : Binary64) : name (Tempo.step factor) = "atempo" := by
  simp [Tempo.step, name]

section Order
variable (e : Extraction) (policy : DuplicatePolicy)

private theorem effectNames_chosen? {kind : Kind} (h : kind ≠ .crop) :
    (e.chosen? policy kind).toList.flatMap effectNames =
      if (e.plan policy).contains kind then kindNames kind else [] := by
  rw [e.plan_contains]
  cases hchosen : e.chosen? policy kind with
  | none => rfl
  | some op =>
    obtain rfl := ((e.chosen?_eq_some_iff policy kind op).1 hchosen).2
    cases op with
    | crop => exact absurd rfl h
    | _ => simp [effectNames]

private theorem effectNames_chosen?_crop :
    (e.chosen? policy .crop).toList.flatMap effectNames =
      (if .crop .square ∈ (e.plan policy).operations then ["crop"] else []) ++
        if .crop .portraitFill ∈ (e.plan policy).operations then ["scale", "crop"] else [] := by
  simp only [e.mem_plan_iff_chosen? policy, Operation.kind]
  cases hchosen : e.chosen? policy .crop with
  | none => rfl
  | some op =>
    have hkind := ((e.chosen?_eq_some_iff policy .crop op).1 hchosen).2
    cases op with
    | crop mode => cases mode <;> simp [effectNames]
    | _ => cases hkind

private theorem map_name_video (settings : Settings) :
    (video (e.plan policy) settings).map name = names (e.plan policy) := by
  have hnames := List.flatMap_congr (l := (e.plan policy).operations)
    fun op _ => map_name_ofOperation settings.portrait op
  have hrate : (if (e.plan policy).output = .gif then ["fps=" ++ settings.gif.fps.repr]
      else []).map name = if (e.plan policy).output = .gif then ["fps"] else [] := by
    split_ifs <;> simp [name]
  -- A plan has at most one operation of each kind, so the names come kind by kind.
  rw [video, List.map_append, List.map_flatMap, hnames, hrate, e.plan_flatMap policy]
  simp [Kind.all, effectNames_chosen?, effectNames_chosen?_crop, kindNames, names]

private theorem ne_empty_of_mem_video (settings : Settings) :
    ∀ filter ∈ video (e.plan policy) settings, filter ≠ "" := by
  rintro filter hfilter rfl
  have hname : name "" ∈ names (e.plan policy) := by
    rw [← map_name_video e policy settings]
    exact List.mem_map_of_mem hfilter
  simp [names, name] at hname

end Order

end Filters

namespace Arguments

/-- An invocation names the filters of its plan in full. Cut at the commas outside of quotes, the
one value for the pictures is the list of the video filters, none of them empty, effect by effect;
cut at its commas, the one value for the sound is one tempo filter for each factor of the tempo,
which reads as that factor to four places. -/
theorem compile_filters (e : Extraction) (policy : DuplicatePolicy) (settings : Settings)
    (input output : String) :
    ∃ items, read? ((e.plan policy).compile input output settings).dropLast = some items ∧
      (valuesOf "-vf" items).map Filters.pieces =
        (if Filters.video (e.plan policy) settings = [] then []
          else [(Filters.video (e.plan policy) settings).map String.toList]) ∧
      (∀ filter ∈ Filters.video (e.plan policy) settings, filter ≠ "") ∧
      (Filters.video (e.plan policy) settings).map Filters.name = Filters.names (e.plan policy) ∧
      (valuesOf "-af" items).map (fun chain => fields ',' chain.toList) =
        (if (e.plan policy).tempi = [] then []
          else [(e.plan policy).tempi.map fun factor => (Tempo.step factor).toList]) ∧
      ∀ factor ∈ (e.plan policy).tempi, Filters.name (Tempo.step factor) = "atempo" ∧
        Tempo.factor? (Tempo.step factor).toList = some (factor.atPlaces 4) := by
  obtain ⟨items, hread, -, -, hvideo, haudio⟩ :=
    exists_values (e.plan policy) settings input output
  refine ⟨items, hread, ?_, Filters.ne_empty_of_mem_video e policy settings,
    Filters.map_name_video e policy settings, ?_, ?_⟩
  · rw [hvideo, videoChain]
    split_ifs with hfilters
    · rfl
    · rw [List.map_singleton, Filters.pieces_video hfilters]
  · rw [haudio, Tempo.filter?]
    split_ifs with htempi
    · rfl
    · rw [Option.toList_some, List.map_singleton, Tempo.fields_steps htempi, List.map_map]
      rfl
  · intro factor hfactor
    exact ⟨Filters.name_step factor, Tempo.factor?_step (e.isFinite_of_mem_tempi policy hfactor)⟩

end Arguments
end VideoEdit
