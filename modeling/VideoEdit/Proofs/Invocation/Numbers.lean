import VideoEdit.Proofs.Invocation.FilterText
import VideoEdit.Proofs.Invocation.Values
/-!
# Printed numbers

The numbers in a compiled plan are those that its operations call for, and they are plain decimals,
with one exception: the reciprocal of a speed can be too large for a double, and then the pictures
are rescaled by an infinite number.
-/
namespace VideoEdit
open Binary64

namespace Filters

def number? (filter : List Char) : Option (List Char) :=
  ((filter.dropPrefix? "setpts=".toList).bind fun rest => rest.dropSuffix? "*PTS".toList) <|>
    filter.dropPrefix? "eq=brightness=".toList

def numbers (chain : String) : List (List Char) := (fields ',' chain.toList).filterMap number?

end Filters

namespace Tempo

def number? (filter : List Char) : Option (List Char) := filter.dropPrefix? "atempo=".toList

def numbers? (chain : String) : Option (List (List Char)) := (fields ',' chain.toList).mapM number?

end Tempo

def Operation.numbers : Operation → List (List Char)
  | speed factor => [(1 / factor).toFixed (Filters.multiplierPlaces (1 / factor))]
  | brightness value => [value.toDecimal 2]
  | trim .. | grayscale | mute | crop _ => []

/-- The numbers of a plan: its times, what its operations print into video filters, and the factors
of the tempo. -/
def Plan.numbers (p : Plan) (settings : Settings) : List (List Char) :=
  (p.seek?.toList ++ p.length?.toList).map (toFixed settings.timePrecision) ++
    (p.operations.flatMap Operation.numbers ++ p.tempi.map (toDecimal 4))

namespace Filters

private theorem numbers_of_not_mem {filter : String} (h : ',' ∉ filter.toList) :
    numbers filter = (number? filter.toList).toList := by
  rw [numbers, fields_of_not_mem h]
  cases hnumber : number? filter.toList <;> simp [hnumber]

private theorem numbers_setpts (factor : Binary64) :
    numbers (setpts factor) = [(1 / factor).toFixed (multiplierPlaces (1 / factor))] := by
  rw [numbers_of_not_mem (comma_not_mem_setpts factor)]
  unfold number? setpts
  simp only [String.toList_append, String.toList_ofList, List.append_assoc, dropPrefix?_append,
    dropSuffix?_append, Option.bind_some]
  rfl

private theorem numbers_brightness (value : Binary64) :
    numbers ("eq=brightness=" ++ decimalText 2 value) = [value.toDecimal 2] := by
  have hcomma : ',' ∉ ("eq=brightness=" ++ decimalText 2 value).toList := by
    have hnumber : ',' ∉ value.toDecimal 2 := not_mem_toDecimal (by decide) 2 value
    simp [decimalText, hnumber]
  have hother (text : List Char) :
      ("eq=brightness=".toList ++ text).dropPrefix? "setpts=".toList = none := by
    rfl
  rw [numbers_of_not_mem hcomma]
  unfold number? decimalText
  simp only [String.toList_append, String.toList_ofList, dropPrefix?_append, hother,
    Option.bind_none]
  rfl

private theorem numbers_ofOperation (portrait : PortraitSettings) (op : Operation) :
    (ofOperation portrait op).flatMap numbers = op.numbers := by
  cases op with
  | trim => rfl
  | mute => rfl
  | grayscale =>
    have hnone : numbers "hue=s=0" = [] := by decide
    rw [ofOperation, List.flatMap_singleton, hnone]
    rfl
  | speed factor =>
    rw [ofOperation, List.flatMap_singleton]
    exact numbers_setpts factor
  | brightness value =>
    rw [ofOperation, List.flatMap_singleton]
    exact numbers_brightness value
  | crop mode =>
    cases mode with
    | square =>
      have hnone : numbers "crop='min(iw,ih)':'min(iw,ih)'" = [] := by decide
      rw [ofOperation, List.flatMap_singleton, hnone]
      rfl
    | portraitFill =>
      have hwidth := not_mem_toDigits (by decide : ','.isDigit = false) portrait.width
      have hheight := not_mem_toDigits (by decide : ','.isDigit = false) portrait.height
      rw [ofOperation, List.flatMap_cons, List.flatMap_singleton,
        numbers_of_not_mem (by simp [hwidth, hheight]),
        numbers_of_not_mem (by simp [hwidth, hheight])]
      simp only [String.toList_append, List.append_assoc]
      rfl

private theorem numbers_video (plan : Plan) (settings : Settings) :
    (video plan settings).flatMap numbers = plan.operations.flatMap Operation.numbers := by
  have hrate : (if plan.output = .gif then ["fps=" ++ settings.gif.fps.repr]
      else []).flatMap numbers = [] := by
    split_ifs
    · have hcomma := not_mem_toDigits (by decide : ','.isDigit = false) settings.gif.fps
      rw [List.flatMap_singleton, numbers_of_not_mem (by simp [hcomma]), String.toList_append]
      rfl
    · rfl
  rw [video, List.flatMap_append, hrate, List.append_nil, List.flatMap_assoc]
  exact List.flatMap_congr fun op _ => numbers_ofOperation settings.portrait op

private theorem numbers_videoChain (plan : Plan) (settings : Settings) :
    (Arguments.videoChain plan settings).flatMap numbers =
      plan.operations.flatMap Operation.numbers := by
  unfold Arguments.videoChain
  dsimp only
  rw [← numbers_video plan settings]
  split_ifs with hfilters
  · rw [hfilters, List.flatMap_nil]
  · rw [List.flatMap_singleton]
    exact filterMap_fields_intercalate number? hfilters

end Filters

namespace Tempo

private theorem number?_step (factor : Binary64) :
    number? (step factor).toList = some (factor.toDecimal 4) := by
  simp only [number?, step, String.toList_append, String.toList_ofList, dropPrefix?_append]

private theorem numbers?_steps {chain : List Binary64} (hne : chain ≠ []) :
    numbers? (",".intercalate (chain.map step)) = some (chain.map (toDecimal 4)) := by
  rw [numbers?, fields_steps hne, List.map_map, List.mapM_map]
  exact mapM_eq_some_map (toDecimal 4) fun x _ => number?_step x

end Tempo

namespace Arguments

/-- The texts of the numbers that arguments are read to have: the times, then the numbers of the
video filters and those of the tempo filters. -/
def numbers? (arguments : List String) : Option (List (List Char)) := do
  let items ← read? arguments
  let tempi ← (valuesOf "-af" items).mapM Tempo.numbers?
  return (valuesOf "-ss" items ++ valuesOf "-t" items).map String.toList ++
    ((valuesOf "-vf" items).flatMap Filters.numbers ++ tempi.flatten)

private theorem map_times (settings : Settings) (time? : Option Binary64) :
    (times settings time?).map String.toList =
      time?.toList.map (toFixed settings.timePrecision) := by
  cases time? <;> simp [times]

private theorem numbers?_compile (plan : Plan) (settings : Settings) (input output : String) :
    numbers? (plan.compile input output settings).dropLast = some (plan.numbers settings) := by
  obtain ⟨items, hread, hseek, hlength, hvideo, haudio⟩ :=
    exists_values plan settings input output
  obtain ⟨tempi, htempi, hflatten⟩ := Tempo.mapM_filter? plan.tempi Tempo.numbers?_steps
  unfold numbers?
  rw [hread, Option.bind_eq_bind, Option.bind_some, haudio, htempi, Option.bind_eq_bind,
    Option.bind_some, hseek, hlength, hvideo, Filters.numbers_videoChain, hflatten,
    List.map_append, map_times, map_times, ← List.map_append]
  rfl

section Plain
variable (e : Extraction) (policy : DuplicatePolicy)

theorem isFinite_of_seek? {time : Binary64} (h : (e.plan policy).seek? = some time) :
    time.isFinite := by
  obtain ⟨hstart, -⟩ := Option.filter_eq_some_iff.1 h
  obtain ⟨⟨start, finish⟩, htrim, rfl⟩ := Option.map_eq_some_iff.1 hstart
  have hvalid := e.plan_valid policy ((e.plan_trim?_iff policy start finish).1 htrim)
  simp only [Operation.isValid, Bool.and_eq_true] at hvalid
  exact hvalid.1.1

theorem window_bounds {start finish : Binary64}
    (h : .trim start (some finish) ∈ (e.plan policy).operations) :
    (start.isFinite ∧ atMost 0 start) ∧ finish.isFinite ∧ start.less finish := by
  have hvalid := e.plan_valid policy h
  simpa only [Operation.isValid, Bool.and_eq_true, Option.all_some] using hvalid

theorem isFinite_of_length? {length : Binary64} (h : (e.plan policy).length? = some length) :
    length.isFinite := by
  obtain ⟨⟨start, finish?⟩, htrim, hlength⟩ := Option.bind_eq_some_iff.1 h
  obtain ⟨finish, hfinish, rfl⟩ := Option.map_eq_some_iff.1 hlength
  obtain ⟨rfl, hless⟩ := Option.filter_eq_some_iff.1 hfinish
  obtain ⟨⟨hstart, hzero⟩, hend, -⟩ :=
    window_bounds e policy ((e.plan_trim?_iff policy start (some finish)).1 htrim)
  -- A window is no longer than its end is late.
  exact isFinite_sub hstart hend hzero hless

private theorem plain_of_operation {op : Operation} (hop : op ∈ (e.plan policy).operations) :
    ∀ number ∈ op.numbers, (Decimal.read? number).isSome ∨
      number = "inf".toList ∧ ∃ f, op = .speed f ∧ ¬(1 / f).isFinite := by
  intro number hnumber
  cases op with
  | trim | grayscale | mute | crop => cases hnumber
  | speed f =>
    obtain ⟨hf, hpos⟩ := e.plan_speed_pos policy hop
    rw [Operation.numbers, List.mem_singleton] at hnumber
    by_cases hfinite : (1 / f).isFinite
    · left
      rw [hnumber, read?_toFixed hfinite]
      rfl
    · right
      refine ⟨?_, f, rfl, hfinite⟩
      rw [hnumber, one_div_eq_infinite hf hpos hfinite]
      rfl
  | brightness value =>
    have hvalid := e.plan_valid policy hop
    simp only [Operation.isValid, Bool.and_eq_true] at hvalid
    left
    rw [List.mem_singleton.1 hnumber, read?_toDecimal hvalid.1.1]
    rfl

private theorem plain_of_mem_numbers (settings : Settings) :
    ∀ number ∈ (e.plan policy).numbers settings, (Decimal.read? number).isSome ∨
      number = "inf".toList ∧ ∃ f, .speed f ∈ (e.plan policy).operations ∧ ¬(1 / f).isFinite := by
  intro number hnumber
  simp only [Plan.numbers, List.mem_append, List.mem_map, List.mem_flatMap,
    Option.mem_toList] at hnumber
  rcases hnumber with ⟨time, htime, rfl⟩ | ⟨op, hop, hnumber⟩ | ⟨factor, hfactor, rfl⟩
  · have hfinite : time.isFinite :=
      htime.elim (isFinite_of_seek? e policy) (isFinite_of_length? e policy)
    left
    rw [read?_toFixed hfinite]
    rfl
  · obtain hplain | ⟨hinfinite, f, rfl, hsmall⟩ := plain_of_operation e policy hop number hnumber
    · exact .inl hplain
    · exact .inr ⟨hinfinite, f, hop, hsmall⟩
  · left
    rw [read?_toDecimal (e.isFinite_of_mem_tempi policy hfactor)]
    rfl

private theorem infinite_mem_numbers (settings : Settings) {f : Binary64}
    (hspeed : .speed f ∈ (e.plan policy).operations) (hsmall : ¬(1 / f).isFinite) :
    "inf".toList ∈ (e.plan policy).numbers settings := by
  obtain ⟨hf, hpos⟩ := e.plan_speed_pos policy hspeed
  refine List.mem_append_right _ (List.mem_append_left _ (List.mem_flatMap.2 ⟨_, hspeed, ?_⟩))
  rw [Operation.numbers, one_div_eq_infinite hf hpos hsmall]
  exact List.mem_singleton_self _

/-- The numbers that a compiled plan has in it are those of the plan. Each of them is a plain decimal
or the word for an infinity, and all of them are plain exactly if the speed, if it changes, has a
reciprocal. -/
theorem compile_numbers (settings : Settings) (input output : String) :
    numbers? ((e.plan policy).compile input output settings).dropLast =
        some ((e.plan policy).numbers settings) ∧
      (∀ number ∈ (e.plan policy).numbers settings,
        (Decimal.read? number).isSome ∨ number = "inf".toList) ∧
      ((∀ number ∈ (e.plan policy).numbers settings, (Decimal.read? number).isSome) ↔
        ∀ f, .speed f ∈ (e.plan policy).operations → (1 / f).isFinite) := by
  refine ⟨numbers?_compile _ settings input output, ?either, ?plain, ?finite⟩
  case either =>
    intro number hnumber
    exact (plain_of_mem_numbers e policy settings number hnumber).imp_right And.left
  case plain =>
    -- The word for an infinity is no plain decimal.
    intro hplain f hspeed
    by_contra hsmall
    have hinfinite := hplain _ (infinite_mem_numbers e policy settings hspeed hsmall)
    revert hinfinite
    decide
  case finite =>
    intro hfinite number hnumber
    obtain hplain | ⟨-, f, hspeed, hsmall⟩ := plain_of_mem_numbers e policy settings number hnumber
    · exact hplain
    · exact absurd (hfinite f hspeed) hsmall

/-- The least positive double has no reciprocal, and the pictures are rescaled by an infinity. -/
theorem compile_numbers_infinite :
    let least : Binary64 := .fraction 1 (2 ^ 1074)
    let e : Extraction := ⟨[⟨0, .phrase .speed, .speed least⟩, ⟨9, .phrase .mute, .mute⟩], .mp4⟩
    .speed least ∈ (e.plan .first).operations ∧
      numbers? ((e.plan .first).compile "in.mp4" "out.mp4" {}).dropLast = some ["inf".toList] ∧
      Decimal.read? "inf".toList = none := by
  decide +kernel

end Plain

end Arguments
end VideoEdit
