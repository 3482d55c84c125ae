import VideoEdit.Proofs.Edit.PrintedTempo
import VideoEdit.Proofs.Invocation.Multiplier
import VideoEdit.Proofs.Text.Fields
/-!
# Numbers in the text of filters

A chain of filters is cut at its commas. The filter that rescales timestamps and those that change
the tempo give back the numbers that were printed into them, and no other filter is taken for one.
-/
namespace VideoEdit
open Binary64

theorem dropPrefix?_append (front text : List Char) :
    (front ++ text).dropPrefix? front = some text :=
  List.dropPrefix?_append_of_beq text (beq_self_eq_true _)

theorem dropSuffix?_append (text back : List Char) :
    (text ++ back).dropSuffix? back = some text :=
  List.dropSuffix?_eq_some_iff.2 ⟨_, rfl, beq_self_eq_true _⟩

namespace Filters

/-- The number by which a filter rescales timestamps. -/
def multiplier? (filter : List Char) : Option ℚ := do
  let rest ← filter.dropPrefix? "setpts=".toList
  let number ← rest.dropSuffix? "*PTS".toList
  Decimal.read? number

/-- The numbers by which the filters of a chain rescale timestamps. A quoted comma cuts a filter in
two, but none of the parts rescales anything. -/
def multipliers (chain : String) : List ℚ := (fields ',' chain.toList).filterMap multiplier?

theorem filterMap_fields_intercalate {α : Type} (read : List Char → Option α)
    {filters : List String} (h : filters ≠ []) :
    (fields ',' (",".intercalate filters).toList).filterMap read =
      filters.flatMap fun filter => (fields ',' filter.toList).filterMap read := by
  have hcut : fields ',' (",".intercalate filters).toList =
      (filters.map String.toList).flatMap (fields ',') := by
    rw [String.toList_intercalate]
    exact fields_intercalate (by simpa using h)
  rw [hcut, List.filterMap_flatMap, List.flatMap_map]

theorem multipliers_intercalate {filters : List String} (h : filters ≠ []) :
    multipliers (",".intercalate filters) = filters.flatMap multipliers :=
  filterMap_fields_intercalate multiplier? h

theorem multipliers_of_not_mem {filter : String} (h : '*' ∉ filter.toList) :
    multipliers filter = [] := by
  -- A piece that is read as a multiplier ends in a product.
  rw [multipliers, List.filterMap_eq_nil_iff]
  intro field hfield
  cases hread : multiplier? field with
  | none => rfl
  | some number =>
    simp only [multiplier?, Option.bind_eq_bind, Option.bind_eq_some_iff,
      List.dropPrefix?_eq_some_iff, List.dropSuffix?_eq_some_iff] at hread
    obtain ⟨rest, ⟨name, rfl, -⟩, _, ⟨ending, rfl, hending⟩, -⟩ := hread
    refine absurd (mem_of_mem_fields hfield '*' ?_) h
    rw [eq_of_beq hending]
    simp

private theorem multiplier?_setpts {f : Binary64} (h : (1 / f).isFinite) :
    multiplier? (setpts f).toList = some (multiplier f) := by
  unfold setpts multiplier?
  simp only [String.toList_append, String.toList_ofList, List.append_assoc, dropPrefix?_append,
    dropSuffix?_append, Option.bind_eq_bind, Option.bind_some]
  exact read?_toFixed h _

theorem comma_not_mem_setpts (f : Binary64) : ',' ∉ (setpts f).toList := by
  have hnumber : ',' ∉ (1 / f).toFixed (multiplierPlaces (1 / f)) :=
    not_mem_toFixed (by decide) _ _
  simp [setpts, hnumber]

theorem multipliers_setpts {f : Binary64} (h : (1 / f).isFinite) :
    multipliers (setpts f) = [multiplier f] := by
  rw [multipliers, fields_of_not_mem (comma_not_mem_setpts f),
    List.filterMap_cons_some (multiplier?_setpts h), List.filterMap_nil]

theorem multipliers_ofOperation (portrait : PortraitSettings) {op : Operation}
    (hspeed : op.kind ≠ .speed) : (ofOperation portrait op).flatMap multipliers = [] := by
  rw [List.flatMap_eq_nil_iff]
  intro filter hfilter
  refine multipliers_of_not_mem ?_
  cases op with
  | trim => cases hfilter
  | mute => cases hfilter
  | grayscale =>
    rw [List.mem_singleton.1 hfilter]
    decide
  | speed => exact absurd rfl hspeed
  | brightness value =>
    have hnumber : '*' ∉ value.toDecimal 2 := not_mem_toDecimal (by decide) 2 value
    rw [List.mem_singleton.1 hfilter]
    simp [decimalText, hnumber]
  | crop mode =>
    have hwidth := not_mem_toDigits (by decide : '*'.isDigit = false) portrait.width
    have hheight := not_mem_toDigits (by decide : '*'.isDigit = false) portrait.height
    cases mode with
    | square =>
      rw [List.mem_singleton.1 hfilter]
      decide
    | portraitFill =>
      simp only [ofOperation, List.mem_cons, List.not_mem_nil, or_false] at hfilter
      rcases hfilter with rfl | rfl <;> simp [hwidth, hheight]

end Filters

namespace Tempo

/-- The factor by which a filter changes the tempo. -/
def factor? (filter : List Char) : Option ℚ := do
  let number ← filter.dropPrefix? "atempo=".toList
  Decimal.read? number

/-- The factors by which the filters of a chain change the tempo, if they all do. -/
def factors? (chain : String) : Option (List ℚ) := (fields ',' chain.toList).mapM factor?

theorem factor?_step {x : Binary64} (h : x.isFinite) :
    factor? (step x).toList = some (x.atPlaces 4) := by
  unfold step factor?
  simp only [String.toList_append, String.toList_ofList, dropPrefix?_append, Option.bind_eq_bind,
    Option.bind_some]
  exact read?_toDecimal h 4

theorem fields_steps {chain : List Binary64} (hne : chain ≠ []) :
    fields ',' (",".intercalate (chain.map step)).toList =
      (chain.map step).map String.toList := by
  have hcomma : ∀ text ∈ (chain.map step).map String.toList, ',' ∉ text := by
    intro text htext hmem
    rw [List.map_map] at htext
    obtain ⟨x, -, rfl⟩ := List.mem_map.1 htext
    simp only [Function.comp_apply, step, String.toList_append, String.toList_ofList,
      List.mem_append] at hmem
    rcases hmem with hname | hnumber
    · exact absurd hname (by decide)
    · exact not_mem_toDecimal (by decide) 4 x hnumber
  rw [String.toList_intercalate]
  exact fields_intercalate_of_not_mem (by simpa using hne) hcomma

theorem mapM_eq_some_map {α β : Type} {read : α → Option β} {l : List α} (print : α → β)
    (h : ∀ x ∈ l, read x = some (print x)) : l.mapM read = some (l.map print) := by
  induction l with
  | nil => rfl
  | cons x l ih =>
    have hrest := ih fun y hy => h y (List.mem_cons_of_mem x hy)
    rw [List.mapM_cons, h x List.mem_cons_self, hrest]
    rfl

private theorem factors?_steps {chain : List Binary64} (h : ∀ x ∈ chain, x.isFinite)
    (hne : chain ≠ []) :
    factors? (",".intercalate (chain.map step)) = some (chain.map (atPlaces 4)) := by
  rw [factors?, fields_steps hne, List.map_map, List.mapM_map]
  exact mapM_eq_some_map (atPlaces 4) fun x hx => factor?_step (h x hx)

theorem mapM_filter? {α : Type} {read : String → Option (List α)} {print : Binary64 → α}
    (chain : List Binary64)
    (h : chain ≠ [] → read (",".intercalate (chain.map step)) = some (chain.map print)) :
    ∃ lists, (filter? chain).toList.mapM read = some lists ∧ lists.flatten = chain.map print := by
  unfold filter?
  split_ifs with hchain
  · exact ⟨[], rfl, by rw [hchain]; rfl⟩
  · refine ⟨[chain.map print], ?_, List.flatten_singleton⟩
    rw [Option.toList_some, List.mapM_cons, h hchain]
    rfl

theorem mapM_factors?_filter? {chain : List Binary64} (h : ∀ x ∈ chain, x.isFinite) :
    ∃ factors, (filter? chain).toList.mapM factors? = some factors ∧
      factors.flatten = chain.map (atPlaces 4) :=
  mapM_filter? chain (factors?_steps h)

/-- The filter of a chain has one number for each factor. Each of them fits one filter instance, and
all of them multiply to nearly the factor of the whole chain. -/
theorem filter?_chain {f : Binary64} (hf : f.isFinite) (hpos : 0 < f.value) (hne : f ≠ 1) :
    ∃ text steps, filter? (chain f) = some text ∧ factors? text = some steps ∧
      steps.length = (chain f).length ∧ (∀ q ∈ steps, 1 / 2 ≤ q ∧ q ≤ 2) ∧
      |steps.prod - f.value| ≤ f.value / 10 ^ 4 := by
  have hchain : chain f ≠ [] := mt (chain_eq_nil_iff hf hpos).1 hne
  have hread := factors?_steps (fun x hx => isFinite_of_mem_chain hf hpos hx) hchain
  refine ⟨_, _, if_neg hchain, hread, List.length_map _, ?bounds, ?product⟩
  case bounds =>
    intro q hq
    obtain ⟨x, hx, rfl⟩ := List.mem_map.1 hq
    exact atPlaces_bounds hf hpos hx
  case product =>
    have herror := (printedProduct_error hf hpos).1
    norm_num at herror ⊢
    exact herror

/-- A seventh of the speed: two halves, and a last factor that is rounded. -/
theorem filter?_chain_seventh :
    let f : Binary64 := .fraction 1 7
    f.isFinite ∧ 0 < f.value ∧ f ≠ 1 ∧
      filter? (chain f) = some "atempo=0.5,atempo=0.5,atempo=0.5714" ∧
      ∃ steps, factors? "atempo=0.5,atempo=0.5,atempo=0.5714" = some steps ∧
        steps.length = 3 ∧ (∀ q ∈ steps, 1 / 2 ≤ q ∧ q ≤ 2) ∧
        |steps.prod - f.value| ≤ f.value / 10 ^ 4 := by
  intro f
  have hf : f.isFinite := by decide +kernel
  have hpos : 0 < f.value := by decide +kernel
  have hne : f ≠ 1 := by decide +kernel
  have hfilter : filter? (chain f) = some "atempo=0.5,atempo=0.5,atempo=0.5714" := by
    decide +kernel
  have hlength : (chain f).length = 3 := by decide +kernel
  obtain ⟨text, steps, htext, hread, hcount, hbounds, hproduct⟩ := filter?_chain hf hpos hne
  rw [hfilter, Option.some.injEq] at htext
  subst htext
  exact ⟨hf, hpos, hne, hfilter, steps, hread, hcount.trans hlength, hbounds, hproduct⟩

end Tempo
end VideoEdit
