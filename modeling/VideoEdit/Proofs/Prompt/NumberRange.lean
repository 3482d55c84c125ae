import VideoEdit.Proofs.Invocation.Chains
import VideoEdit.Proofs.Prompt.Direction
import VideoEdit.Proofs.Prompt.TimeNumeral
import VideoEdit.Proofs.Text.Fields
/-!
# Numbers in range

However long its numerals are, a prompt names no time and no factor below zero, no change of
brightness beyond [-1, 1], and never NaN. So the operations that a plan drops are windows without a
proper length and speeds of zero or infinity.
-/
namespace VideoEdit
attribute [local irreducible] unitsPerOne overflowUnits

/-- Whether the numbers of an operation lie where they should: times and factors at zero or above,
perhaps infinite, and changes of brightness in [-1, 1]. NaN lies nowhere. -/
def Operation.InRange : Operation → Prop
  | trim start finish => Binary64.atMost 0 start ∧ ∀ e ∈ finish, Binary64.atMost 0 e
  | speed factor => Binary64.atMost 0 factor
  | brightness value => Binary64.atMost (-1) value ∧ value.atMost 1
  | grayscale | mute | crop _ => True

/-- Whether an operation is a window with an infinite bound or with an end that is not after its
start, or a speed of zero or infinity. -/
def Operation.IsDegenerate : Operation → Prop
  | trim start finish =>
    start = .infinite false ∨ ∃ e ∈ finish, e = .infinite false ∨ e.atMost start
  | speed factor => factor.same 0 ∨ factor = .infinite false
  | grayscale | mute | brightness _ | crop _ => False

private theorem Operation.isValid_eq_false_iff {op : Operation} (h : op.InRange) :
    op.isValid = false ↔ op.IsDegenerate := by
  rw [← Bool.not_eq_true, not_iff_comm]
  cases op with
  | trim start finish =>
    obtain ⟨hstart, hfinish⟩ := h
    have hfinish' : (finish.all fun e => e.isFinite && start.less e) ↔
        ¬∃ e ∈ finish, e = .infinite false ∨ e.atMost start := by
      simp only [Option.all_eq_true, not_exists, not_and, not_or]
      refine forall₂_congr fun e he => ?_
      rw [Bool.and_eq_true, Binary64.isFinite_iff_of_zero_atMost (hfinish e he),
        Binary64.less_iff_not_atMost hstart (hfinish e he)]
    rw [IsDegenerate, not_or, isValid, Bool.and_eq_true, Bool.and_eq_true, hfinish',
      Binary64.isFinite_iff_of_zero_atMost hstart, and_iff_left hstart]
  | speed factor =>
    rw [IsDegenerate, not_or, isValid, Bool.and_eq_true, Binary64.isFinite_iff_of_zero_atMost h,
      Binary64.zero_less_iff h, and_comm]
  | brightness value =>
    obtain ⟨hlow, hhigh⟩ := h
    simp [IsDegenerate, isValid, hlow, hhigh, Binary64.isFinite_of_atMost hlow hhigh]
  | grayscale | mute | crop => simp [isValid, IsDegenerate]

private theorem Binary64.HasSign.mul_sixty {s : Bool} {x : Binary64} (h : x.HasSign s) :
    (x * 60).HasSign s := by
  have hsixty : (60 : Binary64) = .ofNat 60 := rfl
  rw [hsixty, ofNat_eq (by decide)]
  exact h.mul_pos _ (Nat.mul_pos (by decide) unitsPerOne_pos)

namespace Finding
variable {text : List Char} {seconds : Binary64}

private theorem hasSign_of_foldlM {parts : List (List Char)}
    (hparts : ∀ part ∈ parts, ∀ c ∈ part, isDecimalDigit c ∨ c = '.') {total : Binary64}
    (htotal : total.HasSign false)
    (h : parts.foldlM (fun total field => (Numeral.read? field).map (total * 60 + ·)) total =
      some seconds) : seconds.HasSign false := by
  induction parts generalizing total with
  | nil =>
    cases h
    exact htotal
  | cons part parts ih =>
    obtain ⟨hpart, hparts⟩ := List.forall_mem_cons.1 hparts
    rw [List.foldlM_cons] at h
    obtain ⟨next, hnext, h⟩ := Option.bind_eq_some_iff.1 h
    obtain ⟨value, hvalue, rfl⟩ := Option.map_eq_some_iff.1 hnext
    exact ih hparts (htotal.mul_sixty.add (Numeral.hasSign_of_read?_digits hpart hvalue)) h

private theorem hasSign_of_seconds? (h : ∀ c ∈ text, isDecimalDigit c ∨ c = '.' ∨ c = ':')
    {unit : Option (List Char)} (hseconds : seconds? text unit = some seconds) :
    seconds.HasSign false := by
  have hdigits {part : List Char} (hpart : ∀ c ∈ part, c ∈ text) (hcolon : ':' ∉ part) :
      ∀ c ∈ part, isDecimalDigit c ∨ c = '.' := by
    intro c hc
    rcases h c (hpart c hc) with hd | hpoint | rfl
    · exact Or.inl hd
    · exact Or.inr hpoint
    · contradiction
  unfold seconds? at hseconds
  split at hseconds
  · have hzero : (0 : Binary64).HasSign false := by
      rw [Binary64.zero_eq]
      rfl
    refine hasSign_of_foldlM ?_ hzero hseconds
    exact fun field hfield => hdigits (mem_of_mem_fields hfield) (not_mem_of_mem_fields hfield)
  · next hcolon =>
    obtain ⟨value, hvalue, rfl⟩ := Option.map_eq_some_iff.1 hseconds
    have hsign := Numeral.hasSign_of_read?_digits (hdigits (fun _ hc => hc) hcolon) hvalue
    split
    · exact hsign.mul_sixty
    · exact hsign

end Finding

namespace Phrase
variable {text : List Char} {m : Match Part} {part : Part} {numeral : List Char}

private theorem speed_groups : speed.isFlat ∧ ∀ g ∈ speed.groups,
    g.name ∈ [.target, .faster, .slower, .multiplier] → g.inner = number := by
  decide

private theorem level_groups : ∀ g ∈ brightness.groups, g.name = .level →
    g.inner = Pattern.maybe (Pattern.oneOf ["+", "-"]) ++ number := by
  decide

private theorem exists_digit_of_speed (hm : m ∈ speed.search text)
    (hpart : part ∈ [.target, .faster, .slower, .multiplier]) (h : m.text? part = some numeral) :
    ∃ c rest, numeral = c :: rest ∧ isDecimalDigit c := by
  obtain ⟨hflat, hgroups⟩ := speed_groups
  obtain ⟨g, hg, rfl, before, after, hreads⟩ := Pattern.exists_reads_of_text? hflat hm h
  rw [hgroups g hg hpart] at hreads
  exact exists_digit_of_reads_number hreads

private theorem exists_digit_of_level (hm : m ∈ brightness.search text)
    (h : m.text? .level = some numeral) :
    ∃ sign ∈ [[], ['+'], ['-']], ∃ c rest, numeral = sign ++ c :: rest ∧ isDecimalDigit c := by
  obtain ⟨g, hg, hname, before, after, hreads⟩ :=
    Pattern.exists_reads_of_text? (by decide : brightness.isFlat) hm h
  rw [level_groups g hg hname] at hreads
  obtain ⟨sign, v, rfl, hsign, hnumber⟩ := hreads
  obtain ⟨c, rest, rfl, hc⟩ := exists_digit_of_reads_number hnumber
  refine ⟨sign, ?_, c, rest, rfl, hc⟩
  rcases hsign with hsign | hsign
  · obtain ⟨word, hword, hspells⟩ := Pattern.reads_oneOf.1 hsign
    simp only [List.mem_cons, List.not_mem_nil, or_false] at hword
    rcases hword with rfl | rfl
    · rw [hspells.eq_of_not_isAlpha (by decide)]
      decide
    · rw [hspells.eq_of_not_isAlpha (by decide)]
      decide
  · obtain rfl : sign = [] := hsign
    decide

private theorem mem_time_classes {before : Option Char} {u after : List Char}
    (h : time.Reads before u after) : ∀ c ∈ u, isDecimalDigit c ∨ c = '.' ∨ c = ':' := by
  have hclasses : ∀ cls ∈ time.classes, cls = .digit ∨ cls = .literal '.' ∨ cls = .literal ':' := by
    decide
  intro c hc
  obtain ⟨cls, hcls, hacc⟩ := Pattern.exists_class_of_reads h c hc
  rcases hclasses cls hcls with rfl | rfl | rfl
  · exact Or.inl hacc
  · exact Or.inr (Or.inl (eq_of_foldCase (beq_iff_eq.1 hacc) (by decide)))
  · exact Or.inr (Or.inr (eq_of_foldCase (beq_iff_eq.1 hacc) (by decide)))

end Phrase

namespace Finding
variable {text : List Char} {m : Match Part}

private theorem hasSign_of_speedFactor? (hm : m ∈ Phrase.speed.search text) {factor : Binary64}
    (h : speedFactor? m = some factor) : factor.HasSign false := by
  have hread {part : Part} (hpart : part ∈ [.target, .faster, .slower, .multiplier])
      {numeral : List Char} (htext : m.text? part = some numeral) {number : Binary64}
      (hnumber : Numeral.read? numeral = some number) : number.HasSign false := by
    obtain ⟨c, rest, rfl, hc⟩ := Phrase.exists_digit_of_speed hm hpart htext
    exact Numeral.hasSign_of_read? hc hnumber
  unfold speedFactor? at h
  split at h
  · next numeral htarget =>
    obtain ⟨number, hnumber, hfactor⟩ := Option.bind_eq_some_iff.1 h
    cases hfactor
    have hsign := hread (by decide) htarget hnumber
    split
    · exact hsign.one_div
    · exact hsign
  · split at h
    · next numeral hnumeral =>
      rcases Option.or_eq_some_iff.1 hnumeral with hfaster | ⟨-, hmultiplier⟩
      · exact hread (by decide) hfaster h
      · exact hread (by decide) hmultiplier h
    · split at h
      · next numeral hslower =>
        obtain ⟨number, hnumber, rfl⟩ := Option.map_eq_some_iff.1 h
        exact (hread (by decide) hslower hnumber).one_div
      · split_ifs at h
        · cases h
          exact Binary64.hasSign_ofUnits false (2 * unitsPerOne) 1
        · cases h
          exact Binary64.hasSign_ofUnits false (1 * unitsPerOne) 2

private theorem brightnessOf_bounds (sign : List Char) (hsign : sign ∈ [[], ['+'], ['-']])
    {c : Char}
    (hc : isDecimalDigit c) {rest : List Char} {percent negative : Bool} {value : Binary64}
    (h : brightnessOf (sign ++ c :: rest) percent negative = some value) :
    Binary64.atMost (-1) value ∧ value.atMost 1 := by
  obtain ⟨number, hnumber, hvalue⟩ := Option.bind_eq_some_iff.1 h
  cases hvalue
  obtain ⟨s, hs⟩ := Numeral.exists_hasSign_of_read? hsign hc hnumber
  exact (hasSign_scaled hs percent negative).clamp_bounds

private theorem inRange_of_ofBrightness? (hm : m ∈ Phrase.brightness.search text) {op : Operation}
    (h : ofBrightness? m = some (.operation op)) : op.InRange := by
  unfold ofBrightness? at h
  split at h
  · next amount hamount =>
    obtain ⟨verb, -, h⟩ := Option.bind_eq_some_iff.1 h
    obtain ⟨value, hvalue, hop⟩ := Option.bind_eq_some_iff.1 h
    cases hop
    obtain ⟨c, rest, rfl, hc⟩ := Phrase.exists_digit_of_amount hm hamount
    exact brightnessOf_bounds [] (by decide) hc hvalue
  · obtain ⟨level, hlevel, h⟩ := Option.bind_eq_some_iff.1 h
    obtain ⟨value, hvalue, hop⟩ := Option.bind_eq_some_iff.1 h
    cases hop
    obtain ⟨sign, hsign, c, rest, rfl, hc⟩ := Phrase.exists_digit_of_level hm hlevel
    exact brightnessOf_bounds sign hsign hc hvalue

private theorem part_of_mem_times {finding : Finding} {part : Part} {number : Binary64}
    (h : (part, number) ∈ finding.times) : part ∈ [.start, .finish] := by
  unfold times at h
  split at h
  · simp only [List.mem_cons, List.mem_map, Prod.mk.injEq] at h
    rcases h with ⟨rfl, -⟩ | ⟨_, -, rfl, -⟩
    · decide
    · decide
  · cases List.mem_singleton.1 h
    decide
  · cases List.mem_singleton.1 h
    decide
  · cases h

end Finding

private theorem Found.hasSign_of_mem_times {text : List Char} {f : Found}
    (hf : f ∈ Prompt.findings text)
    {part : Part} {number : Binary64} (h : (part, number) ∈ f.finding.times) :
    number.HasSign false := by
  obtain ⟨m, hm, hfinding, -⟩ := Prompt.mem_findingsOf_match (Prompt.mem_findings.1 hf)
  obtain ⟨numeral, unit, hpart, hnumber⟩ := Rule.exists_seconds?_of_mem_times hfinding h
  obtain ⟨g, hg, rfl, before, after, hreads⟩ :=
    Pattern.exists_reads_of_text? f.rule.isFlat_shape hm hpart
  have hname := Finding.part_of_mem_times h
  rw [(Phrase.time_groups f.rule g hg hname).1] at hreads
  exact Finding.hasSign_of_seconds? (Phrase.mem_time_classes hreads) hnumber

/-- The operation that a finding names has its numbers in range. -/
theorem Found.inRange {text : List Char} {f : Found} (hf : f ∈ Prompt.findings text)
    {op : Operation} (hop : f.finding = .operation op) : op.InRange := by
  obtain ⟨m, hm, hfinding, -⟩ := Prompt.mem_findingsOf_match (Prompt.mem_findings.1 hf)
  rw [hop] at hfinding
  have hkind := Rule.kind?_of_finding? hfinding
  cases op with
  | trim start finish =>
    constructor
    · have hstart : (.start, start) ∈ f.finding.times := by simp [hop, Finding.times]
      exact (f.hasSign_of_mem_times hf hstart).zero_atMost
    · rintro e rfl
      have hfinish : (.finish, e) ∈ f.finding.times := by simp [hop, Finding.times]
      exact (f.hasSign_of_mem_times hf hfinish).zero_atMost
  | speed factor =>
    have hspeed : f.rule = .speed := Rule.eq_of_kind? hkind rfl
    rw [hspeed] at hm hfinding
    obtain ⟨_, hfactor, hsame⟩ := Option.map_eq_some_iff.1 hfinding
    cases hsame
    exact (Finding.hasSign_of_speedFactor? hm hfactor).zero_atMost
  | brightness value =>
    have hbrightness : f.rule = .brightness := Rule.eq_of_kind? hkind rfl
    rw [hbrightness] at hm hfinding
    exact Finding.inRange_of_ofBrightness? hm hfinding
  | grayscale | mute | crop => trivial

namespace Prompt

private theorem inRange_of_mem_mentions {prompt : String} {mention : Mention}
    (h : mention ∈ (parse prompt).mentions) : mention.operation.InRange := by
  rcases mem_assembleFindings.1 h with ⟨f, hf, hm⟩ | hm
  · exact f.inRange hf (finding_of_mention? hm)
  · obtain ⟨first, -, rfl⟩ := Option.map_eq_some_iff.1 hm
    have hloose {f : Found} (hf : f ∈ looseBounds (findings prompt.toList)) :
        f ∈ findings prompt.toList := (List.mem_filter.1 hf).1
    constructor
    · cases hs : (looseBounds (findings prompt.toList)).findSome? Found.startBound? with
      | none =>
        rw [Option.getD_none]
        exact Binary64.HasSign.zero_atMost (by rw [Binary64.zero_eq]; rfl)
      | some s =>
        obtain ⟨f, hf, hbound⟩ := List.exists_of_findSome?_eq_some hs
        rw [Option.getD_some]
        exact (f.hasSign_of_mem_times (hloose hf) (f.mem_times_of_startBound? hbound)).zero_atMost
    · intro e he
      obtain ⟨f, hf, hbound⟩ := List.exists_of_findSome?_eq_some he
      exact (f.hasSign_of_mem_times (hloose hf) (f.mem_times_of_finishBound? hbound)).zero_atMost

/-- Every mention has its numbers in range, so that those a plan drops are the degenerate ones: it
has an operation of a kind exactly if one that is not degenerate is mentioned. -/
theorem mentions_inRange (prompt : String) :
    (∀ mention ∈ (parse prompt).mentions, mention.operation.InRange ∧
      (mention.operation.isValid = false ↔ mention.operation.IsDegenerate)) ∧
    ∀ policy kind, (Plan.ofPrompt prompt policy).contains kind ↔
      ∃ mention ∈ (parse prompt).mentions,
        mention.operation.kind = kind ∧ ¬mention.operation.IsDegenerate := by
  have hdropped : ∀ mention ∈ (parse prompt).mentions,
      (mention.operation.isValid = false ↔ mention.operation.IsDegenerate) :=
    fun _ h => Operation.isValid_eq_false_iff (inRange_of_mem_mentions h)
  refine ⟨fun mention h => ⟨inRange_of_mem_mentions h, hdropped mention h⟩, ?_⟩
  intro policy kind
  rw [Plan.ofPrompt, Extraction.plan_contains, Extraction.chosen?_isSome_iff]
  refine exists_congr fun mention => and_congr_right fun h => ?_
  rw [← hdropped mention h, Bool.not_eq_false, Mention.counts, Bool.and_eq_true, decide_eq_true_eq,
    and_comm]

private def stopping : Match Part := ⟨0, 9, [(.slower, "0".toList)]⟩

private theorem search_stopping :
    Rule.speed.shape.search "0x slower".toList = [stopping] ∧
      Rule.speed.finding? stopping = some (.operation (.speed (.infinite false))) := by
  decide +kernel

/-- Slowing down by zero asks for an infinite speed, which no plan has. -/
theorem mentions_inRange_infinite :
    ⟨0, .phrase .speed, .speed (.infinite false)⟩ ∈ (parse "0x slower").mentions ∧
      (Operation.speed (.infinite false)).InRange ∧
      (Operation.speed (.infinite false)).isValid = false ∧
      (Operation.speed (.infinite false)).IsDegenerate := by
  obtain ⟨hsearch, hfinding⟩ := search_stopping
  have hmem : ⟨0, .phrase .speed, .speed (.infinite false)⟩ ∈ (parse "0x slower").mentions := by
    refine mem_mentions_phrase_iff.2 ⟨stopping, ?_, rfl, hfinding⟩
    rw [hsearch]
    exact List.mem_singleton_self stopping
  obtain ⟨hrange, hdropped⟩ := (mentions_inRange "0x slower").1 _ hmem
  have hdegenerate : (Operation.speed (.infinite false)).IsDegenerate := Or.inr rfl
  exact ⟨hmem, hrange, hdropped.2 hdegenerate, hdegenerate⟩

end Prompt
end VideoEdit
