import VideoEdit.Proofs.Edit.Selection
import VideoEdit.Proofs.Prompt.Account
/-!
# The window of loose bounds

The bounds of a window that stand alone are joined before duplicates are settled, so a plan cuts out
the window from the first start to the first end whichever mention its policy prefers.
-/
namespace VideoEdit

namespace Prompt

/-- The window from the start to the end that a policy picks among bounds. -/
def pickedWindow (policy : DuplicatePolicy) (bounds : List Found) : Operation :=
  .trim ((policy.pick (bounds.filterMap Found.startBound?)).getD 0)
    (policy.pick (bounds.filterMap Found.finishBound?))

private theorem boundsMention?_operation (bounds : List Found) :
    (boundsMention? bounds).map Mention.operation =
      bounds.head?.map fun _ => pickedWindow .first bounds := by
  cases bounds with
  | nil => rfl
  | cons first rest =>
    simp only [boundsMention?, pickedWindow, DuplicatePolicy.pick, List.head?_filterMap,
      List.head?_cons, Option.map_some]

private theorem findingsOf_eq_nil_of_finding? {text : List Char} {rule : Rule}
    (h : ∀ m ∈ rule.shape.search text, rule.finding? m = none) : findingsOf text rule = [] := by
  rw [findingsOf, List.filterMap_eq_nil_iff]
  intro m hm
  rw [h m hm, Option.map_none]

private theorem filter_phrases_trim {text : List Char} (h : findingsOf text .trimRange = []) :
    ((findings text).filterMap Found.mention?).filter (Mention.counts .trim) = [] := by
  rw [List.filter_eq_nil_iff]
  intro m hm hcounts
  obtain ⟨f, hf, hfm⟩ := List.mem_filterMap.1 hm
  rw [mem_findings] at hf
  obtain ⟨_, -, hfinding, -⟩ := mem_findingsOf_match hf
  rw [finding_of_mention? hfm] at hfinding
  simp only [Mention.counts, Bool.and_eq_true, decide_eq_true_eq] at hcounts
  have hkind := Rule.kind?_of_finding? hfinding
  rw [hcounts.2] at hkind
  have hrule : f.rule = .trimRange := Rule.eq_of_kind? hkind rfl
  rw [hrule, h] at hf
  cases hf

private theorem filter_mentions_trim {prompt : String}
    (h : findingsOf prompt.toList .trimRange = []) :
    (parse prompt).mentions.filter (Mention.counts .trim) =
      (boundsMention? (looseBounds (findings prompt.toList))).toList.filter
        (Mention.counts .trim) := by
  have hnone := filter_phrases_trim h
  rw [parse, assembleFindings_mentions]
  cases hwindow : boundsMention? (looseBounds (findings prompt.toList)) with
  | none => exact hnone
  | some window =>
    rw [Option.map_some, Option.getD_some, Option.toList_some]
    cases hcounts : window.counts .trim with
    | false =>
      rw [filter_insertMention_of_not hcounts, hnone, List.filter_cons_of_neg (by simp [hcounts])]
      rfl
    | true =>
      rw [filter_insertMention_of_pos hcounts hnone, List.filter_cons_of_pos hcounts]
      rfl

private theorem chosen?_trim_iff {prompt : String} (policy : DuplicatePolicy)
    (h : findingsOf prompt.toList .trimRange = []) (op : Operation) :
    (parse prompt).chosen? policy .trim = some op ↔
      looseBounds (findings prompt.toList) ≠ [] ∧ op.isValid ∧
        op = pickedWindow .first (looseBounds (findings prompt.toList)) := by
  have hcounts : ((fun op => op.isValid && op.kind = .trim) ∘ Mention.operation) =
      Mention.counts .trim := rfl
  have hwindow := boundsMention?_operation (looseBounds (findings prompt.toList))
  rw [Extraction.chosen?, List.filter_map, hcounts, filter_mentions_trim h]
  cases hloose : looseBounds (findings prompt.toList) with
  | nil => cases policy <;> simp [boundsMention?, DuplicatePolicy.pick]
  | cons first rest =>
    rw [hloose, List.head?_cons, Option.map_some] at hwindow
    obtain ⟨mention, hmention, hop⟩ := Option.map_eq_some_iff.1 hwindow
    have hkind := (boundsMention?_offset hmention).2.2
    have hpick : policy.pick (((some mention).toList.filter (Mention.counts .trim)).map
        Mention.operation) = (some mention.operation).filter Operation.isValid := by
      cases policy <;> cases hvalid : mention.operation.isValid <;>
        simp [Mention.counts, DuplicatePolicy.pick, Option.filter, hkind, hvalid]
    rw [hmention, ← hop, hpick, Option.filter_eq_some_iff, Option.some.injEq]
    constructor
    · rintro ⟨rfl, hvalid⟩
      exact ⟨List.cons_ne_nil first rest, hvalid, rfl⟩
    · rintro ⟨-, hvalid, rfl⟩
      exact ⟨rfl, hvalid⟩

end Prompt

/-- Without a range, a plan cuts out the window from the first loose start, or the beginning, to the
first loose end, if there is one. It does so under either policy, exactly if there is a bound at all
and the window is valid. -/
theorem Plan.ofPrompt_window (prompt : String) (policy : DuplicatePolicy)
    {claims bounds : List Found} (hreadings : Prompt.Readings prompt.toList claims bounds)
    (h : ∀ m ∈ Rule.trimRange.shape.search prompt.toList, Rule.trimRange.finding? m = none) :
    let window := Prompt.pickedWindow .first bounds
    (∀ op ∈ (ofPrompt prompt policy).operations, op.kind = .trim → op = window) ∧
    (window ∈ (ofPrompt prompt policy).operations ↔ bounds ≠ [] ∧ window.isValid) := by
  intro window
  obtain ⟨-, rfl⟩ := hreadings.unique (Prompt.readings_findings prompt.toList)
  have hmem : ∀ op, op ∈ (ofPrompt prompt policy).operations ∧ op.kind = .trim ↔
      Prompt.looseBounds (Prompt.findings prompt.toList) ≠ [] ∧ op.isValid ∧ op = window := by
    intro op
    rw [ofPrompt, Extraction.mem_plan_iff, ← Extraction.chosen?_eq_some_iff]
    exact Prompt.chosen?_trim_iff policy (Prompt.findingsOf_eq_nil_of_finding? h) op
  constructor
  · intro op hop hkind
    exact ((hmem op).1 ⟨hop, hkind⟩).2.2
  · constructor
    · intro hop
      obtain ⟨hne, hvalid, -⟩ := (hmem window).1 ⟨hop, rfl⟩
      exact ⟨hne, hvalid⟩
    · rintro ⟨hne, hvalid⟩
      exact ((hmem window).2 ⟨hne, hvalid, rfl⟩).1

/-- Two starts stand around an end; the plan that prefers the last mention takes the first start. -/
theorem Plan.ofPrompt_window_twice :
    let prompt := "starting at 0:05, until 20s, from 9s"
    let bounds : List Found := [⟨0, 16, .trimStartAt, .start 5⟩, ⟨18, 27, .trimEnd, .finish 20⟩,
      ⟨29, 36, .trimStartAt, .start 9⟩]
    Prompt.Readings prompt.toList [] bounds ∧
      (∀ m ∈ Rule.trimRange.shape.search prompt.toList, Rule.trimRange.finding? m = none) ∧
      Operation.trim 5 (some 20) ∈ (ofPrompt prompt .last).operations := by
  intro prompt bounds
  have hnone : ∀ m ∈ Rule.trimRange.shape.search prompt.toList,
      Rule.trimRange.finding? m = none := by decide +kernel
  have hfindings : Prompt.findings prompt.toList = bounds := by
    refine Prompt.findings_eq_of_perm (by decide +kernel) ?_
    unfold Found.Before
    decide
  have hreadings := Prompt.readings_findings prompt.toList
  rw [hfindings] at hreadings
  have hwindow := (Plan.ofPrompt_window prompt .last hreadings hnone).2
  exact ⟨hreadings, hnone, hwindow.2 (by decide +kernel)⟩

/-- A plan that prefers the last mention still starts at the first of two starts. -/
theorem Plan.ofPrompt_window_not_last :
    ¬∀ prompt policy claims bounds, Prompt.Readings prompt.toList claims bounds →
      (∀ m ∈ Rule.trimRange.shape.search prompt.toList, Rule.trimRange.finding? m = none) →
      ∀ op ∈ (ofPrompt prompt policy).operations, op.kind = .trim →
        op = Prompt.pickedWindow policy bounds := by
  intro h
  have hnone : ∀ m ∈ Rule.trimRange.shape.search "from 5s, from 9s".toList,
      Rule.trimRange.finding? m = none := by decide +kernel
  have hfindings : Prompt.findings "from 5s, from 9s".toList =
      [⟨0, 7, .trimStartAt, .start 5⟩, ⟨9, 16, .trimStartAt, .start 9⟩] := by
    refine Prompt.findings_eq_of_perm (by decide +kernel) ?_
    unfold Found.Before
    decide
  have hop : Operation.trim 5 none ∈ (ofPrompt "from 5s, from 9s" .last).operations := by
    simp only [ofPrompt, Prompt.parse, hfindings]
    decide +kernel
  have hlast := h _ .last _ _ (Prompt.readings_findings _) hnone _ hop rfl
  rw [hfindings] at hlast
  revert hlast
  decide +kernel

end VideoEdit
