import Mathlib.Data.List.Perm.Basic
import VideoEdit.Prompt.Extraction
import VideoEdit.Proofs.Pattern.Search
/-!
# Findings in order

The findings of a text are those of its rules, ordered by place and at one place by rule; nothing
else has that order. No rule reads a comma, so the findings of two texts joined by one are those of
the first and then those of the second, moved.
-/
namespace VideoEdit

def Rule.place (rule : Rule) : Nat := Rule.all.idxOf rule

theorem Rule.all_ordered : all.Pairwise fun a b => a.place < b.place := by decide

theorem Rule.mem_all (rule : Rule) : rule ∈ all := by cases rule <;> decide

namespace Found

/-- The order of findings: by place, and at one place by rule. -/
def Before (a b : Found) : Prop :=
  a.start < b.start ∨ a.start = b.start ∧ a.rule.place < b.rule.place

theorem Before.asymm {a b : Found} (h : a.Before b) : ¬b.Before a := by
  unfold Before at *
  omega

theorem eq_of_perm {found found' : List Found} (hp : found.Perm found')
    (ho : found.Pairwise Before) (ho' : found'.Pairwise Before) : found = found' := by
  refine List.Perm.eq_of_pairwise ?_ ho ho' hp
  intro a b _ _ hab hba
  exact absurd hba hab.asymm

theorem overlaps_eq_false_iff {f g : Found} :
    f.overlaps g = false ↔ f.stop ≤ g.start ∨ g.stop ≤ f.start := by
  simp only [overlaps, Bool.and_eq_false_iff, decide_eq_false_iff_not]
  omega

def shift (bytes : Nat) (f : Found) : Found :=
  { f with start := f.start + bytes, stop := f.stop + bytes }

end Found

namespace Prompt

theorem mem_findingsOf_match {text : List Char} {rule : Rule} {f : Found}
    (h : f ∈ findingsOf text rule) :
    ∃ m ∈ rule.shape.search text, rule.finding? m = some f.finding ∧ f.rule = rule ∧
      f.start = m.start ∧ f.stop = m.stop := by
  obtain ⟨m, hm, hf⟩ := List.mem_filterMap.1 h
  obtain ⟨finding, hfinding, rfl⟩ := Option.map_eq_some_iff.1 hf
  exact ⟨m, hm, hfinding, rfl, rfl, rfl⟩

private theorem findingsOf_rule {text : List Char} {rule : Rule} {f : Found}
    (h : f ∈ findingsOf text rule) : f.rule = rule := by
  obtain ⟨_, _, _, hr, _⟩ := mem_findingsOf_match h
  exact hr

theorem findingsOf_bounds {text : List Char} {rule : Rule} {f : Found}
    (h : f ∈ findingsOf text rule) : f.start < f.stop ∧ f.stop ≤ utf8Length text := by
  obtain ⟨m, hm, _, _, hstart, hstop⟩ := mem_findingsOf_match h
  rw [hstart, hstop]
  exact rule.shape.search_bounds hm

theorem findingsOf_ordered (text : List Char) (rule : Rule) :
    (findingsOf text rule).Pairwise fun f g => f.stop ≤ g.start := by
  refine (rule.shape.search_ordered text).filterMap _ ?_
  intro m n hmn f hf g hg
  obtain ⟨_, _, rfl⟩ := Option.map_eq_some_iff.1 hf
  obtain ⟨_, _, rfl⟩ := Option.map_eq_some_iff.1 hg
  exact hmn

theorem findings_perm (text : List Char) :
    (findings text).Perm (Rule.all.flatMap (findingsOf text)) :=
  List.mergeSort_perm _ _

theorem mem_findings {text : List Char} {f : Found} :
    f ∈ findings text ↔ f ∈ findingsOf text f.rule := by
  rw [(findings_perm text).mem_iff, List.mem_flatMap]
  constructor
  · rintro ⟨rule, _, hf⟩
    rwa [findingsOf_rule hf]
  · intro hf
    exact ⟨f.rule, f.rule.mem_all, hf⟩

theorem findings_bounds {text : List Char} {f : Found} (h : f ∈ findings text) :
    f.start < f.stop ∧ f.stop ≤ utf8Length text :=
  findingsOf_bounds (mem_findings.1 h)

private theorem flatMap_ordered (text : List Char) :
    (Rule.all.flatMap (findingsOf text)).Pairwise fun a b =>
      a.start < b.start ∨ a.rule.place < b.rule.place := by
  -- Findings of one rule stand apart; those of two rules are in the order of the rules.
  rw [List.pairwise_flatMap]
  refine ⟨?_, ?_⟩
  · intro rule _
    refine (findingsOf_ordered text rule).imp_of_mem ?_
    intro f g hf _ hfg
    have hpos := (findingsOf_bounds hf).1
    omega
  · refine Rule.all_ordered.imp ?_
    intro r r' hlt f hf g hg
    rw [findingsOf_rule hf, findingsOf_rule hg]
    exact Or.inr hlt

private theorem mergeSort_ordered (found : List Found)
    (h : found.Pairwise fun a b => a.start < b.start ∨ a.rule.place < b.rule.place) :
    (found.mergeSort fun a b => a.start ≤ b.start).Pairwise Found.Before := by
  have htrans : ∀ a b c : Found, decide (a.start ≤ b.start) → decide (b.start ≤ c.start) →
      decide (a.start ≤ c.start) := by
    intro a b c hab hbc
    simp only [decide_eq_true_eq] at *
    omega
  have htotal : ∀ a b : Found, decide (a.start ≤ b.start) || decide (b.start ≤ a.start) := by
    intro a b
    simp only [Bool.or_eq_true, decide_eq_true_eq]
    omega
  induction found with
  | nil => simp
  | cons f found ih =>
    obtain ⟨front, back, hcons, hrest, hfront⟩ := List.mergeSort_cons htrans htotal f found
    obtain ⟨hhead, htail⟩ := List.pairwise_cons.1 h
    have hold := ih htail
    have hsorted := List.pairwise_mergeSort htrans htotal (f :: found)
    rw [hcons] at hsorted ⊢
    rw [hrest, List.pairwise_append] at hold
    rw [List.pairwise_append, List.pairwise_cons] at hsorted ⊢
    refine ⟨hold.1, ⟨?_, hold.2.1⟩, ?_⟩
    · intro g hg
      have hle : f.start ≤ g.start := by simpa using hsorted.2.1.1 g hg
      have hmem : g ∈ found := by
        have hin : g ∈ front ++ back := List.mem_append_right _ hg
        rw [← hrest] at hin
        exact (List.mergeSort_perm found _).mem_iff.1 hin
      have hq := hhead g hmem
      unfold Found.Before
      omega
    · intro g hg b hb
      rcases List.mem_cons.1 hb with rfl | hb
      · have hlt := hfront g hg
        simp only [Bool.not_eq_true', decide_eq_false_iff_not] at hlt
        unfold Found.Before
        omega
      · exact hold.2.2 g hg b hb

theorem findings_ordered (text : List Char) : (findings text).Pairwise Found.Before :=
  mergeSort_ordered _ (flatMap_ordered text)

/-- The findings are the only ordered list that has them all. -/
theorem findings_eq_of_perm {text : List Char} {found : List Found}
    (hp : found.Perm (Rule.all.flatMap (findingsOf text))) (ho : found.Pairwise Found.Before) :
    findings text = found :=
  Found.eq_of_perm ((findings_perm text).trans hp.symm) (findings_ordered text) ho

end Prompt

private theorem Rule.not_accepts_comma (rule : Rule) :
    ∀ cls ∈ rule.shape.classes, cls.accepts ',' = false := by
  cases rule <;> decide +kernel

private theorem Rule.finding?_shift (rule : Rule) (bytes : Nat) (m : Match Part) :
    rule.finding? (m.shift bytes) = rule.finding? m := by
  cases rule <;> rfl

namespace Prompt

private theorem findingsOf_comma (a b : List Char) (rule : Rule) :
    findingsOf (a ++ ',' :: b) rule =
      findingsOf a rule ++ (findingsOf b rule).map (Found.shift (utf8Length a + 1)) := by
  have hw : isWord ',' = false := by decide
  have hsearch := rule.shape.search_append hw rule.not_accepts_comma a b
  rw [show Char.utf8Size ',' = 1 by decide] at hsearch
  simp only [findingsOf, hsearch, List.filterMap_append, List.filterMap_map, List.map_filterMap]
  congr 2
  funext m
  simp only [Function.comp_apply, Rule.finding?_shift, Option.map_map]
  rfl

/-- Nothing is found across a comma, and on its two sides what is found in each text alone. -/
theorem findings_comma (a b : List Char) :
    findings (a ++ ',' :: b) =
      findings a ++ (findings b).map (Found.shift (utf8Length a + 1)) := by
  refine findings_eq_of_perm ?_ ?_
  · refine ((findings_perm a).append ((findings_perm b).map _)).trans ?_
    rw [List.map_flatMap]
    have hsplit : findingsOf (a ++ ',' :: b) = fun rule =>
        findingsOf a rule ++ (findingsOf b rule).map (Found.shift (utf8Length a + 1)) :=
      funext (findingsOf_comma a b)
    rw [hsplit]
    exact List.flatMap_append_perm _ _ _
  · rw [List.pairwise_append, List.pairwise_map]
    refine ⟨findings_ordered a, (findings_ordered b).imp ?_, ?_⟩
    · intro f g hfg
      unfold Found.Before Found.shift at *
      dsimp only
      omega
    · intro f hf g hg
      obtain ⟨g, _, rfl⟩ := List.mem_map.1 hg
      have hb := findings_bounds hf
      unfold Found.Before Found.shift
      dsimp only
      omega

end Prompt
end VideoEdit
