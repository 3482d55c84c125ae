import Mathlib.Data.List.Pairwise
import VideoEdit.Proofs.Pattern.Overlap
import VideoEdit.Proofs.Prompt.Account
/-!
# Text that two mentions share

The bounds of a window share no text with an operation. Two operations share text only if they come
from different rules that read numbers, and then they share a digit.
-/
namespace VideoEdit

/-- The rules whose phrases hold a number and name an operation. -/
def Rule.ofNumbers : List Rule := [trimRange, speed, brightness, crop]

private theorem Rule.overlapsAtDigit : ∀ r ∈ ofOperations, ∀ s ∈ ofOperations, r ≠ s →
    r.shape.overlapsAtDigit s.shape := by
  decide +kernel

private theorem Rule.isNumeral_of_not_ofNumbers : ∀ r ∈ ofOperations, r ∉ ofNumbers →
    ∀ cls ∈ r.shape.classes, cls.isNumeral = false := by
  decide +kernel

def Found.Covers (f : Found) (place : Nat) : Prop := f.start ≤ place ∧ place < f.stop

/-- A digit of the text that belongs to two findings. -/
def Found.ShareDigit (text : List Char) (f g : Found) : Prop :=
  ∃ front d back, text = front ++ d :: back ∧ isDecimalDigit d ∧
    f.Covers (utf8Length front) ∧ g.Covers (utf8Length front)

private theorem Found.overlaps_comm (f g : Found) : f.overlaps g = g.overlaps f := by
  rw [overlaps, overlaps, Bool.and_comm]

namespace Prompt

/-- The findings that a mention was read from: that of its phrase, or the first start and the first
end among the bounds that stand alone. -/
def sources (text : List Char) (m : Mention) : List Found :=
  match m.origin with
  | .phrase _ => (findings text).filter fun f => f.mention? = some m
  | .bounds =>
    let bounds := looseBounds (findings text)
    (bounds.find? fun f => f.startBound?.isSome).toList ++
      (bounds.find? fun f => f.finishBound?.isSome).toList

theorem mem_sources_of_phrase {text : List Char} {m : Mention} {rule : Rule}
    (h : m.origin = .phrase rule) {f : Found} :
    f ∈ sources text m ↔ f ∈ findings text ∧ f.mention? = some m := by
  rw [sources, h, List.mem_filter, decide_eq_true_eq]

theorem mem_sources_of_match {text : List Char} {rule : Rule} {m : Match Part} {op : Operation}
    (hm : m ∈ rule.shape.search text) (hfinding : rule.finding? m = some (.operation op)) :
    ⟨m.start, m.stop, rule, .operation op⟩ ∈ sources text ⟨m.start, .phrase rule, op⟩ := by
  rw [mem_sources_of_phrase rfl, mem_findings]
  refine ⟨List.mem_filterMap.2 ⟨m, hm, ?_⟩, rfl⟩
  rw [hfinding, Option.map_some]

private theorem source_of_phrase {text : List Char} {m : Mention} {rule : Rule} {f : Found}
    (h : m.origin = .phrase rule) (hf : f ∈ sources text m) :
    f ∈ findingsOf text rule ∧ rule ∈ Rule.ofOperations ∧ m.offset = f.start ∧
      f ∈ claims (findings text) := by
  obtain ⟨hmem, hm⟩ := (mem_sources_of_phrase h).1 hf
  obtain ⟨hoffset, horigin⟩ := Found.mention?_eq_some hm
  obtain rfl : rule = f.rule := Origin.phrase.inj (h.symm.trans horigin)
  have hfound := mem_findings.1 hmem
  have hsome : f.mention?.isSome := by rw [hm, Option.isSome_some]
  exact ⟨hfound, (isSome_mention?_iff hfound).1 hsome, hoffset, List.mem_filter.2 ⟨hmem, hsome⟩⟩

private theorem mem_looseBounds_of_mem_sources {text : List Char} {m : Mention}
    (h : m.origin = .bounds)
    {f : Found} (hf : f ∈ sources text m) : f ∈ looseBounds (findings text) := by
  rw [sources, h, List.mem_append, Option.mem_toList, Option.mem_toList] at hf
  exact hf.elim List.mem_of_find?_eq_some List.mem_of_find?_eq_some

theorem mem_findings_of_mem_sources {text : List Char} {m : Mention} {f : Found}
    (h : f ∈ sources text m) : f ∈ findings text := by
  cases ho : m.origin with
  | phrase rule => exact ((mem_sources_of_phrase ho).1 h).1
  | bounds => exact (List.mem_filter.1 (mem_looseBounds_of_mem_sources ho h)).1

private theorem sources_ne_nil {prompt : String} {m : Mention} (h : m ∈ (parse prompt).mentions) :
    sources prompt.toList m ≠ [] := by
  rcases mem_assembleFindings.1 h with ⟨f, hf, hm⟩ | hm
  · have hmem := (mem_sources_of_phrase (Found.mention?_eq_some hm).2).2 ⟨hf, hm⟩
    exact List.ne_nil_of_mem hmem
  · obtain ⟨⟨f, hf, -⟩, horigin, -⟩ := boundsMention?_offset hm
    have hbound : f.isBound := (mem_looseBounds.1 hf).2.1
    rw [sources, horigin]
    intro hnil
    simp only [List.append_eq_nil_iff, Option.toList_eq_nil_iff, List.find?_eq_none] at hnil
    rcases (Bool.or_eq_true _ _).mp hbound with hstart | hfinish
    · exact hnil.1 f hf hstart
    · exact hnil.2 f hf hfinish

private theorem window_of_bounds {prompt : String} {m : Mention} (h : m ∈ (parse prompt).mentions)
    (ho : m.origin = .bounds) :
    boundsMention? (looseBounds (findings prompt.toList)) = some m := by
  rcases mem_assembleFindings.1 h with ⟨f, -, hm⟩ | hm
  · rw [(Found.mention?_eq_some hm).2] at ho
    cases ho
  · exact hm

private theorem mem_ofNumbers_of_covers {text front back : List Char} {d : Char} {rule : Rule}
    {f : Found} (hf : f ∈ findingsOf text rule) (hrule : rule ∈ Rule.ofOperations)
    (htext : text = front ++ d :: back) (hd : isDecimalDigit d)
    (hcover : f.Covers (utf8Length front)) : rule ∈ Rule.ofNumbers := by
  by_contra hnot
  obtain ⟨m, hm, -, -, hstart, hstop⟩ := mem_findingsOf_match hf
  obtain ⟨before, u, after, hoccurs⟩ := Pattern.exists_occurs hm
  rw [Found.Covers, hstart, hstop] at hcover
  obtain ⟨x, y, -, rfl, hy, hne⟩ := hoccurs.exists_split htext hcover.1 hcover.2
  obtain ⟨c, y, rfl⟩ := List.exists_cons_of_ne_nil hne
  obtain ⟨rfl, -⟩ := List.cons.inj hy
  have hclasses := Rule.isNumeral_of_not_ofNumbers rule hrule hnot
  rw [Pattern.isDecimalDigit_of_reads hclasses hoccurs.reads d (by simp)] at hd
  cases hd

private theorem shareDigit_of_le {text : List Char} {r s : Rule} {f g : Found}
    (hf : f ∈ findingsOf text r) (hg : g ∈ findingsOf text s) (hr : r ∈ Rule.ofOperations)
    (hs : s ∈ Rule.ofOperations) (hne : r ≠ s) (hle : f.start ≤ g.start) (hlt : g.start < f.stop) :
    Found.ShareDigit text f g := by
  obtain ⟨m, hm, -, -, hstart, hstop⟩ := mem_findingsOf_match hf
  obtain ⟨n, hn, -, -, hstart', hstop'⟩ := mem_findingsOf_match hg
  obtain ⟨_, _, _, hoccurs⟩ := Pattern.exists_occurs hm
  obtain ⟨_, _, _, hoccurs'⟩ := Pattern.exists_occurs hn
  have hpos := (findingsOf_bounds hg).1
  rw [hstart, hstart'] at hle
  rw [hstart', hstop] at hlt
  rw [hstart', hstop'] at hpos
  obtain ⟨front, d, back, htext, hd, h1, h2, h3⟩ :=
    hoccurs.exists_digit hoccurs' (Rule.overlapsAtDigit r hr s hs hne) hle hlt hpos
  refine ⟨front, d, back, htext, hd, ⟨?_, ?_⟩, ⟨?_, ?_⟩⟩ <;> omega

private theorem shareDigit_of_overlaps {text : List Char} {r s : Rule} {f g : Found}
    (hf : f ∈ findingsOf text r) (hg : g ∈ findingsOf text s) (hr : r ∈ Rule.ofOperations)
    (hs : s ∈ Rule.ofOperations) (hne : r ≠ s) (h : f.overlaps g) :
    r ∈ Rule.ofNumbers ∧ s ∈ Rule.ofNumbers ∧ Found.ShareDigit text f g := by
  simp only [Found.overlaps, Bool.and_eq_true, decide_eq_true_eq] at h
  have hshare : Found.ShareDigit text f g := by
    rcases Nat.le_total f.start g.start with hle | hle
    · exact shareDigit_of_le hf hg hr hs hne hle h.2
    · obtain ⟨front, d, back, htext, hd, hcover, hcover'⟩ :=
        shareDigit_of_le hg hf hs hr hne.symm hle h.1
      exact ⟨front, d, back, htext, hd, hcover', hcover⟩
  obtain ⟨front, d, back, htext, hd, hcover, hcover'⟩ := hshare
  exact ⟨mem_ofNumbers_of_covers hf hr htext hd hcover,
    mem_ofNumbers_of_covers hg hs htext hd hcover', front, d, back, htext, hd, hcover, hcover'⟩

private theorem not_overlaps_of_rule {text : List Char} {rule : Rule} {f g : Found}
    (hf : f ∈ findingsOf text rule) (hg : g ∈ findingsOf text rule) (hne : f ≠ g) :
    f.overlaps g = false := by
  have hsymm : Std.Symm fun f g : Found => f.overlaps g = false :=
    ⟨fun f g h => by rwa [Found.overlaps_comm]⟩
  have happart : (findingsOf text rule).Pairwise fun f g => f.overlaps g = false :=
    (findingsOf_ordered text rule).imp fun hle => Found.overlaps_eq_false_iff.2 (.inl hle)
  exact happart.forall hf hg hne

private theorem not_overlaps_of_looseBounds {found : List Found} {bound claim : Found}
    (hbound : bound ∈ looseBounds found) (hclaim : claim ∈ claims found) :
    bound.overlaps claim = false :=
  Found.overlaps_eq_false_iff.2 ((mem_looseBounds.1 hbound).2.2 claim hclaim)

/-- Every mention was read from some text. Text that two mentions were both read from holds a digit,
and the mentions come from different rules that read numbers. -/
theorem sources_share_digit (prompt : String) :
    (∀ m ∈ (parse prompt).mentions, sources prompt.toList m ≠ []) ∧
    (parse prompt).mentions.Pairwise fun m n =>
      ∀ f ∈ sources prompt.toList m, ∀ g ∈ sources prompt.toList n, f.overlaps g →
        (∃ r ∈ Rule.ofNumbers, ∃ s ∈ Rule.ofNumbers, r ≠ s ∧
          m.origin = .phrase r ∧ n.origin = .phrase s) ∧
        Found.ShareDigit prompt.toList f g := by
  refine ⟨fun m => sources_ne_nil, (mentions_inOrder prompt).imp_of_mem ?_⟩
  rintro m n hmem hmem' ⟨-, hincreasing, -⟩ f hf g hg hoverlaps
  cases hm : m.origin with
  | phrase r =>
    obtain ⟨hfr, hr, hmo, hfc⟩ := source_of_phrase hm hf
    cases hn : n.origin with
    | phrase s =>
      obtain ⟨hgs, hs, hno, -⟩ := source_of_phrase hn hg
      by_cases hrs : r = s
      · subst hrs
        have hlt := hincreasing (hm.trans hn.symm)
        have hne : f ≠ g := by
          rintro rfl
          omega
        rw [not_overlaps_of_rule hfr hgs hne] at hoverlaps
        cases hoverlaps
      · obtain ⟨hr', hs', hshare⟩ := shareDigit_of_overlaps hfr hgs hr hs hrs hoverlaps
        exact ⟨⟨r, hr', s, hs', hrs, rfl, rfl⟩, hshare⟩
    | bounds =>
      have hdisjoint := not_overlaps_of_looseBounds (mem_looseBounds_of_mem_sources hn hg) hfc
      rw [Found.overlaps_comm, hdisjoint] at hoverlaps
      cases hoverlaps
  | bounds =>
    cases hn : n.origin with
    | phrase s =>
      obtain ⟨-, -, -, hgc⟩ := source_of_phrase hn hg
      have hdisjoint := not_overlaps_of_looseBounds (mem_looseBounds_of_mem_sources hm hf) hgc
      rw [hdisjoint] at hoverlaps
      cases hoverlaps
    | bounds =>
      -- There is one window of loose bounds at most.
      have hsame := (window_of_bounds hmem hm).symm.trans (window_of_bounds hmem' hn)
      obtain rfl := Option.some.inj hsame
      exact absurd (hincreasing rfl) (Nat.lt_irrefl _)

/-- The first time of the range is an aspect ratio as well. -/
theorem sources_overlap_in_range :
    ¬(parse "from 9:16 to 9:30").mentions.Pairwise fun m n =>
      ∀ f ∈ sources "from 9:16 to 9:30".toList m, ∀ g ∈ sources "from 9:16 to 9:30".toList n,
        f.overlaps g = false := by
  have hfindings : findings "from 9:16 to 9:30".toList =
      [⟨0, 17, .trimRange, .operation (.trim 556 (some 570))⟩, ⟨0, 10, .trimStartAt, .start 556⟩,
        ⟨5, 9, .crop, .operation (.crop .portraitFill)⟩, ⟨10, 17, .trimEnd, .finish 570⟩] := by
    refine findings_eq_of_perm (by decide +kernel) ?_
    unfold Found.Before
    decide
  simp only [parse, sources, hfindings]
  decide +kernel

end Prompt
end VideoEdit
