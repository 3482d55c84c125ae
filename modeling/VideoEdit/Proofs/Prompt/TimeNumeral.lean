import VideoEdit.Proofs.Pattern.Ending
import VideoEdit.Proofs.Pattern.Groups
import VideoEdit.Proofs.Pattern.Spelling
import VideoEdit.Proofs.Prompt.Sharing
/-!
# How the numerals of times end

The numbers of a window are those of numerals in the prompt. No digit follows such a numeral: a
shorter run of digits ends within a word. A fraction is left out only where it runs into a word, as
in "to 2.5x".
-/
namespace VideoEdit

/-- How a numeral ends before the text behind it: not within its digits, and before a fraction only
if it has one already or that fraction runs into a word. -/
structure EndsAsNumeral (numeral back : List Char) : Prop where
  digit : ∀ d rest, back = d :: rest → isDecimalDigit d = false
  fraction : ∀ d rest, back = '.' :: d :: rest → isDecimalDigit d →
    '.' ∈ numeral ∨ (rest.dropWhile isDecimalDigit).head?.any isWord

namespace Phrase
open Pattern

/-- The parts that hold a time are read by the pattern of times; what follows them in a phrase reads
no digit, and stops at a point or does not read one. -/
theorem time_groups (rule : Rule) : ∀ g ∈ rule.shape.groups,
    g.name ∈ [.start, .finish] → g.inner = time ∧ g.after.canStop true true = false ∧
      (∀ s ∈ g.after.steps true, s.1.isNumeral = false) ∧
      (g.after.canStop true false ∨ ∀ s ∈ g.after.steps true, s.1.accepts '.' = false) := by
  cases rule <;> decide

private theorem ways_fractional {s : Scan Part} {d : Char} {rest : List Char}
    (h : s.rest = '.' :: d :: rest) (hd : isDecimalDigit d) :
    fractional.ways s = stops .digit s.captured (some d) rest := by
  obtain ⟨before, _, captured⟩ := s
  cases h
  have hdigit : CharClass.digit.accepts d := hd
  change List.flatMap digits.ways [⟨some '.', d :: rest, captured⟩] = _
  rw [List.flatMap_singleton]
  change List.flatMap (many .digit).ways (if CharClass.digit.accepts d then _ else []) = _
  rw [if_pos hdigit, List.flatMap_singleton]
  rfl

private theorem exists_way_fractional {s : Scan Part} {d : Char} {rest : List Char}
    (h : s.rest = '.' :: d :: rest) (hd : isDecimalDigit d) :
    ∃ t ∈ fractional.ways s, t.rest = rest.dropWhile isDecimalDigit ∧ t.before.any isWord := by
  have hstop := List.mem_of_head? (head?_stops .digit s.captured (some d) rest)
  rw [← ways_fractional h hd] at hstop
  refine ⟨_, hstop, rfl, ?_⟩
  obtain ⟨u, -, hbefore, hreads⟩ := reads_of_mem_ways hstop
  rw [hbefore]
  exact isWord_of_endsInWord (by decide) hreads

private theorem ends_of_picked? {β : Type} {p : Shape} (hends : p.endsInWord false)
    {a b : Scan Part} {next : Scan Part → Option β}
    (h : (p ++ maybe fractional).picked? a next = some b) :
    b.before.any isWord ∧ ∃ u, a.rest = u ++ b.rest ∧
      ('.' ∈ u ∨ ∀ t ∈ fractional.ways b, next t = none) := by
  rw [picked?_seq] at h
  obtain ⟨r, hr, hb⟩ := Option.bind_eq_some_iff.1 h
  obtain ⟨u, hu, hbefore, hreads⟩ := reads_of_mem_ways (mem_ways_of_picked? hr)
  rw [maybe, picked?_alt] at hb
  -- Either the fraction is read, or nothing can follow it.
  rcases Option.or_eq_some_iff.1 hb with hb | ⟨hnone, hb⟩
  · obtain ⟨v, hv, hbefore', hreads'⟩ := reads_of_mem_ways (mem_ways_of_picked? hb)
    constructor
    · rw [hbefore']
      exact isWord_of_endsInWord (by decide) hreads'
    · refine ⟨u ++ v, by rw [hu, hv, List.append_assoc], Or.inl ?_⟩
      obtain ⟨x, y, rfl, hx, -⟩ := hreads'
      obtain rfl : x = ['.'] := (reads_word.1 hx).eq_of_not_isAlpha (by decide)
      simp
  · obtain rfl := List.mem_singleton.1 (mem_ways_of_picked? hb)
    constructor
    · rw [hbefore]
      exact isWord_of_endsInWord hends hreads
    · exact ⟨u, hu, Or.inr (picked?_eq_none.1 hnone)⟩

private theorem ends_of_picked?_time {β : Type} {a b : Scan Part} {next : Scan Part → Option β}
    (h : time.picked? a next = some b) :
    b.before.any isWord ∧ ∃ u, a.rest = u ++ b.rest ∧
      ('.' ∈ u ∨ ∀ t ∈ fractional.ways b, next t = none) := by
  rw [time, picked?_alt] at h
  rcases Option.or_eq_some_iff.1 h with h | ⟨-, h⟩
  · exact ends_of_picked? (by decide) h
  · exact ends_of_picked? (by decide) h

private theorem endsAsNumeral_of_captures {rule : Rule} {g : CaptureGroup Part}
    (hg : g ∈ rule.shape.groups) (hname : g.name ∈ [.start, .finish]) {span : Span} {a b t : Scan Part}
    (h : g.Captures some t span a b) {numeral : List Char} (hnumeral : a.rest = numeral ++ b.rest) :
    EndsAsNumeral numeral b.rest := by
  obtain ⟨htime, hstop, hdigits, hpoint⟩ := time_groups rule g hg hname
  have hinner := h.inner
  rw [htime] at hinner
  obtain ⟨hword, u, hu, hfraction⟩ := ends_of_picked?_time hinner
  obtain rfl : numeral = u := List.append_cancel_right (hnumeral.symm.trans hu)
  have hstep {c : Char} {rest : List Char} (hrest : b.rest = c :: rest)
      (hcannot : g.after.canStop true (isWord c) = false) :
      ∃ s ∈ g.after.steps true, s.1.accepts c := by
    have hexists := h.exists_step hrest
    rw [hword] at hexists
    exact hexists hcannot
  constructor
  · intro d rest hrest
    by_contra hd
    rw [Bool.not_eq_false] at hd
    obtain ⟨s, hs, hc⟩ := hstep hrest (by rw [isWord_of_isDecimalDigit hd, hstop])
    rw [CharClass.isDecimalDigit_of_accepts hc, hdigits s hs] at hd
    cases hd
  · intro d rest hrest hd
    refine hfraction.imp_right ?_
    intro hnone
    by_contra hend
    rw [Bool.not_eq_true] at hend
    -- Behind the fraction no word goes on, so a pattern that stops at points could stop there.
    obtain ⟨r, hr, hrest', hword'⟩ := exists_way_fractional hrest hd
    have hcannot : g.after.canStop (r.before.any isWord) (r.rest.head?.any isWord) = false :=
      canStop_of_firstWay_eq_none (s := a.record g.name r) (hnone r hr)
    rw [hword', hrest', hend] at hcannot
    obtain ⟨s, hs, hc⟩ := hstep hrest hcannot
    rw [hpoint.resolve_left (by simp [hcannot]) s hs] at hc
    cases hc

end Phrase

namespace Finding

/-- The times that a finding names, each with the part that it is read from. -/
def times : Finding → List (Part × Binary64)
  | .operation (.trim s e) => (.start, s) :: e.toList.map (.finish, ·)
  | .start s => [(.start, s)]
  | .finish e => [(.finish, e)]
  | _ => []

private theorem seconds?_of_bound? {text : List Char} {unit : Option (List Char)}
    {seconds : Binary64}
    (h : bound? text unit = some seconds) : seconds? text unit = some seconds := by
  unfold bound? at h
  split at h
  · cases h
  · exact h

end Finding

theorem Rule.exists_seconds?_of_mem_times {rule : Rule} {m : Match Part} {finding : Finding}
    (h : rule.finding? m = some finding) {part : Part} {number : Binary64}
    (ht : (part, number) ∈ finding.times) :
    ∃ numeral unit, m.text? part = some numeral ∧
      Finding.seconds? numeral unit = some number := by
  cases rule with
  | trimRange =>
    simp only [finding?, Finding.ofTrimRange?, Option.bind_eq_bind, Option.bind_eq_some_iff,
      Option.pure_def, Option.some.injEq] at h
    obtain ⟨text, htext, s, hs, text', htext', e, he, rfl⟩ := h
    simp only [Finding.times, Option.toList_some, List.map_cons, List.map_nil, List.mem_cons,
      Prod.mk.injEq, List.not_mem_nil, or_false] at ht
    rcases ht with ⟨rfl, rfl⟩ | ⟨rfl, rfl⟩
    · exact ⟨text, _, htext, hs⟩
    · exact ⟨text', _, htext', he⟩
  | trimFirst | trimStartAt =>
    simp only [finding?, Finding.ofStart?, Option.bind_eq_bind, Option.bind_eq_some_iff,
      Option.pure_def, Option.some.injEq] at h
    obtain ⟨text, htext, s, hs, rfl⟩ := h
    cases List.mem_singleton.1 ht
    exact ⟨text, _, htext, Finding.seconds?_of_bound? hs⟩
  | trimEnd =>
    simp only [finding?, Finding.ofFinish?, Option.bind_eq_bind, Option.bind_eq_some_iff,
      Option.pure_def, Option.some.injEq] at h
    obtain ⟨text, htext, e, he, rfl⟩ := h
    cases List.mem_singleton.1 ht
    exact ⟨text, _, htext, Finding.seconds?_of_bound? he⟩
  | grayscale | speed | mute | brightness | crop | gif =>
    -- None of these names a time.
    rcases finding?_sort h with ⟨-, op, rfl, hkind⟩ | ⟨hbounds, -⟩ | ⟨-, _, rfl⟩
    · cases op with
      | trim start finish => cases hkind
      | _ => cases ht
    · exact absurd hbounds (by decide)
    · cases ht

/-- A finding was read from a match that captured one of its parts at a place of the text. -/
def Found.Captures (text : List Char) (f : Found) (part : Part) (front numeral back : List Char) :
    Prop :=
  text = front ++ numeral ++ back ∧ ∃ m before rest t, f.rule.shape.GoesBy text m before rest t ∧
    f.rule.finding? m = some f.finding ∧ m.start = f.start ∧
    (part, ⟨numeral ++ back, back⟩) ∈ t.captured

/-- A time of a finding is that of a numeral of the text. -/
def Found.ReadsTime (text : List Char) (f : Found) (part : Part) (number : Binary64) : Prop :=
  ∃ front numeral back unit, f.Captures text part front numeral back ∧
    Finding.seconds? numeral unit = some number

theorem Rule.isFlat_shape (rule : Rule) : rule.shape.isFlat := by
  cases rule <;> decide

namespace Found
variable {text : List Char} {f : Found} {part : Part}

private theorem Captures.endsAsNumeral {front numeral back : List Char}
    (h : f.Captures text part front numeral back) (hpart : part ∈ [.start, .finish]) :
    EndsAsNumeral numeral back := by
  obtain ⟨-, m, before, rest, t, hgoes, -, -, hspan⟩ := h
  have hpicked := hgoes.way
  rw [Pattern.first?_eq_picked?] at hpicked
  rcases Pattern.exists_group f.rule.isFlat_shape hpicked hspan with
    hnone | ⟨g, hg, rfl, a, b, -, hcaptures⟩
  · cases hnone
  · have hsame := hcaptures.span_eq
    rw [Span.mk.injEq] at hsame
    obtain ⟨hstart, rfl⟩ := hsame
    exact Phrase.endsAsNumeral_of_captures hg hpart hcaptures hstart.symm

private theorem exists_captures {m : Match Part} (hm : m ∈ f.rule.shape.search text)
    (hfinding : f.rule.finding? m = some f.finding) (hstart : m.start = f.start)
    {numeral : List Char} (hpart : m.text? part = some numeral) :
    ∃ front back, f.Captures text part front numeral back := by
  obtain ⟨before, rest, t, hgoes⟩ := Pattern.exists_goesBy hm
  obtain ⟨span, hspan, rfl⟩ := hgoes.exists_span hpart
  have hpicked := hgoes.way
  rw [Pattern.first?_eq_picked?] at hpicked
  rcases Pattern.exists_group f.rule.isFlat_shape hpicked hspan with
    hnone | ⟨g, -, rfl, a, b, ⟨between, hbetween⟩, hcaptures⟩
  · cases hnone
  · obtain ⟨hrest, -⟩ := hcaptures.reads
    replace hbetween : between ++ a.rest = rest := hbetween
    refine ⟨before ++ between, b.rest, ?_, m, before, rest, t, hgoes, hfinding, hstart, ?_⟩
    · rw [hgoes.split, ← hbetween, hrest]
      simp only [List.append_assoc]
    · rw [← hrest, ← hcaptures.span_eq]
      exact hspan

theorem mem_times_of_startBound? {s : Binary64} (h : f.startBound? = some s) :
    (.start, s) ∈ f.finding.times := by
  unfold startBound? at h
  split at h
  · next hfinding =>
    cases h
    simp [hfinding, Finding.times]
  · cases h

theorem mem_times_of_finishBound? {e : Binary64} (h : f.finishBound? = some e) :
    (.finish, e) ∈ f.finding.times := by
  unfold finishBound? at h
  split at h
  · next hfinding =>
    cases h
    simp [hfinding, Finding.times]
  · cases h

end Found

private theorem findSome?_eq_bind_find? {α β : Type} (f : α → Option β) (l : List α) :
    l.findSome? f = (l.find? fun x => (f x).isSome).bind f := by
  induction l with
  | nil => rfl
  | cons x l ih =>
    rw [List.findSome?_cons, List.find?_cons]
    cases hx : f x with
    | none => exact ih
    | some y => exact hx.symm

namespace Prompt

private theorem exists_source_of_trim {prompt : String} {mention : Mention}
    (h : mention ∈ (parse prompt).mentions) {start : Binary64} {finish : Option Binary64}
    (htrim : mention.operation = .trim start finish) :
    ((∃ f ∈ sources prompt.toList mention, (.start, start) ∈ f.finding.times) ∨
      start = 0 ∧ ∀ f ∈ sources prompt.toList mention, f.startBound? = none) ∧
    ∀ e ∈ finish, ∃ f ∈ sources prompt.toList mention, (.finish, e) ∈ f.finding.times := by
  rcases mem_assembleFindings.1 h with ⟨f, hf, hm⟩ | hm
  · have hsource := (mem_sources_of_phrase (Found.mention?_eq_some hm).2).2 ⟨hf, hm⟩
    have hfinding := finding_of_mention? hm
    rw [htrim] at hfinding
    constructor
    · exact Or.inl ⟨f, hsource, by simp [hfinding, Finding.times]⟩
    · rintro e rfl
      exact ⟨f, hsource, by simp [hfinding, Finding.times]⟩
  · obtain ⟨first, -, rfl⟩ := Option.map_eq_some_iff.1 hm
    obtain ⟨rfl, rfl⟩ := Operation.trim.inj htrim
    rw [findSome?_eq_bind_find?, findSome?_eq_bind_find?]
    simp only [sources, List.mem_append, Option.mem_toList]
    constructor
    · cases hfind : (looseBounds (findings prompt.toList)).find? fun f => f.startBound?.isSome with
      | none =>
        right
        refine ⟨rfl, ?_⟩
        rintro f (hf | hf)
        · cases hf
        · simpa using List.find?_eq_none.1 hfind f (List.mem_of_find?_eq_some hf)
      | some f =>
        left
        have hsome : f.startBound?.isSome := by simpa using List.find?_some hfind
        obtain ⟨s, hs⟩ := Option.isSome_iff_exists.1 hsome
        refine ⟨f, Or.inl rfl, ?_⟩
        rw [Option.bind_some, hs, Option.getD_some]
        exact f.mem_times_of_startBound? hs
    · intro e he
      obtain ⟨f, hf, he⟩ := Option.bind_eq_some_iff.1 he
      exact ⟨f, Or.inr hf, f.mem_times_of_finishBound? he⟩

private theorem readsTime_of_mem_times {text : List Char} {f : Found} (hf : f ∈ findings text)
    {part : Part} {number : Binary64} (ht : (part, number) ∈ f.finding.times) :
    f.ReadsTime text part number := by
  obtain ⟨m, hm, hfinding, -, hstart, -⟩ := mem_findingsOf_match (mem_findings.1 hf)
  obtain ⟨numeral, unit, hpart, hnumber⟩ := Rule.exists_seconds?_of_mem_times hfinding ht
  obtain ⟨front, back, hcaptures⟩ := Found.exists_captures hm hfinding hstart.symm hpart
  exact ⟨front, numeral, back, unit, hcaptures, hnumber⟩

/-- The times of a window are read from numerals of the prompt, and each of them ends as one. -/
theorem trim_numerals {prompt : String} {mention : Mention}
    (h : mention ∈ (parse prompt).mentions) {start : Binary64} {finish : Option Binary64}
    (htrim : mention.operation = .trim start finish) :
    ((∃ f ∈ sources prompt.toList mention, f.ReadsTime prompt.toList .start start) ∨
      start = 0 ∧ ∀ f ∈ sources prompt.toList mention, f.startBound? = none) ∧
    (∀ e ∈ finish, ∃ f ∈ sources prompt.toList mention, f.ReadsTime prompt.toList .finish e) ∧
    ∀ f ∈ sources prompt.toList mention, ∀ part ∈ [.start, .finish], ∀ front numeral back,
      f.Captures prompt.toList part front numeral back → EndsAsNumeral numeral back := by
  obtain ⟨hstart, hfinish⟩ := exists_source_of_trim h htrim
  refine ⟨hstart.imp_left ?_, ?_, ?_⟩
  · rintro ⟨f, hf, ht⟩
    exact ⟨f, hf, readsTime_of_mem_times (mem_findings_of_mem_sources hf) ht⟩
  · intro e he
    obtain ⟨f, hf, ht⟩ := hfinish e he
    exact ⟨f, hf, readsTime_of_mem_times (mem_findings_of_mem_sources hf) ht⟩
  · intro f _ part hpart front numeral back hcaptures
    exact hcaptures.endsAsNumeral hpart

private def rangeMatch : Match Part := ⟨0, 11, [(.finish, "2".toList), (.start, "1".toList)]⟩

private theorem search_range :
    rangeMatch ∈ Rule.trimRange.shape.search "from 1 to 2.5x".toList ∧
      Rule.trimRange.finding? rangeMatch = some (.operation (.trim 1 (some 2))) ∧
      Rule.trimRange.shape.first? ⟨none, "from 1 to 2.5x".toList, []⟩ = some
        ⟨some '2', ".5x".toList, [(.finish, ⟨"2.5x".toList, ".5x".toList⟩),
          (.start, ⟨"1 to 2.5x".toList, " to 2.5x".toList⟩)]⟩ := by
  decide +kernel

private theorem mem_mentions_multiplier :
    ⟨0, .phrase .trimRange, .trim 1 (some 2)⟩ ∈ (parse "from 1 to 2.5x").mentions := by
  obtain ⟨hsearch, hfinding, -⟩ := search_range
  exact mem_mentions_phrase_iff.2 ⟨rangeMatch, hsearch, rfl, hfinding⟩

/-- The end of "from 1 to 2.5x" is read from the numeral "2". -/
theorem trim_numerals_multiplier :
    let text := "from 1 to 2.5x".toList
    let mention : Mention := ⟨0, .phrase .trimRange, .trim 1 (some 2)⟩
    mention ∈ (parse "from 1 to 2.5x").mentions ∧ mention.operation = .trim 1 (some 2) ∧
      ∃ f ∈ sources text mention, f.ReadsTime text .finish 2 ∧
        ∀ front numeral back, f.Captures text .finish front numeral back →
          EndsAsNumeral numeral back := by
  obtain ⟨-, hfinish, hends⟩ := trim_numerals mem_mentions_multiplier rfl
  obtain ⟨f, hf, hreads⟩ := hfinish 2 rfl
  exact ⟨mem_mentions_multiplier, rfl, f, hf, hreads, hends f hf .finish (by decide)⟩

/-- A bound of a window can be the whole part of a multiplier. -/
theorem trim_numeral_before_fraction :
    ¬∀ (prompt : String), ∀ mention ∈ (parse prompt).mentions, ∀ start finish,
      mention.operation = .trim start finish →
      ∀ f ∈ sources prompt.toList mention, ∀ part ∈ [Part.start, .finish],
        ∀ front numeral back, f.Captures prompt.toList part front numeral back →
          ¬∃ d rest, back = '.' :: d :: rest ∧ isDecimalDigit d := by
  intro h
  obtain ⟨hsearch, hfinding, hway⟩ := search_range
  have hsource : ⟨0, 11, .trimRange, .operation (.trim 1 (some 2))⟩ ∈
      sources "from 1 to 2.5x".toList ⟨0, .phrase .trimRange, .trim 1 (some 2)⟩ := by
    rw [mem_sources_of_phrase rfl, mem_findings]
    refine ⟨List.mem_filterMap.2 ⟨rangeMatch, hsearch, ?_⟩, rfl⟩
    rw [hfinding]
    rfl
  apply h _ _ mem_mentions_multiplier _ _ rfl _ hsource .finish (by decide)
    "from 1 to ".toList "2".toList ".5x".toList
  · refine ⟨by decide, rangeMatch, [], _, _, ⟨rfl, rfl, hway, rfl⟩, hfinding, rfl, ?_⟩
    exact List.mem_cons_self
  · exact ⟨'5', ['x'], rfl, by decide⟩

end Prompt
end VideoEdit
