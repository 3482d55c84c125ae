import VideoEdit.Proofs.Prompt.SpeedForm
import VideoEdit.Proofs.Prompt.TimeNumeral
/-!
# The number of a speed

The only numeral in the phrase of a speed is its number. What follows the number does not yet settle
what it asks for: "2x slower" is half the speed unless "at" or a verb stands in front of it, and the
width of a resolution is no speed unless a verb makes it one.
-/
namespace VideoEdit

/-- A numeral of a text, as long as it can be. -/
structure NumeralAt (text front numeral back : List Char) : Prop where
  split : text = front ++ numeral ++ back
  isNumeral : IsNumeral numeral
  longest : ∀ more, more <:+ front → IsNumeral (more ++ numeral) → more = []
  ends : ∀ c ∈ back.head?, isNumeralChar c = false

private theorem NumeralAt.of_edges {text front numeral back : List Char}
    (hsplit : text = front ++ numeral ++ back) (hnumeral : IsNumeral numeral)
    (hfront : front.getLast?.any isNumeralChar = false)
    (hback : back.head?.any isNumeralChar = false) : NumeralAt text front numeral back := by
  refine ⟨hsplit, hnumeral, ?_, ?_⟩
  · rintro more ⟨rest, rfl⟩ hmore
    by_contra hne
    rw [List.getLast?_append, List.getLast?_eq_some_getLast hne, Option.some_or, Option.any_some,
      hmore.isNumeralChar _ (List.mem_append_left _ (List.getLast_mem hne))] at hfront
    cases hfront
  · intro c hc
    rwa [Option.mem_def.1 hc, Option.any_some] at hback

/-- Whether a text goes on with "x slower". -/
def GoesOnSlower (back : List Char) : Prop :=
  ∃ x gap word rest, back = x :: (gap ++ (word ++ rest)) ∧ Spells [x] "x" ∧
    (gap ≠ [] ∧ ∀ c ∈ gap, isBlank c) ∧ Spells word "slower" ∧ rest.head?.any isWord = false

/-- Whether a text goes on with the height of a resolution that is written with blanks around its
"x". -/
def GoesOnHeight (back : List Char) : Prop :=
  ∃ gap x gap' height rest, back = gap ++ x :: (gap' ++ (height ++ rest)) ∧ Spells [x] "x" ∧
    (gap ≠ [] ∧ ∀ c ∈ gap, isBlank c) ∧ (gap' ≠ [] ∧ ∀ c ∈ gap', isBlank c) ∧
    (height ≠ [] ∧ ∀ c ∈ height, isDecimalDigit c)

private theorem split_at_kind {kind : Char → Bool} {a b c x y : List Char} {d : Char}
    (h : x ++ d :: y = a ++ (b ++ c)) (hd : kind d) (ha : ∀ e ∈ a, kind e = false)
    (hc : ∀ e ∈ c, kind e = false) : ∃ b₁ b₂, b = b₁ ++ d :: b₂ ∧ x = a ++ b₁ ∧ y = b₂ ++ c := by
  have hnot {l : List Char} (hl : ∀ e ∈ l, kind e = false) : d ∉ l := by
    intro hmem
    rw [hl d hmem] at hd
    cases hd
  obtain ⟨b₁, rfl, hb⟩ : ∃ b₁, x = a ++ b₁ ∧ b ++ c = b₁ ++ d :: y := by
    rcases List.append_eq_append_iff.1 h with ⟨r, rfl, hr⟩ | hinside
    · cases r with
      | nil => exact ⟨[], by simp, by simpa using hr.symm⟩
      | cons e r =>
        obtain rfl := (List.cons.inj hr).1
        exact absurd (by simp) (hnot ha)
    · exact hinside
  rcases List.append_eq_append_iff.1 hb with ⟨r, -, rfl⟩ | ⟨b₂, rfl, hy⟩
  · exact absurd (by simp) (hnot hc)
  · cases b₂ with
    | nil =>
      obtain rfl : d :: y = c := hy
      exact absurd List.mem_cons_self (hnot hc)
    | cons e b₂ =>
      obtain ⟨rfl, rfl⟩ := List.cons.inj hy
      exact ⟨b₁, b₂, rfl, rfl, rfl⟩

namespace SpeedForm
open Pattern Phrase

private theorem exists_reading_at {text front numeral back : List Char} {m : Match Part}
    (hm : m ∈ speed.search text) (hat : NumeralAt text front numeral back)
    (hstart : m.start ≤ utf8Length front) (hstop : utf8Length front < m.stop) :
    ∃ (form : SpeedForm) (before lead tail after : List Char) (parts : List (Part × Span)),
      front = before ++ lead ∧ back = tail ++ after ∧ m.start = utf8Length before ∧
      form.Reading before.getLast? lead numeral tail after parts ∧
      m.captured = (form.part, numeral) :: parts.map (fun (name, span) => (name, span.text)) ∧
      (form = multiplier → ∀ v after', lead ++ (numeral ++ back) = v ++ after' →
        ¬slower.shape.Reads before.getLast? v after') := by
  obtain ⟨before, u, t, hgoes, hoccurs⟩ := exists_goesBy_occurs hm
  have hsplit := hat.split
  rw [List.append_assoc] at hsplit
  obtain ⟨x, y, rfl, rfl, hrest, hy⟩ := hoccurs.exists_split hsplit hstart hstop
  obtain ⟨d, digits, rfl, hd⟩ := hat.isNumeral.exists_digit
  obtain ⟨c, y, rfl⟩ := List.exists_cons_of_ne_nil hy
  obtain rfl : d = c := (List.cons.inj hrest).1
  obtain ⟨u, hu, hforms⟩ := exists_form hgoes.way
  obtain rfl := List.append_cancel_right hu
  rcases hforms with ⟨form, hreads, hfirst⟩ | hfixed
  · obtain ⟨lead, number, tail, parts, hu, hreading, hcaptured⟩ := exists_reading hreads
    -- The first digit of the numeral can only lie in the number. The two end together, and no
    -- numeral longer than this one ends there.
    obtain ⟨more, rest, rfl, rfl, rfl⟩ := split_at_kind hu hd hreading.isDecimalDigit_lead
      hreading.isDecimalDigit_tail
    have hboth : (more ++ d :: digits) ++ back = (more ++ d :: rest) ++ (tail ++ t.rest) := by
      simpa using hrest
    have hnumber := hreading.isNumeral.isNumeralChar
    have hnumeral : ∀ c ∈ more ++ d :: digits, isNumeralChar c :=
      List.forall_mem_append.2 ⟨fun c hc => hnumber c (List.mem_append_left _ hc),
        hat.isNumeral.isNumeralChar⟩
    obtain ⟨hsame, rfl⟩ := run_unique hboth hnumeral hnumber hat.ends hreading.ends
    rw [← hsame] at hreading hcaptured
    obtain rfl : more = [] := hat.longest more ⟨before ++ lead, by simp⟩ hreading.isNumeral
    refine ⟨form, before, lead, tail, t.rest, parts, by simp, rfl, hgoes.start, hreading, ?_, ?_⟩
    · simp only [hgoes.captured, hcaptured, List.map_cons, Span.text_append, List.nil_append]
    · simpa [hrest] using hfirst
  · exfalso
    have hnot := isDecimalDigit_of_fixedSpeed (reads_of_readsAs hfixed) d (by simp)
    rw [hd] at hnot
    cases hnot

private theorem exists_reading_of_captured {text before rest front numeral back : List Char}
    {m : Match Part} {t : Scan Part} (hgoes : speed.GoesBy text m before rest t) {part : Part}
    (hpart : part ∈ [.target, .faster, .slower, .multiplier])
    (hspan : (part, ⟨numeral ++ back, back⟩) ∈ t.captured)
    (htext : text = front ++ numeral ++ back) :
    ∃ (form : SpeedForm) (lead tail after : List Char) (parts : List (Part × Span)),
      part = form.part ∧ front = before ++ lead ∧ back = tail ++ after ∧
      form.Reading before.getLast? lead numeral tail after parts ∧
      m.captured = (form.part, numeral) :: parts.map fun (name, span) => (name, span.text) := by
  obtain ⟨u, rfl, ⟨form, hreads, -⟩ | hfixed⟩ := exists_form hgoes.way
  · obtain ⟨lead, number, tail, parts, rfl, hreading, hcaptured⟩ := exists_reading hreads
    rw [hcaptured] at hspan
    rcases List.mem_cons.1 hspan with hsame | hmem
    · simp only [Prod.mk.injEq, Span.mk.injEq] at hsame
      obtain ⟨rfl, hnumeral, rfl⟩ := hsame
      obtain rfl := List.append_cancel_right hnumeral
      refine ⟨form, lead, tail, t.rest, parts, rfl, ?_, rfl, hreading, ?_⟩
      · apply (List.append_left_inj (numeral ++ (tail ++ t.rest))).1
        rw [← List.append_assoc, ← htext, hgoes.split]
        simp only [List.append_assoc]
      · simp only [hgoes.captured, hcaptured, List.map_cons, Span.text_append]
    · obtain rfl := hreading.eq_verb_of_mem hmem
      exact absurd hpart (by decide)
  · have hnames : ∀ names ∈ fixedSpeed.nameLists, ∀ name ∈ names,
        name ∉ [Part.target, .faster, .slower, .multiplier] := by
      decide
    exact absurd hpart (hnames _ (names_of_readsAs hfixed) part (List.mem_map_of_mem hspan))

private theorem isBlank_head?_of_spells {u after : List Char} {word : String} (h : Spells u word)
    (hword : word.toList.head?.any isWord) : ∀ c ∈ (u ++ after).head?, isBlank c = false := by
  rw [← h, List.head?_map] at hword
  cases u with
  | nil => cases hword
  | cons c u =>
    rw [List.head?_cons, Option.map_some, Option.any_some, isWord_foldCase] at hword
    intro d hd
    obtain rfl : c = d := Option.some.inj hd
    exact isBlank_of_isWord hword

private theorem exists_spells_of_times {comparative : String}
    (hword : comparative.toList.head?.any isWord) {before : Option Char}
    {tail after gap gap' rest : List Char} {x : Char}
    (h : (times comparative).Reads before tail after)
    (hback : tail ++ after = gap ++ ([x] ++ (gap' ++ rest))) (hgap : ∀ c ∈ gap, isBlank c)
    (hx : Spells [x] "x") (hgap' : ∀ c ∈ gap', isBlank c)
    (hrest : ∀ c ∈ rest.head?, isBlank c = false) :
    ∃ v, Spells v comparative ∧ rest = v ++ after := by
  obtain ⟨g, _, rfl, hg, y, _, rfl, hy, g', _, rfl, hg', v, _, rfl, hv, rfl, -⟩ := h
  rw [reads_word] at hy hv
  simp only [List.append_assoc, List.nil_append] at hback
  -- Both texts are cut at the end of the first blanks, behind the "x", and at the next blanks.
  obtain ⟨-, hback⟩ := run_unique hback hg hgap (isBlank_head?_of_spells hy (by decide))
    (isBlank_head?_of_spells hx (by decide))
  obtain ⟨-, hback⟩ := List.append_inj hback (hy.length_eq.trans hx.length_eq.symm)
  obtain ⟨-, hback⟩ := run_unique hback (reads_oneOrMore.1 hg').2 hgap'
    (isBlank_head?_of_spells hv hword) hrest
  exact ⟨v, hv, hback.symm⟩

private theorem not_goesOnSlower_of_faster {before : Option Char} {tail after : List Char}
    (h : faster.tail.Reads before tail after) : ¬GoesOnSlower (tail ++ after) := by
  rintro ⟨x, gap, word, rest, hback, hx, ⟨-, hgap⟩, hword, -⟩
  rw [← List.nil_append (x :: _)] at hback
  obtain ⟨v, hv, hrest⟩ := exists_spells_of_times (by decide) h hback (by simp) hx hgap
    (isBlank_head?_of_spells hword (by decide))
  obtain ⟨rfl, -⟩ := List.append_inj hrest (hword.length_eq.trans hv.length_eq.symm)
  exact absurd (hword.symm.trans hv) (by decide)

private theorem reads_slower {before : Option Char} {numeral back : List Char}
    (h : IsNumeral numeral) (hback : GoesOnSlower back) :
    ∃ u after, numeral ++ back = u ++ after ∧ slower.shape.Reads before u after := by
  obtain ⟨x, gap, word, rest, rfl, hx, hgap, hword, hrest⟩ := hback
  have hne : word ≠ [] := by
    rintro rfl
    cases hword
  refine ⟨numeral ++ ([] ++ ([x] ++ (gap ++ (word ++ [])))), rest, by simp, ?_⟩
  refine ⟨[], _, rfl, rfl, numeral, _, rfl, reads_number.2 h, [], _, rfl, ?_, [x], _, rfl,
    reads_word.2 hx, gap, _, rfl, reads_oneOrMore.2 hgap, word, [], rfl, reads_word.2 hword, rfl,
    ?_⟩
  · exact fun c hc => absurd hc List.not_mem_nil
  · rw [boundary_after_word hne (hword.isWord (by decide)), hrest, Bool.not_false]

private theorem not_goesOnHeight_of_times {comparative : String} {c : Char} {letters : List Char}
    (hcomparative : comparative.toList = c :: letters) (hc : isWord c)
    (hdigit : isDecimalDigit c = false) {before : Option Char} {tail after : List Char}
    (h : (times comparative).Reads before tail after) : ¬GoesOnHeight (tail ++ after) := by
  rintro ⟨gap, x, gap', height, rest, hback, hx, ⟨-, hgap⟩, ⟨-, hgap'⟩, hne, hheight⟩
  obtain ⟨d, height, rfl⟩ := List.exists_cons_of_ne_nil hne
  have hd := hheight d List.mem_cons_self
  have hhead : ∀ e ∈ (d :: height ++ rest).head?, isBlank e = false := by
    intro e he
    obtain rfl : d = e := Option.some.inj he
    exact isBlank_of_isWord (isWord_of_isDecimalDigit hd)
  have hletter : comparative.toList.head?.any isWord := by rw [hcomparative]; exact hc
  obtain ⟨v, hv, hrest⟩ := exists_spells_of_times hletter h hback hgap hx hgap' hhead
  obtain ⟨e, v, rfl, he, -⟩ := List.map_eq_cons_iff.1 (hv.trans hcomparative)
  obtain rfl : d = e := (List.cons.inj hrest).1
  rw [← he, isDecimalDigit_foldCase, hd] at hdigit
  cases hdigit

private theorem not_goesOnHeight_of_multiplier {before : Option Char} {tail after : List Char}
    (h : multiplier.tail.Reads before tail after) : ¬GoesOnHeight (tail ++ after) := by
  rintro ⟨gap, x, gap', height, rest, hback, -, ⟨hne, hgap⟩, -, -⟩
  obtain ⟨b, gap, rfl⟩ := List.exists_cons_of_ne_nil hne
  obtain ⟨y, _, rfl, hy, rfl, -⟩ := h
  rw [List.append_nil] at hback
  have hhead : b ∈ (y ++ after).head? := by
    rw [hback]
    rfl
  have hb := isBlank_head?_of_spells (reads_word.1 hy) (by decide) b hhead
  rw [hgap b List.mem_cons_self] at hb
  cases hb

private theorem eq_byVerb_of_goesOnHeight {form : SpeedForm} {before : Option Char}
    {tail after : List Char} (h : form.tail.Reads before tail after)
    (hback : GoesOnHeight (tail ++ after)) : form = byVerb := by
  cases form with
  | byVerb => rfl
  | faster | slower => exact absurd hback (not_goesOnHeight_of_times rfl (by decide) (by decide) h)
  | multiplier => exact absurd hback (not_goesOnHeight_of_multiplier h)

end SpeedForm

namespace Prompt
open SpeedForm
variable {prompt : String} {mention : Mention} {factor : Binary64} {f : Found}

private theorem exists_match_of_speed (h : mention ∈ (parse prompt).mentions)
    (hspeed : mention.operation = .speed factor) (hf : f ∈ sources prompt.toList mention) :
    f.rule = .speed ∧ f.finding = .operation (.speed factor) ∧
      ∃ m ∈ Phrase.speed.search prompt.toList,
        Rule.speed.finding? m = some (.operation (.speed factor)) ∧ f.start = m.start ∧
          f.stop = m.stop := by
  rcases mem_assembleFindings.1 h with ⟨g, -, hg⟩ | hwindow
  · obtain ⟨hfound, hmention⟩ := (mem_sources_of_phrase (Found.mention?_eq_some hg).2).1 hf
    have hfinding := finding_of_mention? hmention
    rw [hspeed] at hfinding
    obtain ⟨m, hm, hmatch, -, hstart, hstop⟩ := mem_findingsOf_match (mem_findings.1 hfound)
    rw [hfinding] at hmatch
    have hrule : f.rule = .speed := Rule.eq_of_kind? (Rule.kind?_of_finding? hmatch) rfl
    rw [hrule] at hm hmatch
    exact ⟨hrule, hfinding, m, hm, hmatch, hstart, hstop⟩
  · obtain ⟨first, -, rfl⟩ := Option.map_eq_some_iff.1 hwindow
    cases hspeed

/-- A speed written as a number that is to be slower is that number turned over, unless "at" or a
verb stands in front of the number. -/
theorem speed_slower (h : mention ∈ (parse prompt).mentions)
    (hspeed : mention.operation = .speed factor) (hf : f ∈ sources prompt.toList mention)
    {front numeral back : List Char} (hat : NumeralAt prompt.toList front numeral back)
    (hback : GoesOnSlower back) (hcovers : f.Covers (utf8Length front)) :
    ∃ before lead number, front = before ++ lead ∧ f.start = utf8Length before ∧
      Numeral.read? numeral = some number ∧
      (lead = [] ∧ factor = 1 / number ∨
        (Pattern.word "at" ++ Phrase.blanks).Reads before.getLast? lead (numeral ++ back) ∧
          factor = number ∨
        ∃ verb gap, lead = verb ++ gap ∧ LedByVerb before.getLast? verb gap (numeral ++ back) ∧
          factor = Finding.verbFactor verb number) := by
  obtain ⟨-, -, m, hm, hmatch, hstart, hstop⟩ := exists_match_of_speed h hspeed hf
  rw [Found.Covers, hstart, hstop] at hcovers
  obtain ⟨form, before, lead, tail, after, parts, rfl, rfl, hplace, hreading, hcaptured, hfirst⟩ :=
    exists_reading_at hm hat hcovers.1 hcovers.2
  obtain ⟨number, hnumber, hasks⟩ := hreading.asks hcaptured hmatch
  refine ⟨before, lead, number, rfl, hstart.trans hplace, hnumber, ?_⟩
  cases form with
  | byVerb => exact Or.inr (Or.inr hasks)
  | faster => exact absurd hback (not_goesOnSlower_of_faster hreading.reads_tail)
  | slower => exact Or.inl hasks
  | multiplier =>
    -- Without "at" the form for slower speeds begins at the same place, and is preferred.
    obtain ⟨hlead | rfl, hfactor⟩ := hasks
    · exact Or.inr (Or.inl ⟨hlead, hfactor⟩)
    · obtain ⟨u, after', hu, hslower⟩ := reads_slower hat.isNumeral hback
      exact absurd hslower (hfirst rfl u after' hu)

private def halfMatch : Match Part := ⟨8, 17, [(.slower, "2".toList)]⟩

private def twiceMatch : Match Part := ⟨8, 13, [(.multiplier, "2".toList)]⟩

private theorem search_slower :
    Rule.speed.shape.search "make it 2x slower".toList = [halfMatch] ∧
      Rule.speed.finding? halfMatch = some (.operation (.speed (.fraction 1 2))) ∧
      Rule.speed.shape.search "play it at 2x slower".toList = [twiceMatch] ∧
      Rule.speed.finding? twiceMatch = some (.operation (.speed 2)) ∧
      Numeral.read? "2".toList = some 2 ∧ Binary64.less 1 2 ∧ (2 : Binary64) ≠ 1 / 2 := by
  decide +kernel

private theorem isNumeral_two : IsNumeral "2".toList :=
  ⟨"2".toList, [], rfl, ⟨by decide, List.all_eq_true.1 rfl⟩, Or.inl rfl⟩

private theorem goesOnSlower_slower : GoesOnSlower "x slower".toList :=
  ⟨'x', [' '], "slower".toList, [], rfl, rfl, ⟨by decide, List.all_eq_true.1 rfl⟩, rfl, rfl⟩

/-- "Make it 2x slower" asks for half the speed. -/
theorem speed_slower_half :
    let text := "make it 2x slower".toList
    let mention : Mention := ⟨8, .phrase .speed, .speed (.fraction 1 2)⟩
    mention ∈ (parse "make it 2x slower").mentions ∧
      mention.operation = .speed (.fraction 1 2) ∧
      ∃ f ∈ sources text mention,
        NumeralAt text "make it ".toList "2".toList "x slower".toList ∧
        GoesOnSlower "x slower".toList ∧ f.Covers (utf8Length "make it ".toList) ∧
        ∃ before lead number, "make it ".toList = before ++ lead ∧ f.start = utf8Length before ∧
          Numeral.read? "2".toList = some number ∧
          (lead = [] ∧ .fraction 1 2 = 1 / number ∨
            (Pattern.word "at" ++ Phrase.blanks).Reads before.getLast? lead
                ("2".toList ++ "x slower".toList) ∧ .fraction 1 2 = number ∨
            ∃ verb gap, lead = verb ++ gap ∧
              LedByVerb before.getLast? verb gap ("2".toList ++ "x slower".toList) ∧
              .fraction 1 2 = Finding.verbFactor verb number) := by
  obtain ⟨hsearch, hfinding, -⟩ := search_slower
  have hm : halfMatch ∈ Rule.speed.shape.search "make it 2x slower".toList := by
    rw [hsearch]
    exact List.mem_singleton_self halfMatch
  have hmem := mem_mentions_phrase_iff.2 ⟨halfMatch, hm, rfl, hfinding⟩
  have hsource := mem_sources_of_match hm hfinding
  have hat : NumeralAt "make it 2x slower".toList "make it ".toList "2".toList
      "x slower".toList :=
    .of_edges (by decide) isNumeral_two (by decide) (by decide)
  have hcovers : Found.Covers ⟨8, 17, .speed, .operation (.speed (.fraction 1 2))⟩
      (utf8Length "make it ".toList) := by
    unfold Found.Covers
    decide
  exact ⟨hmem, rfl, _, hsource, hat, goesOnSlower_slower, hcovers,
    speed_slower hmem rfl hsource hat goesOnSlower_slower hcovers⟩

/-- "At 2x slower" asks for twice the speed, though no verb says so. -/
theorem speed_slower_twice :
    ¬∀ (prompt : String), ∀ mention ∈ (parse prompt).mentions, ∀ factor,
      mention.operation = .speed factor → ∀ f ∈ sources prompt.toList mention,
      (∀ m ∈ Rule.speed.shape.search prompt.toList, m.start = f.start → m.text? .verb = none) →
      ∀ front numeral back number, NumeralAt prompt.toList front numeral back →
        GoesOnSlower back → f.start ≤ utf8Length front →
        utf8Length (front ++ numeral) ≤ f.stop → Numeral.read? numeral = some number →
        Binary64.less 1 number → factor = 1 / number := by
  intro h
  obtain ⟨-, -, hsearch, hfinding, hread, hless, hne⟩ := search_slower
  have hm : twiceMatch ∈ Rule.speed.shape.search "play it at 2x slower".toList := by
    rw [hsearch]
    exact List.mem_singleton_self twiceMatch
  have hmem := mem_mentions_phrase_iff.2 ⟨twiceMatch, hm, rfl, hfinding⟩
  have hsource := mem_sources_of_match hm hfinding
  have hverb : ∀ m ∈ Rule.speed.shape.search "play it at 2x slower".toList, m.start = 8 →
      m.text? .verb = none := by
    rw [hsearch]
    decide
  have hat : NumeralAt "play it at 2x slower".toList "play it at ".toList "2".toList
      "x slower".toList :=
    .of_edges (by decide) isNumeral_two (by decide) (by decide)
  exact hne (h _ _ hmem _ rfl _ hsource hverb _ _ _ _ hat goesOnSlower_slower (by decide)
    (by decide) hread hless)

/-- The width of a resolution with blanks around its "x" is the number of a speed only if a verb
stands in front of it. -/
theorem speed_resolution (h : mention ∈ (parse prompt).mentions)
    (hspeed : mention.operation = .speed factor) (hf : f ∈ sources prompt.toList mention)
    {part : Part} (hpart : part ∈ [.target, .faster, .slower, .multiplier])
    {front width back : List Char} (hcaptures : f.Captures prompt.toList part front width back)
    (hback : GoesOnHeight back) :
    part = .target ∧ ∃ before verb gap number, front = before ++ (verb ++ gap) ∧
      f.start = utf8Length before ∧ LedByVerb before.getLast? verb gap (width ++ back) ∧
      Numeral.read? width = some number ∧ factor = Finding.verbFactor verb number := by
  obtain ⟨hrule, hfinding, -⟩ := exists_match_of_speed h hspeed hf
  obtain ⟨hsplit, m, before, rest, t, hgoes, hmatch, hstart, hspan⟩ := hcaptures
  rw [hrule] at hgoes hmatch
  rw [hfinding] at hmatch
  obtain ⟨form, lead, tail, after, parts, rfl, rfl, rfl, hreading, hcaptured⟩ :=
    exists_reading_of_captured hgoes hpart hspan hsplit
  obtain rfl := eq_byVerb_of_goesOnHeight hreading.reads_tail hback
  obtain ⟨number, hnumber, verb, gap, rfl, hverb, hfactor⟩ := hreading.asks hcaptured hmatch
  exact ⟨rfl, before, verb, gap, number, rfl, hstart.symm.trans hgoes.start, hverb, hnumber,
    hfactor⟩

private def widthMatch : Match Part :=
  ⟨0, 18, [(.target, "1920".toList), (.verb, "playback".toList)]⟩

private theorem search_width :
    Rule.speed.shape.search "playback at 1920 x 1080".toList = [widthMatch] ∧
      Rule.speed.finding? widthMatch = some (.operation (.speed 1920)) ∧
      Rule.speed.shape.first? ⟨none, "playback at 1920 x 1080".toList, []⟩ = some
        ⟨some 'x', " 1080".toList, [(.target, ⟨"1920 x 1080".toList, " x 1080".toList⟩),
          (.verb, ⟨"playback at 1920 x 1080".toList, " at 1920 x 1080".toList⟩)]⟩ := by
  decide +kernel

private theorem goesOnHeight_1080 : GoesOnHeight " x 1080".toList :=
  ⟨[' '], 'x', [' '], "1080".toList, [], rfl, rfl, ⟨by decide, List.all_eq_true.1 rfl⟩,
    ⟨by decide, List.all_eq_true.1 rfl⟩, by decide, List.all_eq_true.1 rfl⟩

private theorem captures_width : Found.Captures "playback at 1920 x 1080".toList
    ⟨0, 18, .speed, .operation (.speed 1920)⟩ .target "playback at ".toList "1920".toList
      " x 1080".toList := by
  obtain ⟨-, hfinding, hway⟩ := search_width
  exact ⟨by decide, widthMatch, [], _, _, ⟨rfl, rfl, hway, rfl⟩, hfinding, rfl, List.mem_cons_self⟩

/-- "Playback at 1920 x 1080" takes the width for a speed. -/
theorem speed_resolution_playback :
    let text := "playback at 1920 x 1080".toList
    let mention : Mention := ⟨0, .phrase .speed, .speed 1920⟩
    mention ∈ (parse "playback at 1920 x 1080").mentions ∧ mention.operation = .speed 1920 ∧
      ∃ f ∈ sources text mention,
        f.Captures text .target "playback at ".toList "1920".toList " x 1080".toList ∧
        GoesOnHeight " x 1080".toList ∧
        ∃ before verb gap number, "playback at ".toList = before ++ (verb ++ gap) ∧
          f.start = utf8Length before ∧
          LedByVerb before.getLast? verb gap ("1920".toList ++ " x 1080".toList) ∧
          Numeral.read? "1920".toList = some number ∧ 1920 = Finding.verbFactor verb number := by
  obtain ⟨hsearch, hfinding, -⟩ := search_width
  have hm : widthMatch ∈ Rule.speed.shape.search "playback at 1920 x 1080".toList := by
    rw [hsearch]
    exact List.mem_singleton_self widthMatch
  have hmem := mem_mentions_phrase_iff.2 ⟨widthMatch, hm, rfl, hfinding⟩
  have hsource := mem_sources_of_match hm hfinding
  exact ⟨hmem, rfl, _, hsource, captures_width, goesOnHeight_1080,
    (speed_resolution hmem rfl hsource (by decide) captures_width goesOnHeight_1080).2⟩

/-- The width of a resolution can be taken for a speed. -/
theorem speed_of_width :
    ¬∀ (prompt : String), ∀ mention ∈ (parse prompt).mentions, ∀ factor,
      mention.operation = .speed factor → ∀ f ∈ sources prompt.toList mention,
      ∀ part ∈ [Part.target, .faster, .slower, .multiplier], ∀ front width back,
        width ≠ [] → (∀ c ∈ width, isDecimalDigit c) → GoesOnHeight back →
          ¬f.Captures prompt.toList part front width back := by
  intro h
  obtain ⟨hsearch, hfinding, -⟩ := search_width
  have hm : widthMatch ∈ Rule.speed.shape.search "playback at 1920 x 1080".toList := by
    rw [hsearch]
    exact List.mem_singleton_self widthMatch
  exact h _ _ (mem_mentions_phrase_iff.2 ⟨widthMatch, hm, rfl, hfinding⟩) _ rfl _
    (mem_sources_of_match hm hfinding) .target (by decide) _ _ _ (by decide)
    (List.all_eq_true.1 rfl) goesOnHeight_1080 captures_width

end Prompt
end VideoEdit
