import VideoEdit.Proofs.Prompt.Clauses
import VideoEdit.Proofs.Prompt.TimeText
/-!
# A single bound

"Start at" and "stop at" with a clock time name one bound of a window and nothing else, unless the
time begins with an aspect ratio.
-/
namespace VideoEdit

def clockChars : List Char := ':' :: asciiDigits

private theorem Timestamp.mem_clockChars (t : Timestamp) : ∀ c ∈ t.text, c ∈ clockChars := by
  intro c hc
  rcases mem_of_mem_intercalate hc with hc | ⟨text, htext, hc⟩
  · rw [List.mem_singleton.1 hc]
    exact List.mem_cons_self
  · obtain ⟨d, -, rfl⟩ := List.mem_map.1 htext
    exact List.mem_cons_of_mem _ (mem_asciiDigits_of_isDigit (d.isDigit_of_mem c hc))

private theorem Rule.not_spellable (rule : Rule) :
    (rule ≠ trimStartAt → rule ≠ crop →
      rule.shape.spellable ("start at ".toList ++ clockChars) = false) ∧
    (rule ≠ trimEnd → rule ≠ crop →
      rule.shape.spellable ("stop at ".toList ++ clockChars) = false) := by
  cases rule <;> decide

namespace Phrase
open Pattern

private theorem ratio_of_reads_crop {before : Option Char} {u after : List Char}
    (h : crop.Reads before u after) (hu : ∀ c ∈ u, c ∈ "start op".toList ++ clockChars) :
    (u = "1:1".toList ∨ u = "9:16".toList) ∧ before.any isWord = false ∧
      after.head?.any isWord = false := by
  obtain ⟨_, _, rfl, ⟨_, w, rfl, ⟨rfl, hstart⟩, hword⟩, rfl, hend⟩ := h
  simp only [List.nil_append, List.append_nil] at hu hstart hend ⊢
  have hspells : ∃ word ∈ ["square", "1:1", "portrait", "vertical", "9:16", "9x16"],
      Spells w word := by
    rcases hword with hsquare | hportrait | hnever
    · obtain ⟨word, hmem, hspells⟩ := reads_oneOf.1 hsquare
      exact ⟨word, List.mem_append_left _ hmem, hspells⟩
    · obtain ⟨word, hmem, hspells⟩ := reads_oneOf.1 hportrait
      exact ⟨word, List.mem_append_right ["square", "1:1"] hmem, hspells⟩
    · cases hnever
  obtain ⟨word, hmem, hspells⟩ := hspells
  have hfits : ∀ word ∈ ["square", "1:1", "portrait", "vertical", "9:16", "9x16"],
      (word.toList.all fun c => c ∈ ("start op".toList ++ clockChars).map foldCase) →
        word ∈ ["1:1", "9:16"] := by
    decide
  have hratio := hfits word hmem (by
    rw [← hspells]
    exact List.all_iff_forall_prop.2 fun c hc => List.map_subset _ hu hc)
  have hbegins {c : Char} (hc : isWord c) {text : List Char}
      (h : Scan.boundary before (c :: text)) : before.any isWord = false := by
    simpa [Scan.boundary, hc] using h
  have hends {c : Char} (hc : isWord c) (h : Scan.boundary (some c) after) :
      after.head?.any isWord = false := by
    simpa [Scan.boundary, hc] using h
  rcases List.mem_pair.1 hratio with rfl | rfl
  · obtain rfl := hspells.eq_of_not_isAlpha (by decide)
    exact ⟨Or.inl rfl, hbegins (by decide) hstart, hends (c := '1') (by decide) hend⟩
  · obtain rfl := hspells.eq_of_not_isAlpha (by decide)
    exact ⟨Or.inr rfl, hbegins (by decide) hstart, hends (c := '6') (by decide) hend⟩

end Phrase

private theorem TwoDigits.isWord_tens (d : TwoDigits) : isWord d.tens :=
  isWord_of_isDecimalDigit (isDecimalDigit_of_isDigit d.isDigit_tens)

private theorem TwoDigits.isWord_ones (d : TwoDigits) : isWord d.ones :=
  isWord_of_isDecimalDigit (isDecimalDigit_of_isDigit d.isDigit_ones)

namespace Timestamp
variable {start a b : List Char}

private theorem text_minutes (m : Digits) (s : TwoDigits) :
    (minutes m s).text = m.text ++ ':' :: s.digits.text := by
  simp [text, fields, List.intercalate]

private theorem text_hours (h : Digits) (m s : TwoDigits) :
    (hours h m s).text = h.text ++ ':' :: (m.digits.text ++ ':' :: s.digits.text) := by
  simp [text, fields, List.intercalate]

private theorem split_at_colon (t : Timestamp) (hstart : ':' ∉ start)
    (h : start ++ t.text = a ++ ':' :: b) :
    ∃ (s : TwoDigits) (more : List Char), b = s.digits.text ++ more ∧
      ((∃ d : Digits, a = start ++ d.text ∧ t.text = d.text ++ ':' :: b) ∨
        ∃ front, ∃ m : TwoDigits, a = front ++ ':' :: m.digits.text) := by
  have hdigits (d : Digits) : ':' ∉ d.text := d.not_mem_text (by decide)
  cases t with
  | minutes m s =>
    rw [text_minutes, ← List.append_assoc] at h
    have hfront : ':' ∉ start ++ m.text := by simp [hstart, hdigits]
    obtain ⟨rfl, -, rfl⟩ := (List.append_cons_inj_of_notMem hfront (hdigits s.digits)).1 h
    exact ⟨s, [], (List.append_nil _).symm, Or.inl ⟨m, rfl, text_minutes m s⟩⟩
  | hours hh m s =>
    rw [text_hours, ← List.append_assoc] at h
    have hfront : ':' ∉ start ++ hh.text := by simp [hstart, hdigits]
    rcases List.append_eq_append_iff.1 h with ⟨z, rfl, hz⟩ | ⟨z, hz, hrest⟩
    · cases z with
      | nil =>
        obtain rfl := (List.cons.inj hz).2
        exact ⟨m, _, rfl, Or.inl ⟨hh, List.append_nil _, text_hours hh m s⟩⟩
      | cons c z =>
        obtain ⟨rfl, hfields⟩ := List.cons.inj hz
        obtain ⟨rfl, -, rfl⟩ :=
          (List.append_cons_inj_of_notMem (hdigits m.digits) (hdigits s.digits)).1 hfields
        exact ⟨s, [], (List.append_nil _).symm, Or.inr ⟨start ++ hh.text, m, rfl⟩⟩
    · cases z with
      | nil =>
        obtain rfl := (List.cons.inj hrest).2
        rw [List.append_nil] at hz
        exact ⟨m, _, rfl, Or.inl ⟨hh, hz.symm, text_hours hh m s⟩⟩
      | cons c z =>
        obtain ⟨rfl, -⟩ := List.cons.inj hrest
        rw [hz] at hfront
        simp at hfront

private theorem text_eq_singleton {front : List Char} {d : Digits} {c : Char}
    (h : start ++ d.text = front ++ [c]) (hfront : front.getLast?.any isWord = false) :
    d.text = [c] := by
  obtain ⟨digits, e, hd⟩ := (List.eq_nil_or_concat' d.text).resolve_left d.ne_nil
  rw [hd, ← List.append_assoc] at h
  obtain ⟨rfl, hc⟩ := List.append_inj' h rfl
  obtain rfl := (List.cons.inj hc).1
  rcases List.eq_nil_or_concat' digits with rfl | ⟨digits, e', rfl⟩
  · exact hd
  -- One more digit would be a word in front of the last one.
  · have hdigit : isDecimalDigit e' := d.isDecimalDigit_of_mem e' (by simp [hd])
    rw [← List.append_assoc, List.getLast?_concat, Option.any_some,
      isWord_of_isDecimalDigit hdigit] at hfront
    cases hfront

private theorem search_crop_eq_nil (t : Timestamp) (hratio : ¬"9:16".toList <+: t.text)
    (hstart : ':' ∉ start) (hchars : start.all fun c => c ∈ "start op".toList) :
    Phrase.crop.search (start ++ t.text) = [] := by
  rw [List.eq_nil_iff_forall_not_mem]
  intro m hm
  obtain ⟨front, u, back, hsplit, -, -, hreads⟩ := Pattern.exists_occurs hm
  have hu : ∀ c ∈ u, c ∈ "start op".toList ++ clockChars := by
    intro c hc
    have hmem : c ∈ start ++ t.text := by
      rw [hsplit]
      simp [hc]
    exact List.mem_append.2 ((List.mem_append.1 hmem).imp
      (List.all_iff_forall_prop.1 hchars c) (t.mem_clockChars c))
  obtain ⟨hu, hfront, hback⟩ := Phrase.ratio_of_reads_crop hreads hu
  rcases hu with rfl | rfl
  · -- Behind a colon two digits stand at once, so no word ends after the first of them.
    obtain ⟨s, more, hb, -⟩ := t.split_at_colon hstart (a := front ++ ['1']) (b := '1' :: back)
      (by simpa using hsplit)
    obtain rfl : back = s.ones :: more := (List.cons.inj hb).2
    rw [List.head?_cons, Option.any_some, s.isWord_ones] at hback
    cases hback
  · -- In front of the colon stands the first field or a later one, whose two digits are one word.
    obtain ⟨s, more, -, ⟨d, hd, htext⟩ | ⟨before, f, hf⟩⟩ := t.split_at_colon hstart
      (a := front ++ ['9']) (b := '1' :: '6' :: back) (by simpa using hsplit)
    · apply hratio
      rw [htext, text_eq_singleton hd.symm hfront]
      exact ⟨back, rfl⟩
    · have hlast : front = before ++ [':', f.tens] := by
        have hsplit : front ++ ['9'] = (before ++ [':', f.tens]) ++ [f.ones] := by
          simpa [TwoDigits.digits] using hf
        exact (List.append_inj' hsplit rfl).1
      rw [hlast, List.getLast?_append_cons] at hfront
      simp [f.isWord_tens] at hfront

end Timestamp

namespace Phrase
open Pattern

private theorem prefers_phrase {p : Shape} {phrase : List Char}
    (hp : ∀ after, p.Prefers none phrase ([' '] ++ after) []) (value units : Part) (t : Timestamp) :
    (p ++ blanks ++ timed value units ++ wordBoundary).Prefers none (phrase ++ [' '] ++ t.text) []
      [(value, t.text)] := by
  let x := TimeText.clock t
  have hblanks : (blanks : Shape).Prefers (lastOr none phrase) [' '] (x.text ++ unitText none) [] :=
    prefers_oneOrMore (by simp) (List.all_eq_true.1 (by decide))
      fun c hc => isBlank_of_mem_asciiDigits (x.head_mem c hc)
  have hphrase := x.prefers_timed_boundary none value units ((hp _).seq hblanks)
  rw [unitText, List.append_nil] at hphrase
  exact hphrase

private theorem trimStartAt_prefers (t : Timestamp) :
    trimStartAt.Prefers none ("start at ".toList ++ t.text) [] [(.start, t.text)] := by
  have hphrase (after : List Char) : (wordBoundary ++
      ((oneOf ["cut", "trim", "start", "starting", "begin", "beginning"] ++ blanks ++
        oneOf ["from", "at"]) ||| word "from") : Shape).Prefers none "start at".toList
      ([' '] ++ after) [] := fun _ => ⟨_, rfl, rfl, rfl, rfl⟩
  exact prefers_phrase hphrase .start .startUnit t

private theorem trimEnd_prefers (t : Timestamp) :
    trimEnd.Prefers none ("stop at ".toList ++ t.text) [] [(.finish, t.text)] := by
  have hphrase (after : List Char) : (wordBoundary ++
      choice [word "to", word "until", word "till", word "through",
        oneOf ["end", "ending", "stop", "stopping"] ++ blanks ++ word "at"] : Shape).Prefers none
      "stop at".toList ([' '] ++ after) [] := fun _ => ⟨_, rfl, rfl, rfl, rfl⟩
  exact prefers_phrase hphrase .finish .finishUnit t

end Phrase

namespace Prompt

private theorem findingsOf_eq_nil {text : List Char} {rule : Rule}
    (h : rule.shape.search text = []) :
    findingsOf text rule = [] := by
  rw [findingsOf, h, List.filterMap_nil]

private theorem findingsOf_eq_singleton {text : List Char} {rule : Rule}
    {parts : List (Part × List Char)}
    {finding : Finding} (h : rule.shape.Prefers none text [] parts) (hne : text ≠ [])
    (hfinding : rule.finding? ⟨0, utf8Length text, parts⟩ = some finding) :
    findingsOf text rule = [⟨0, utf8Length text, rule, finding⟩] := by
  rw [findingsOf, Pattern.search_eq_of_prefers h hne]
  simp only [List.filterMap_cons, hfinding, Option.map_some, List.filterMap_nil]

private theorem assembleFindings_start (stop : Nat) (seconds : Binary64) :
    (assembleFindings [⟨0, stop, .trimStartAt, .start seconds⟩]).mentions =
      [⟨0, .bounds, .trim seconds none⟩] :=
  rfl

private theorem assembleFindings_finish (stop : Nat) (seconds : Binary64) :
    (assembleFindings [⟨0, stop, .trimEnd, .finish seconds⟩]).mentions =
      [⟨0, .bounds, .trim 0 (some seconds)⟩] :=
  rfl

private theorem assembleFindings_claimed {bound claim : Found} {mention : Mention}
    (hbound : bound.isBound) (hclaim : claim.mention? = some mention)
    (hoverlaps : bound.overlaps claim) :
    (assembleFindings [bound, claim]).mentions = [mention] := by
  have hnone : bound.mention? = none := by
    unfold Found.isBound Found.startBound? Found.finishBound? at hbound
    unfold Found.mention?
    cases hfinding : bound.finding <;> simp [hfinding] at hbound ⊢
  have hloose : looseBounds [bound, claim] = [] := by
    have hclaimBound : claim.isBound = false := by
      unfold Found.mention? at hclaim
      unfold Found.isBound Found.startBound? Found.finishBound?
      cases hfinding : claim.finding <;> simp [hfinding] at hclaim ⊢
    simp [looseBounds, hclaim, hclaimBound, hoverlaps]
  rw [assembleFindings_mentions, hloose]
  simp [boundsMention?, hnone, hclaim]

section Bounds
variable (t : Timestamp) {phrase : List Char}

private theorem bound?_text : Finding.bound? t.text none = some t.seconds := by
  have hseconds := TimeText.seconds?_text (.clock t) none
  rw [Finding.bound?, if_neg (by simp [t.mem_text])]
  exact hseconds

private theorem findings_phrase {rule : Rule} (hrule : rule = .trimStartAt ∨ rule = .trimEnd)
    {parts : List (Part × List Char)} {bound : Finding} (hne : phrase ≠ [])
    (hreads : rule.shape.Prefers none (phrase ++ t.text) [] parts)
    (hbound : rule.finding? ⟨0, utf8Length (phrase ++ t.text), parts⟩ = some bound)
    (hother : ∀ r, r ≠ rule → r ≠ .crop → r.shape.spellable (phrase ++ clockChars) = false)
    {crops : List Found} (hcrops : findingsOf (phrase ++ t.text) .crop = crops)
    (hbehind : ∀ crop ∈ crops, 0 < crop.start) (hordered : crops.Pairwise Found.Before) :
    findings (phrase ++ t.text) = ⟨0, utf8Length (phrase ++ t.text), rule, bound⟩ :: crops := by
  have hrest : ∀ r, r ≠ rule → r ≠ .crop → findingsOf (phrase ++ t.text) r = [] := by
    intro r hr hr'
    apply findingsOf_eq_nil
    apply Pattern.search_eq_nil_of_not_spellable (hother r hr hr')
    exact fun c hc => List.mem_append.2 ((List.mem_append.1 hc).imp_right (t.mem_clockChars c))
  have hfound := findingsOf_eq_singleton hreads (List.append_ne_nil_of_left_ne_nil hne _) hbound
  refine findings_eq_of_perm ?_ ?_
  · rcases hrule with rfl | rfl
    · simp [Rule.all, hfound, hcrops, hrest]
    · simp [Rule.all, hfound, hcrops, hrest]
  · exact List.pairwise_cons.2 ⟨fun crop hcrop => Or.inl (hbehind crop hcrop), hordered⟩

private theorem findings_start {crops : List Found}
    (hcrops : findingsOf ("start at ".toList ++ t.text) .crop = crops)
    (hbehind : ∀ crop ∈ crops, 0 < crop.start) (hordered : crops.Pairwise Found.Before) :
    findings ("start at ".toList ++ t.text) =
      ⟨0, utf8Length ("start at ".toList ++ t.text), .trimStartAt, .start t.seconds⟩ :: crops := by
  have hbound (stop : Nat) :
      Rule.trimStartAt.finding? ⟨0, stop, [(.start, t.text)]⟩ = some (.start t.seconds) := by
    change (Finding.bound? t.text none).bind _ = _
    rw [bound?_text]
    rfl
  exact findings_phrase t (Or.inl rfl) (List.cons_ne_nil _ _) (Phrase.trimStartAt_prefers t)
    (hbound _) (fun r => (Rule.not_spellable r).1) hcrops hbehind hordered

private theorem findings_stop {crops : List Found}
    (hcrops : findingsOf ("stop at ".toList ++ t.text) .crop = crops)
    (hbehind : ∀ crop ∈ crops, 0 < crop.start) (hordered : crops.Pairwise Found.Before) :
    findings ("stop at ".toList ++ t.text) =
      ⟨0, utf8Length ("stop at ".toList ++ t.text), .trimEnd, .finish t.seconds⟩ :: crops := by
  have hbound (stop : Nat) :
      Rule.trimEnd.finding? ⟨0, stop, [(.finish, t.text)]⟩ = some (.finish t.seconds) := by
    change (Finding.bound? t.text none).bind _ = _
    rw [bound?_text]
    rfl
  exact findings_phrase t (Or.inr rfl) (List.cons_ne_nil _ _) (Phrase.trimEnd_prefers t)
    (hbound _) (fun r => (Rule.not_spellable r).2) hcrops hbehind hordered

private theorem parse_ofList (text : List Char) :
    parse (String.ofList text) = assembleFindings (findings text) := by
  rw [parse, String.toList_ofList]

private theorem mentions_ratio (h : t.text = "9:16".toList) :
    (parse (String.ofList ("start at ".toList ++ t.text))).mentions =
        [⟨9, .phrase .crop, .crop .portraitFill⟩] ∧
      (parse (String.ofList ("stop at ".toList ++ t.text))).mentions =
        [⟨8, .phrase .crop, .crop .portraitFill⟩] := by
  have hcrops : findingsOf "start at 9:16".toList .crop =
        [⟨9, 13, .crop, .operation (.crop .portraitFill)⟩] ∧
      findingsOf "stop at 9:16".toList .crop =
        [⟨8, 12, .crop, .operation (.crop .portraitFill)⟩] := by
    decide
  have hlength : utf8Length ("start at ".toList ++ "9:16".toList) = 13 ∧
      utf8Length ("stop at ".toList ++ "9:16".toList) = 12 := by
    decide
  have hstart := findings_start t (by rw [h]; exact hcrops.1) (by simp)
    (List.pairwise_singleton _ _)
  have hstop := findings_stop t (by rw [h]; exact hcrops.2) (by simp) (List.pairwise_singleton _ _)
  rw [parse_ofList, parse_ofList, hstart, hstop, h, hlength.1, hlength.2]
  exact ⟨assembleFindings_claimed rfl rfl rfl, assembleFindings_claimed rfl rfl rfl⟩

/-- A clock time that begins with no aspect ratio makes one bound of a window and nothing else. -/
theorem parse_bound :
    (t.total < 2 ^ 53 → ¬"9:16".toList <+: t.text →
      (parse (String.ofList ("start at ".toList ++ t.text))).mentions =
          [⟨0, .bounds, .trim (.ofNat t.total) none⟩] ∧
        (parse (String.ofList ("stop at ".toList ++ t.text))).mentions =
          [⟨0, .bounds, .trim 0 (some (.ofNat t.total))⟩] ∧
        (Binary64.ofNat t.total).value = t.total) ∧
    (t.text = "9:16".toList →
      (parse (String.ofList ("start at ".toList ++ t.text))).mentions =
          [⟨9, .phrase .crop, .crop .portraitFill⟩] ∧
        (parse (String.ofList ("stop at ".toList ++ t.text))).mentions =
          [⟨8, .phrase .crop, .crop .portraitFill⟩]) := by
  constructor
  · intro hsmall hratio
    have hcrop {phrase : List Char} (hcolon : ':' ∉ phrase)
        (hchars : phrase.all fun c => c ∈ "start op".toList) :
        findingsOf (phrase ++ t.text) .crop = [] :=
      findingsOf_eq_nil (t.search_crop_eq_nil hratio hcolon hchars)
    have hstart := findings_start t (hcrop (by decide) (by decide)) (by simp) .nil
    have hstop := findings_stop t (hcrop (by decide) (by decide)) (by simp) .nil
    rw [parse_ofList, parse_ofList, hstart, hstop, t.seconds_eq hsmall]
    exact ⟨assembleFindings_start _ _, assembleFindings_finish _ _, Binary64.value_ofNat hsmall⟩
  · exact mentions_ratio t

end Bounds

/-- A minute and a half is a bound of a window; nine minutes and sixteen seconds are a crop. -/
theorem parse_bound_ninety :
    let t : Timestamp := .minutes ⟨['1'], by decide, by decide⟩ ⟨'3', '0', by decide, by decide⟩
    (t.total < 2 ^ 53 ∧ ¬"9:16".toList <+: t.text) ∧
      (parse "start at 1:30").mentions = [⟨0, .bounds, .trim (.ofNat 90) none⟩] ∧
      (parse "stop at 1:30").mentions = [⟨0, .bounds, .trim 0 (some (.ofNat 90))⟩] ∧
      (parse "start at 9:16").mentions = [⟨9, .phrase .crop, .crop .portraitFill⟩] := by
  intro t
  have hsmall : t.total < 2 ^ 53 := by decide
  have hratio : ¬"9:16".toList <+: t.text := by decide
  obtain ⟨hstart, hstop, -⟩ := (parse_bound t).1 hsmall hratio
  have hcrop := (parse_bound (.minutes ⟨['9'], by decide, by decide⟩
    ⟨'1', '6', by decide, by decide⟩)).2 rfl
  exact ⟨⟨hsmall, hratio⟩, hstart, hstop, hcrop.1⟩

/-- Not every clock time makes a bound. -/
theorem parse_bound_ratio :
    ¬∀ t : Timestamp, t.total < 2 ^ 53 →
      (parse (String.ofList ("start at ".toList ++ t.text))).mentions =
          [⟨0, .bounds, .trim (.ofNat t.total) none⟩] ∧
        (parse (String.ofList ("stop at ".toList ++ t.text))).mentions =
          [⟨0, .bounds, .trim 0 (some (.ofNat t.total))⟩] := by
  intro h
  let t : Timestamp := .minutes ⟨['9'], by decide, by decide⟩ ⟨'1', '6', by decide, by decide⟩
  have hsmall : t.total < 2 ^ 53 := by decide
  have hbound := (h t hsmall).1
  rw [(mentions_ratio t rfl).1] at hbound
  obtain ⟨⟩ := (List.cons.inj hbound).1

end Prompt
end VideoEdit
