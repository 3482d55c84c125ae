import Mathlib.Logic.Relation
import VideoEdit.Proofs.Yaml.Blank
import VideoEdit.Proofs.Yaml.FlowScalar
/-!
# Scanning flow style

The scanner is followed through the text of a tree, one token after the other. Between two tokens of
a line it stands inside some flow collections in front of what is left of the text; a key takes two
tokens, the second of which puts the sign of the key in front of the first.
-/
namespace VideoEdit.Yaml.Scanner

/-- One token is scanned, and it is not the last one. -/
def Step (s s' : Scanner) : Prop :=
  s.next? = some s' ∧ s'.done = false ∧ s'.cursor.rest.length < s.cursor.rest.length

/-- The scanner gets from one state to another. -/
abbrev Steps : Scanner → Scanner → Prop := Relation.ReflTransGen Step

private theorem run_of_done {s s' : Scanner} (hnext : s.next? = some s') (hdone : s'.done)
    (fuel : Nat) :
    run (fuel + 1) s = s'.tokens.reverse := by
  simp [run_succ, hnext, hdone]

private theorem run_of_step {s s' : Scanner} (h : s.Step s') (fuel : Nat) :
    run (fuel + 1) s = run fuel s' := by
  simp [run_succ, h.1, h.2.1]

/-- What is left to scan is enough to be scanned with what is left of the fuel. -/
theorem run_of_steps {s s' : Scanner} (h : s.Steps s') {fuel : Nat}
    (hfuel : s.cursor.rest.length < fuel) :
    ∃ left, s'.cursor.rest.length < left ∧ run fuel s = run left s' := by
  induction h using Relation.ReflTransGen.head_induction_on generalizing fuel with
  | refl => exact ⟨fuel, hfuel, rfl⟩
  | head hstep _ ih =>
    -- A step takes one unit of fuel and at least one character.
    obtain ⟨fuel, rfl⟩ := Nat.exists_eq_add_one.2 (Nat.zero_lt_of_lt hfuel)
    obtain ⟨left, hleft, hrun⟩ := ih (hstep.2.2.trans_le (Nat.le_of_lt_succ hfuel))
    exact ⟨left, hleft, (run_of_step hstep fuel).trans hrun⟩

/-- The scanner stands between two tokens of a line, with the given keys that may have started in
the flow collections around it. -/
structure Stands (s : Scanner) (rest : List Char) (kinds : List TokenKind)
    (flow : List (Option KeyStart)) (fresh : Bool) : Prop where
  rest : s.cursor.rest = rest
  kinds : s.tokens.reverse.map Token.kind = kinds
  flow : s.flow = flow
  columns : s.columns = []
  column : 0 < s.cursor.mark.column
  blockKey : s.blockKey.any (·.required) = false
  keyAllowed : s.keyAllowed = fresh
  done : s.done = false

variable {s : Scanner} {c : Char} {rest : List Char} {kinds : List TokenKind}
  {flow outer : List (Option KeyStart)} {fresh : Bool}

/-- A character that neither stands between tokens nor starts a comment. -/
def startsToken (c : Char) : Bool := !isGap c && !isBreak c && c != '#'

private theorem ahead_of_blanks {n : Nat}
    (hrest : s.cursor.rest = List.replicate n ' ' ++ c :: rest)
    (hcolumn : 0 < s.cursor.mark.column) (hc : startsToken c) : s.ahead = s.cursor.skip n := by
  have hne (x : Char) (hx : startsToken x = false) : (c == x) = false := by
    rw [beq_eq_false_iff_ne]
    rintro rfl
    rw [hc] at hx
    cases hx
  have htake : s.cursor.rest.takeWhile
      (fun x => x == ' ' || (x == '\t' && (s.inFlow || !s.keyAllowed))) =
        List.replicate n ' ' := by
    rw [hrest, List.takeWhile_append_of_pos (by simp), List.takeWhile_cons_of_neg
      (by simp [hne ' ' (by decide), hne '\t' (by decide)]), List.append_nil]
  have hhash : (s.cursor.skip n).isAt '#' = false := by
    have hskip : (s.cursor.skip n).rest = c :: rest := by simp [Cursor.skip, hrest]
    rw [Cursor.isAt_of_rest hskip, hne '#' (by decide)]
  simp [ahead, Cursor.span, htake, hhash, Nat.ne_of_gt hcolumn]

private theorem next?_of_ahead (hcolumns : s.columns = []) (hbreak : isBreak c = false)
    (hrest : s.ahead.rest = c :: rest) :
    s.next? = { s with cursor := s.ahead }.token? c rest := by
  have hskip : skipBlanks (s.cursor.rest.length + 1) s = { s with cursor := s.ahead } := by
    rw [skipBlanks_succ, if_neg]
    simp [Cursor.at?, hrest, hbreak]
  rw [next?, hskip]
  simp only
  rw [closeBlocks_of_columns (by exact hcolumns)]
  simp only [hrest]

private theorem token?_of_isWordChar (hc : isWordChar c) : s.token? c rest = s.plainScalar? := by
  have hne (x : Char) (hx : isWordChar x = false) : c ≠ x := ne_of_isWordChar hc hx
  have hspecial : (signs ++ indicators).all fun x => !isWordChar x := by decide
  have hnot : c ∉ signs ++ indicators := fun hmem => by
    simpa [hc] using List.all_eq_true.1 hspecial c hmem
  rw [List.mem_append, not_or] at hnot
  have hstarts : startsPlain s.inFlow c rest := by
    simp [startsPlain, hne '-' (by decide), hne '?' (by decide), hne ':' (by decide),
      isGap_of_isWordChar hc, isBreak_of_isWordChar hc, hnot.2]
  rw [token?_of_not_mem_signs hnot.1, if_pos hstarts]

private theorem startsToken_of_isWordChar (hc : isWordChar c) : startsToken c := by
  simp [startsToken, isGap_of_isWordChar hc, isBreak_of_isWordChar hc,
    ne_of_isWordChar hc (x := '#') (by decide)]

namespace Stands

private theorem done_and_length_le {more : List Char} (h : s.Stands rest kinds flow fresh)
    (hle : rest.length ≤ more.length) : s.done = false ∧ s.cursor.rest.length ≤ more.length :=
  ⟨h.done, h.rest ▸ hle⟩

theorem exists_step {n : Nat} {P : Scanner → Prop}
    (h : s.Stands (List.replicate n ' ' ++ c :: rest) kinds flow fresh) (hc : startsToken c)
    (htoken : ∀ start : Scanner, start.Stands (c :: rest) kinds flow fresh →
      start.cursor = s.cursor.skip n → ∃ s', start.token? c rest = some s' ∧ P s')
    (hP : ∀ s', P s' → s'.done = false ∧ s'.cursor.rest.length ≤ rest.length) :
    ∃ s', s.Step s' ∧ P s' := by
  have hahead := ahead_of_blanks h.rest h.column hc
  have hrest : s.ahead.rest = c :: rest := by
    rw [hahead, Cursor.skip, h.rest]
    simp
  obtain ⟨s', htoken, hs'⟩ := htoken { s with cursor := s.ahead }
    ⟨hrest, h.kinds, h.flow, h.columns, hahead ▸ Nat.lt_add_right n h.column, h.blockKey,
      h.keyAllowed, h.done⟩ hahead
  obtain ⟨hdone, hlength⟩ := hP s' hs'
  have hbreak : isBreak c = false := by
    simp only [startsToken, Bool.and_eq_true, Bool.not_eq_true'] at hc
    exact hc.1.2
  refine ⟨s', ⟨(next?_of_ahead h.columns hbreak hrest).trans htoken, hdone, ?_⟩, hs'⟩
  rw [h.rest, List.length_append, List.length_cons]
  omega

theorem emit (taken : List Char) (h : s.Stands (taken ++ rest) kinds flow fresh)
    (kind : TokenKind) {new : List (Option KeyStart)} (hnew : new = outer) (again : Bool) :
    { s.emit kind (s.cursor.skip taken.length) with flow := new, keyAllowed := again }.Stands rest
      (kinds ++ [kind]) outer again where
  rest := Cursor.rest_skip h.rest
  kinds := by simp [Scanner.emit, ← h.kinds]
  flow := hnew
  columns := h.columns
  column := Nat.lt_add_right _ h.column
  blockKey := h.blockKey
  keyAllowed := rfl
  done := h.done

theorem dropKey? (h : s.Stands rest kinds (none :: outer) fresh) : s.dropKey? = some s := by
  obtain ⟨cursor, tokens, columns, flow, blockKey, keyAllowed, done⟩ := s
  obtain rfl : flow = none :: outer := h.flow
  rfl

theorem inFlow {key : Option KeyStart} (h : s.Stands rest kinds (key :: outer) fresh) :
    s.inFlow := by
  simp [Scanner.inFlow, h.flow]

theorem markKey? (h : s.Stands rest kinds flow false) : s.markKey? = some s := by
  simp [Scanner.markKey?, h.keyAllowed]

private theorem exists_step_comma (h : s.Stands (',' :: rest) kinds (none :: outer) fresh) :
    ∃ s', s.Step s' ∧ s'.Stands rest (kinds ++ [.flowEntry]) (none :: outer) true := by
  refine exists_step (n := 0) h (by decide) (fun s h _ => ?_)
    fun s' h => h.done_and_length_le (Nat.le_refl _)
  have htoken : s.token? ',' rest = s.flowEntry? := by simp [token?, atMarker_of_ne]
  refine ⟨_, ?_, h.emit [','] .flowEntry h.flow true⟩
  rw [htoken, flowEntry?, h.dropKey?]
  rfl

private theorem exists_step_open (h : s.Stands (' ' :: '\x7b' :: rest) kinds flow false) :
    ∃ s', s.Step s' ∧ s'.Stands rest (kinds ++ [.flowMappingStart]) (none :: flow) true := by
  refine exists_step (n := 1) h (by decide) (fun s h _ => ?_)
    fun s' h => h.done_and_length_le (Nat.le_refl _)
  have htoken : s.token? '\x7b' rest = s.flowStart? .flowMappingStart := by
    simp [token?, atMarker_of_ne]
  refine ⟨_, ?_, h.emit ['\x7b'] .flowMappingStart (congrArg (none :: ·) h.flow) true⟩
  rw [htoken, flowStart?, h.markKey?]
  rfl

private theorem exists_step_close (h : s.Stands ('\x7d' :: rest) kinds (none :: outer) fresh) :
    ∃ s', s.Step s' ∧ s'.Stands rest (kinds ++ [.flowMappingEnd]) outer false := by
  refine exists_step (n := 0) h (by decide) (fun s h _ => ?_)
    fun s' h => h.done_and_length_le (Nat.le_refl _)
  have htoken : s.token? '\x7d' rest = s.flowEnd? .flowMappingEnd := by
    simp [token?, atMarker_of_ne]
  refine ⟨_, ?_, h.emit ['\x7d'] .flowMappingEnd (congrArg (List.drop 1) h.flow) false⟩
  rw [htoken, flowEnd?, h.dropKey?]
  rfl

private theorem exists_step_string (text : List Char)
    (h : s.Stands (' ' :: '"' :: quotedTail text ++ rest) kinds flow false) :
    ∃ s', s.Step s' ∧ s'.Stands rest (kinds ++ [.scalar .doubleQuoted text]) flow false := by
  have h : s.Stands (List.replicate 1 ' ' ++ '"' :: (quotedTail text ++ rest)) kinds flow false := h
  refine h.exists_step (by decide) (fun s h _ => ?_) fun s' h => h.done_and_length_le (by simp)
  have htoken : s.token? '"' (quotedTail text ++ rest) =
      s.quotedScalar? .doubleQuoted '"' := by
    simp [token?, atMarker_of_ne]
  refine ⟨_, ?_, h.emit ('"' :: quotedTail text) (.scalar .doubleQuoted text) h.flow false⟩
  rw [htoken, quotedScalar?, content?, h.markKey?]
  simp [read?_quoted text h.rest, Scanner.emit]

private theorem plainScalar?_word (w : Word) {start : Scanner} (hmark : s.markKey? = some start)
    {key : Option KeyStart} (h : start.Stands (w.text ++ rest) kinds (key :: outer) fresh)
    (hrest : EndsWord rest) :
    ∃ s', s.plainScalar? = some s' ∧
      s'.Stands rest (kinds ++ [.scalar .plain w.text]) (key :: outer) false ∧
      s'.cursor = start.cursor.skip w.text.length := by
  refine ⟨_, ?_, h.emit w.text (.scalar .plain w.text) h.flow false, rfl⟩
  rw [plainScalar?, hmark]
  simp [h.columns, h.inFlow, read?_word w h.rest h.column hrest, Scanner.emit]

private theorem exists_step_word (w : Word)
    (h : s.Stands (' ' :: w.text ++ rest) kinds (none :: outer) false) (hrest : EndsWord rest) :
    ∃ s', s.Step s' ∧ s'.Stands rest (kinds ++ [.scalar .plain w.text]) (none :: outer) false := by
  obtain ⟨x, more, hw⟩ := List.exists_cons_of_ne_nil w.nonempty
  have hx : isWordChar x := w.isWord x (hw ▸ List.mem_cons_self)
  have h : s.Stands (List.replicate 1 ' ' ++ x :: (more ++ rest)) kinds (none :: outer) false := by
    simpa [hw] using h
  refine h.exists_step (startsToken_of_isWordChar hx) (fun s h _ => ?_)
    fun s' h => h.done_and_length_le (by simp)
  rw [token?_of_isWordChar hx]
  obtain ⟨s', hscalar, hs', -⟩ := plainScalar?_word w h.markKey? (by simpa [hw] using h) hrest
  exact ⟨s', hscalar, hs'⟩

private theorem exists_step_key (w : Word) {n : Nat}
    (h : s.Stands (List.replicate n ' ' ++ w.text ++ ':' :: ' ' :: rest) kinds (none :: outer)
      true) :
    ∃ s', s.Step s' ∧ ∃ key : KeyStart,
      s'.Stands (':' :: ' ' :: rest) (kinds ++ [.scalar .plain w.text]) (some key :: outer) false ∧
        key.position = kinds.length ∧ key.mark.line = s'.cursor.mark.line ∧
          s'.cursor.mark.index = key.mark.index + w.text.length := by
  obtain ⟨x, more, hw⟩ := List.exists_cons_of_ne_nil w.nonempty
  have hx : isWordChar x := w.isWord x (hw ▸ List.mem_cons_self)
  have h : s.Stands (List.replicate n ' ' ++ x :: (more ++ ':' :: ' ' :: rest)) kinds
      (none :: outer) true := by
    simpa [hw] using h
  refine h.exists_step (startsToken_of_isWordChar hx) (fun s h _ => ?_)
    fun s' ⟨_, h, _⟩ => h.done_and_length_le (by simp)
  have hmark : s.markKey? = some { s with
      flow := some ⟨false, s.tokens.length, s.cursor.mark⟩ :: outer } := by
    simp [Scanner.markKey?, h.keyAllowed, h.dropKey?, h.inFlow, setKeyStart, h.flow]
  rw [token?_of_isWordChar hx]
  have hends : EndsWord (':' :: ' ' :: rest) := ⟨rest, .inr (.inr rfl)⟩
  obtain ⟨s', hscalar, hs', hcursor⟩ := plainScalar?_word w hmark
    ⟨by simpa [hw] using h.rest, h.kinds, rfl, h.columns, h.column, h.blockKey, h.keyAllowed,
      h.done⟩ hends
  refine ⟨s', hscalar, _, hs', ?_, ?_, ?_⟩
  · simp [← h.kinds]
  · rw [hcursor]
    rfl
  · rw [hcursor]
    rfl

private theorem kinds_insert (s : Scanner) (kind : TokenKind) (position : Nat) (mark : Mark) :
    (s.insert kind position mark).tokens.reverse.map Token.kind =
      (s.tokens.reverse.map Token.kind).take position ++
        kind :: (s.tokens.reverse.map Token.kind).drop position := by
  simp [insert, ← List.map_take, ← List.map_drop, List.take_reverse, List.drop_reverse]

private theorem exists_step_colon {key : KeyStart}
    (h : s.Stands (':' :: rest) kinds (some key :: outer) false)
    (hreaches : KeyStart.reaches key s.cursor.mark) :
    ∃ s', s.Step s' ∧
      s'.Stands rest (kinds.take key.position ++ .key :: kinds.drop key.position ++ [.value])
        (none :: outer) false := by
  refine exists_step (n := 0) h (by decide) (fun start h hcursor => ?_)
    fun s' h => h.done_and_length_le (Nat.le_refl _)
  have htoken : start.token? ':' rest = start.value? := by
    simp [token?, atMarker_of_ne, h.inFlow]
  have hkey : start.keyStart = some key := by rw [keyStart, h.flow]
  have hreaches : KeyStart.reaches key start.cursor.mark := hcursor ▸ hreaches
  have hinsert : (start.insert .key key.position key.mark).Stands (':' :: rest)
      (kinds.take key.position ++ .key :: kinds.drop key.position) (some key :: outer) false :=
    ⟨h.rest, h.kinds ▸ kinds_insert start .key key.position key.mark, h.flow, h.columns, h.column,
      h.blockKey, h.keyAllowed, h.done⟩
  refine ⟨_, ?_, hinsert.emit [':'] .value (congrArg (none :: ·) rfl) false⟩
  rw [htoken, value?]
  simp [hkey, hreaches, openBlock, hinsert.inFlow, setKeyStart, hinsert.flow, Scanner.emit]

private theorem exists_steps_key (key : Key) {n : Nat}
    (h : s.Stands (List.replicate n ' ' ++ key.text ++ ':' :: ' ' :: rest) kinds (none :: outer)
      true) :
    ∃ s', s.Steps s' ∧
      s'.Stands (' ' :: rest) (kinds ++ [.key, .scalar .plain key.text, .value]) (none :: outer)
        false := by
  obtain ⟨mid, hfirst, start, hmid, hposition, hline, hindex⟩ := exists_step_key key.toWord h
  have hreaches : KeyStart.reaches start mid.cursor.mark := by
    simp [KeyStart.reaches, hline, hindex, key.short]
  obtain ⟨s', hsecond, hs'⟩ := hmid.exists_step_colon hreaches
  refine ⟨s', .tail (.single hfirst) hsecond, ?_⟩
  simpa [hposition] using hs'

end Stands

private theorem endsWord_pairsText (pairs : List (Key × Tree)) (rest : List Char) :
    EndsWord (Tree.pairsText false pairs ++ rest) := by
  cases pairs with
  | nil => exact ⟨rest, .inr (.inl rfl)⟩
  | cons pair pairs => exact ⟨_, .inl rfl⟩

mutual

private theorem exists_steps_tree : ∀ (t : Tree) {s : Scanner} {rest : List Char}
    {kinds : List TokenKind} {outer : List (Option KeyStart)},
    s.Stands (' ' :: t.text ++ rest) kinds (none :: outer) false → EndsWord rest →
      ∃ s', s.Steps s' ∧ s'.Stands rest (kinds ++ t.kinds) (none :: outer) false
  | .word w, s, rest, kinds, outer, h, hrest => by
    rw [Tree.text] at h
    rw [Tree.kinds]
    obtain ⟨s', hstep, hs'⟩ := h.exists_step_word w hrest
    exact ⟨s', .single hstep, hs'⟩
  | .string text, s, rest, kinds, outer, h, _ => by
    rw [Tree.text] at h
    rw [Tree.kinds]
    obtain ⟨s', hstep, hs'⟩ := h.exists_step_string text
    exact ⟨s', .single hstep, hs'⟩
  | .mapping pairs, s, rest, kinds, outer, h, _ => by
    rw [Tree.text] at h
    rw [Tree.kinds]
    obtain ⟨mid, hopen, hmid⟩ := Stands.exists_step_open h
    obtain ⟨s', hpairs, hs'⟩ := exists_steps_pairs true pairs hmid
    refine ⟨s', .head hopen hpairs, ?_⟩
    simpa using hs'

private theorem exists_steps_pairs : ∀ (first : Bool) (pairs : List (Key × Tree)) {s : Scanner}
    {rest : List Char} {kinds : List TokenKind} {outer : List (Option KeyStart)},
    s.Stands (Tree.pairsText first pairs ++ rest) kinds (none :: outer) first →
      ∃ s', s.Steps s' ∧ s'.Stands rest (kinds ++ Tree.pairsKinds first pairs) outer false
  | first, [], s, rest, kinds, outer, h => by
    rw [Tree.pairsText] at h
    rw [Tree.pairsKinds]
    obtain ⟨s', hstep, hs'⟩ := h.exists_step_close
    exact ⟨s', .single hstep, hs'⟩
  | first, (key, value) :: pairs, s, rest, kinds, outer, h => by
    rw [Tree.pairsText] at h
    rw [Tree.pairsKinds]
    -- In front of a pair that is not the first, a comma lets a key follow, and a blank is skipped.
    obtain ⟨start, n, hcomma, hstart⟩ : ∃ start n, s.Steps start ∧
        start.Stands (List.replicate n ' ' ++ key.text ++
          ':' :: ' ' :: (value.text ++ (Tree.pairsText false pairs ++ rest)))
          (kinds ++ (if first then [] else [.flowEntry])) (none :: outer) true := by
      cases first with
      | true => exact ⟨s, 0, .refl, by simpa using h⟩
      | false =>
        obtain ⟨start, hstep, hstart⟩ := Stands.exists_step_comma (by simpa using h)
        exact ⟨start, 1, .single hstep, by simpa using hstart⟩
    obtain ⟨before, hkey, hbefore⟩ := hstart.exists_steps_key key
    obtain ⟨behind, hvalue, hbehind⟩ :=
      exists_steps_tree value hbefore (endsWord_pairsText pairs rest)
    obtain ⟨s', hpairs, hs'⟩ := exists_steps_pairs false pairs hbehind
    refine ⟨s', hcomma.trans (hkey.trans (hvalue.trans hpairs)), ?_⟩
    simpa using hs'

end

private theorem Stands.next?_end (h : s.Stands [] kinds [] false) :
    ∃ s', s.next? = some s' ∧ s'.done ∧
      s'.tokens.reverse.map Token.kind = kinds ++ [.streamEnd] := by
  obtain ⟨⟨⟨index, line, column⟩, text⟩, tokens, columns, flow, blockKey, keyAllowed, done⟩ := s
  obtain ⟨hrest, hkinds, hflow, hcolumns, hcolumn, hblockKey, -, -⟩ := h
  simp only at hrest hkinds hflow hcolumns hcolumn hblockKey
  subst hrest hkinds hflow hcolumns
  have hcolumn := Nat.ne_of_gt hcolumn
  simp [next?, skipBlanks, Cursor.span, Cursor.skip, Cursor.isAt, Cursor.at?, closeBlocks,
    streamEnd?, Scanner.dropKey?, keyStart, setKeyStart, Scanner.emit, hcolumn, hblockKey]

private theorem exists_step_root (text : List Char) :
    ∃ s', (ofText ('\x7b' :: text)).Step s' ∧
      s'.Stands text [.flowMappingStart] [none] true := by
  have htoken (s : Scanner) : s.token? '\x7b' text = s.flowStart? .flowMappingStart := by
    simp [token?, atMarker_of_ne]
  refine ⟨_, ⟨(next?_of_ahead rfl (c := '\x7b') (by decide) rfl).trans (htoken _), rfl,
    Nat.lt_succ_self _⟩, ⟨rfl, rfl, rfl, rfl, Nat.one_pos, rfl, rfl, rfl⟩⟩

private theorem run_mapping (pairs : List (Key × Tree)) {fuel : Nat}
    (hfuel : (Tree.mapping pairs).text.length < fuel) :
    (run fuel (ofText (Tree.mapping pairs).text)).map Token.kind =
      (Tree.mapping pairs).kinds ++ [.streamEnd] := by
  rw [Tree.text] at hfuel ⊢
  obtain ⟨start, hroot, hstart⟩ := exists_step_root (Tree.pairsText true pairs)
  have hstart : start.Stands (Tree.pairsText true pairs ++ []) [.flowMappingStart] [none] true := by
    simpa using hstart
  obtain ⟨last, hpairs, hlast⟩ := exists_steps_pairs true pairs hstart
  obtain ⟨left, hleft, hrun⟩ := run_of_steps (.head hroot hpairs) hfuel
  obtain ⟨left, rfl⟩ := Nat.exists_eq_add_one.2 (Nat.zero_lt_of_lt hleft)
  obtain ⟨s', hnext, hdone, hkinds⟩ := hlast.next?_end
  rw [hrun, run_of_done hnext hdone, Tree.kinds]
  simpa using hkinds

end VideoEdit.Yaml.Scanner

namespace VideoEdit.Yaml

/-- The text of a mapping is scanned as its tokens and the end. -/
theorem kinds_tokens_mapping (pairs : List (Key × Tree)) :
    (tokens (Tree.mapping pairs).text).map Token.kind =
      (Tree.mapping pairs).kinds ++ [.streamEnd] := by
  have hallowed := List.all_eq_true.2 fun c => Tree.isAllowed_of_mem_text (.mapping pairs) (c := c)
  simp only [tokens, hallowed, if_true]
  exact Scanner.run_mapping pairs (Nat.lt_add_of_pos_right (by decide))

end VideoEdit.Yaml
