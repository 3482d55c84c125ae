import Mathlib.Data.List.Infix
import VideoEdit.Text.Blank
import VideoEdit.Yaml.Document
/-!
# Blank documents

White space is more than the blanks and line breaks of YAML, so a blank text may have a document.
Its root is then a plain scalar, and never a mapping.
-/
namespace VideoEdit.Yaml

namespace Cursor
variable {c : Cursor}

private theorem skip_suffix (n : Nat) : (c.skip n).rest <:+ c.rest := List.drop_suffix n c.rest

private theorem span_suffix (p : Char → Bool) : (c.span p).2.rest <:+ c.rest := c.skip_suffix _

private theorem lineBreak_suffix : c.lineBreak.2.rest <:+ c.rest := by
  unfold lineBreak
  split
  next rest h => exact h ▸ (List.suffix_cons _ _).trans (List.suffix_cons _ _)
  next b rest _ h => split <;> exact h ▸ List.suffix_cons _ _
  next => exact List.suffix_refl _

private theorem ite_suffix {p : Prop} [Decidable p] {d : Cursor} (h : d.rest <:+ c.rest) :
    (if p then d else c).rest <:+ c.rest := by
  split
  · exact h
  · exact List.suffix_refl _

end Cursor

private theorem Gap.more?_suffix {margin fuel : Nat} {c last : Cursor} {breaks : List (List Char)}
    (h : Gap.more? margin fuel c = some (breaks, last)) : last.rest <:+ c.rest := by
  induction fuel generalizing c breaks with
  | zero => cases h
  | succ fuel ih =>
    unfold Gap.more? at h
    split at h
    · cases h
      exact List.suffix_refl _
    · split at h
      · cases h
      · split at h
        · exact (ih h).trans (c.skip_suffix 1)
        · split at h
          · obtain ⟨⟨bs, last'⟩, hmore, heq⟩ := Option.map_eq_some_iff.1 h
            cases heq
            exact (ih hmore).trans Cursor.lineBreak_suffix
          · cases h
            exact List.suffix_refl _

private theorem Gap.read?_suffix {margin : Nat} {c last : Cursor} {gap : Gap}
    (h : Gap.read? margin c = some (gap, last)) : last.rest <:+ c.rest := by
  unfold Gap.read? at h
  simp only at h
  split at h
  · obtain ⟨⟨bs, last'⟩, hmore, heq⟩ := Option.map_eq_some_iff.1 h
    cases heq
    exact (Gap.more?_suffix hmore).trans (Cursor.span_suffix _)
  · cases h
    exact Cursor.span_suffix _

private theorem Plain.parts?_suffix {flow broken broken' : Bool} {margin fuel : Nat}
    {gap text : List Char} {c last : Cursor}
    (h : Plain.parts? flow margin fuel gap broken c = some (text, broken', last)) :
    last.rest <:+ c.rest := by
  induction fuel generalizing c gap broken text with
  | zero => cases h
  | succ fuel ih =>
    unfold Plain.parts? at h
    split at h
    · cases h
      exact List.suffix_refl _
    · obtain ⟨part, -, h⟩ := Option.bind_eq_some_iff.1 h
      split at h
      · cases h
        exact List.suffix_refl _
      · simp only at h
        split at h
        · cases h
          exact Cursor.skip_suffix _
        · obtain ⟨⟨next, mid⟩, hgap, h⟩ := Option.bind_eq_some_iff.1 h
          have hmid := (Gap.read?_suffix hgap).trans (c.skip_suffix part.length)
          simp only at h
          split at h
          · cases h
            exact hmid
          · obtain ⟨⟨more, broken, last'⟩, hmore, h⟩ := Option.bind_eq_some_iff.1 h
            cases h
            exact (ih hmore).trans hmid

namespace Scanner
variable {s s' : Scanner}

def ahead (s : Scanner) : Cursor :=
  let c := s.cursor
  let c := if c.mark.column = 0 && c.isAt '\uFEFF' then c.skip 1 else c
  let c := (c.span fun x => x == ' ' || (x == '\t' && (s.inFlow || !s.keyAllowed))).2
  if c.isAt '#' then (c.span fun x => !isBreak x).2 else c

theorem skipBlanks_succ (fuel : Nat) (s : Scanner) :
    skipBlanks (fuel + 1) s =
      if s.ahead.at? isBreak then
        skipBlanks fuel
          { s with cursor := s.ahead.lineBreak.2, keyAllowed := s.keyAllowed || !s.inFlow }
      else { s with cursor := s.ahead } := rfl

private theorem ahead_suffix (s : Scanner) : s.ahead.rest <:+ s.cursor.rest :=
  (Cursor.ite_suffix (Cursor.span_suffix _)).trans
    ((Cursor.span_suffix _).trans (Cursor.ite_suffix (Cursor.skip_suffix 1)))

private theorem skipBlanks_keeps (fuel : Nat) (s : Scanner) :
    (skipBlanks fuel s).tokens = s.tokens ∧ (skipBlanks fuel s).columns = s.columns ∧
      (skipBlanks fuel s).flow = s.flow ∧ (skipBlanks fuel s).cursor.rest <:+ s.cursor.rest := by
  induction fuel generalizing s with
  | zero => exact ⟨rfl, rfl, rfl, List.suffix_refl _⟩
  | succ fuel ih =>
    rw [skipBlanks_succ]
    split
    · obtain ⟨htokens, hcolumns, hflow, hrest⟩ := ih
        { s with cursor := s.ahead.lineBreak.2, keyAllowed := s.keyAllowed || !s.inFlow }
      exact ⟨htokens, hcolumns, hflow,
        hrest.trans (Cursor.lineBreak_suffix.trans s.ahead_suffix)⟩
    · exact ⟨rfl, rfl, rfl, s.ahead_suffix⟩

theorem closeBlocks_of_columns (h : s.columns = []) (column : Option Nat) :
    s.closeBlocks column = s := by
  unfold closeBlocks
  split
  · rfl
  · obtain ⟨cursor, tokens, columns, flow, blockKey, keyAllowed, done⟩ := s
    subst h
    rfl

/-- A token that a blank text has: a scalar, or the end. -/
def IsLeaf (t : Token) : Prop :=
  (∃ style text, t.kind = .scalar style text) ∨ t.kind = .unreadable ∨ t.kind = .streamEnd

/-- What holds of a scanner throughout a blank text. -/
structure IsIdle (s : Scanner) : Prop where
  blank : ∀ c ∈ s.cursor.rest, isBlank c
  columns : s.columns = []
  flow : s.flow = []
  leaves : ∀ t ∈ s.tokens, IsLeaf t

theorem IsIdle.setKeyStart (h : s.IsIdle) (key : Option KeyStart) : (s.setKeyStart key).IsIdle := by
  obtain ⟨cursor, tokens, columns, flow, blockKey, keyAllowed, done⟩ := s
  obtain rfl : flow = [] := h.flow
  exact ⟨h.blank, h.columns, rfl, h.leaves⟩

theorem IsIdle.dropKey? (h : s.IsIdle) (hdrop : s.dropKey? = some s') : s'.IsIdle := by
  unfold Scanner.dropKey? at hdrop
  split at hdrop
  · cases hdrop
  · cases hdrop
    exact h.setKeyStart none

theorem IsIdle.markKey? (h : s.IsIdle) (hmark : s.markKey? = some s') : s'.IsIdle := by
  unfold Scanner.markKey? at hmark
  split at hmark
  · obtain ⟨mid, hdrop, rfl⟩ := Option.map_eq_some_iff.1 hmark
    exact (h.dropKey? hdrop).setKeyStart _
  · cases hmark
    exact h

theorem IsIdle.emit (h : s.IsIdle) {style : ScalarStyle} {text : List Char} {next : Cursor}
    (hnext : next.rest <:+ s.cursor.rest) : (s.emit (.scalar style text) next).IsIdle where
  blank c hc := h.blank c (hnext.subset hc)
  columns := h.columns
  flow := h.flow
  leaves t ht := by
    rcases List.mem_cons.1 ht with rfl | ht
    · exact .inl ⟨style, text, rfl⟩
    · exact h.leaves t ht

theorem IsIdle.plainScalar? (h : s.IsIdle) (hscalar : s.plainScalar? = some s') :
    s'.IsIdle := by
  obtain ⟨mid, hmark, hscalar⟩ := Option.bind_eq_some_iff.1 hscalar
  obtain ⟨⟨text, broken, next⟩, hread, heq⟩ := Option.bind_eq_some_iff.1 hscalar
  cases heq
  have hidle : (mid.emit (.scalar .plain text) next).IsIdle :=
    (h.markKey? hmark).emit (Plain.parts?_suffix hread)
  exact ⟨hidle.blank, hidle.columns, hidle.flow, hidle.leaves⟩

theorem atMarker_of_ne {c d : Char} (h : c ≠ d) (rest : List Char) :
    atMarker d (c :: rest) = false := by
  unfold atMarker
  split
  · next heq =>
    cases heq
    simp [h]
  · rfl

/-- The characters that another token than a plain scalar can start with. -/
def signs : List Char :=
  ['%', '-', '.', '[', '\x7b', ']', '\x7d', ',', '?', ':', '*', '&', '!', '|', '>', '\'', '"']

theorem token?_of_not_mem_signs {c : Char} (h : c ∉ signs) (rest : List Char) :
    s.token? c rest = if startsPlain s.inFlow c rest then s.plainScalar? else none := by
  have hne (x : Char) (hx : x ∈ signs) : c ≠ x := fun he => h (he ▸ hx)
  simp only [token?, atMarker_of_ne (hne '-' (by decide)), atMarker_of_ne (hne '.' (by decide)),
    hne '%' (by decide), hne '[' (by decide), hne '\x7b' (by decide), hne ']' (by decide),
    hne '\x7d' (by decide), hne ',' (by decide), hne '-' (by decide), hne '?' (by decide),
    hne ':' (by decide), hne '*' (by decide), hne '&' (by decide), hne '!' (by decide),
    hne '|' (by decide), hne '>' (by decide), hne '\'' (by decide), hne '"' (by decide),
    Bool.false_eq_true, and_false, false_and, if_false]

private theorem not_mem_signs_of_isBlank {c : Char} (h : isBlank c) : c ∉ signs := by
  have hblank : signs.all fun x => !isBlank x := by decide
  intro hmem
  simpa [h] using List.all_eq_true.1 hblank c hmem

theorem IsIdle.streamEnd? (h : s.IsIdle) (hend : s.streamEnd? = some s') :
    s'.done ∧ ∀ t ∈ s'.tokens, IsLeaf t := by
  obtain ⟨last, hdrop, heq⟩ := Option.bind_eq_some_iff.1 hend
  rw [closeBlocks_of_columns (by exact h.columns)] at hdrop
  have hlast : last.IsIdle := by
    refine IsIdle.dropKey? ?_ hdrop
    exact ⟨fun _ hc => absurd hc List.not_mem_nil, h.columns, h.flow, h.leaves⟩
  cases heq
  refine ⟨rfl, fun t ht => ?_⟩
  rcases List.mem_cons.1 ht with rfl | ht
  · exact .inr (.inr rfl)
  · exact hlast.leaves t ht

theorem IsIdle.next? (h : s.IsIdle) (hnext : s.next? = some s') :
    (s'.done = false → s'.IsIdle) ∧ ∀ t ∈ s'.tokens, IsLeaf t := by
  obtain ⟨htokens, hcolumns, hflow, hrest⟩ := skipBlanks_keeps (s.cursor.rest.length + 1) s
  unfold Scanner.next? at hnext
  simp only at hnext
  generalize skipBlanks (s.cursor.rest.length + 1) s = start at *
  have hstart : start.IsIdle :=
    ⟨fun c hc => h.blank c (hrest.subset hc), hcolumns.trans h.columns, hflow.trans h.flow,
      htokens ▸ h.leaves⟩
  rw [closeBlocks_of_columns hstart.columns] at hnext
  split at hnext
  · obtain ⟨hdone, hleaves⟩ := hstart.streamEnd? hnext
    exact ⟨fun hopen => absurd hdone (by rw [hopen]; decide), hleaves⟩
  · next c rest hcons =>
    rw [token?_of_not_mem_signs
      (not_mem_signs_of_isBlank (hstart.blank c (hcons ▸ List.mem_cons_self)))] at hnext
    split at hnext
    · have hidle := hstart.plainScalar? hnext
      exact ⟨fun _ => hidle, hidle.leaves⟩
    · cases hnext

private theorem settled_subset (s : Scanner) : s.settled ⊆ s.tokens := by
  have htake (keys : List KeyStart) (tokens : List Token) :
      keys.foldl (fun tokens key => tokens.take key.position) tokens ⊆ tokens := by
    induction keys generalizing tokens with
    | nil => exact List.Subset.refl _
    | cons key keys ih => exact List.Subset.trans (ih _) (List.take_subset _ _)
  exact fun t ht => List.mem_reverse.1 (htake _ _ ht)

private theorem IsIdle.isLeaf_of_mem_stuck (h : s.IsIdle) {t : Token} (ht : t ∈ s.stuck) :
    IsLeaf t := by
  rcases List.mem_append.1 ht with ht | ht
  · exact h.leaves t (s.settled_subset ht)
  · exact .inr (.inl (by rw [List.mem_singleton.1 ht]))

theorem run_succ (fuel : Nat) (s : Scanner) :
    run (fuel + 1) s =
      match s.next? with
      | none => s.stuck
      | some s => if s.done then s.tokens.reverse else run fuel s := rfl

private theorem IsIdle.isLeaf_of_mem_run (h : s.IsIdle) (fuel : Nat) {t : Token}
    (ht : t ∈ run fuel s) :
    IsLeaf t := by
  induction fuel generalizing s with
  | zero => exact h.isLeaf_of_mem_stuck ht
  | succ fuel ih =>
    rw [run_succ] at ht
    split at ht
    · exact h.isLeaf_of_mem_stuck ht
    · next next hnext =>
      split at ht
      · exact (h.next? hnext).2 t (List.mem_reverse.1 ht)
      · next hdone => exact ih ((h.next? hnext).1 (Bool.not_eq_true _ ▸ hdone)) ht

end Scanner

private theorem isLeaf_of_mem_tokens {text : List Char} (h : ∀ c ∈ text, isBlank c) {t : Token}
    (ht : t ∈ tokens text) : Scanner.IsLeaf t := by
  have hidle : (Scanner.ofText text).IsIdle :=
    ⟨h, rfl, rfl, fun _ hmem => absurd hmem List.not_mem_nil⟩
  unfold tokens at ht
  simp only at ht
  split at ht
  · exact hidle.isLeaf_of_mem_run _ ht
  · exact hidle.isLeaf_of_mem_stuck ht

private theorem root_ne_mapping {t : Token} (ht : Scanner.IsLeaf t) (rest : List Token)
    (p : Properties)
    (pairs : List (Node × Node)) : (Reader.root (t :: rest)).1 ≠ .mapping p pairs := by
  obtain ⟨style, text, hkind⟩ | hkind | hkind := ht <;>
    simp [Reader.root, Reader.directives?, Reader.kind, Reader.node, Reader.properties?,
      Reader.emptyContent, Reader.halt, hkind]

/-- The document of a blank text has no mapping as its root. -/
theorem document_root_ne_mapping {text : String} (h : isAllBlank text) (p : Properties)
    (pairs : List (Node × Node)) : (document text).root ≠ some (.mapping p pairs) := by
  have hleaf (t : Token) (ht : t ∈ tokens text.toList) : Scanner.IsLeaf t :=
    isLeaf_of_mem_tokens (List.all_eq_true.1 h) ht
  unfold document
  generalize tokens text.toList = ts at *
  cases ts with
  | nil => simp [Reader.root, Reader.directives?, Reader.kind, Reader.node, Reader.properties?,
      Reader.emptyContent, Reader.halt]
  | cons t rest =>
    have hroot := root_ne_mapping (hleaf t List.mem_cons_self) rest p pairs
    simp only
    split
    · simp
    · split <;> simpa using hroot

end VideoEdit.Yaml
