import VideoEdit.Proofs.Pattern.Overlap
/-!
# Captured parts

A match goes the most preferred of the ways from which the rest of its pattern can go on. So a part
that it captured was read by the pattern of that part, what follows it was read by the pattern
behind it, and every reading of the part that comes before the one taken leads nowhere.
-/
namespace VideoEdit
variable {γ : Type}

namespace Pattern

/-- The most preferred way from which the rest of a match succeeds. -/
def picked? {β : Type} (p : Pattern γ) (s : Scan γ) (next : Scan γ → Option β) : Option (Scan γ) :=
  (p.ways s).find? fun t => (next t).isSome

section Picked
variable {β : Type} {p q : Pattern γ} {s t : Scan γ} {next : Scan γ → Option β}

theorem first?_eq_picked? (p : Pattern γ) (s : Scan γ) : p.first? s = p.picked? s some := by
  rw [first?_eq_head?, picked?]
  cases p.ways s <;> rfl

private theorem isSome_firstWay (p : Pattern γ) (s : Scan γ) (next : Scan γ → Option β) :
    (p.firstWay s next).isSome = (p.picked? s next).isSome := by
  rw [firstWay_eq, picked?]
  induction p.ways s with
  | nil => rfl
  | cons t ts ih =>
    rw [List.findSome?_cons, List.find?_cons]
    cases hnext : next t with
    | none => exact ih
    | some found => rfl

theorem mem_ways_of_picked? (h : p.picked? s next = some t) : t ∈ p.ways s :=
  List.mem_of_find?_eq_some h

private theorem isSome_of_picked? (h : p.picked? s next = some t) : (next t).isSome := by
  simpa using List.find?_some h

theorem picked?_eq_none : p.picked? s next = none ↔ ∀ t ∈ p.ways s, next t = none := by
  simp only [picked?, List.find?_eq_none, Option.not_isSome_iff_eq_none]

theorem picked?_seq : (p ++ q).picked? s next =
    (p.picked? s fun r => q.firstWay r next).bind fun r => q.picked? r next := by
  change ((p.ways s).flatMap q.ways).find? _ = _
  rw [List.find?_flatMap, picked?]
  simp only [isSome_firstWay]
  induction p.ways s with
  | nil => rfl
  | cons r rs ih =>
    rw [List.findSome?_cons, List.find?_cons]
    cases hq : q.picked? r next with
    | none =>
      rw [picked?] at hq
      simp [hq, ih]
    | some t =>
      have hfound := hq
      rw [picked?] at hfound
      simp [hq, hfound]

theorem picked?_alt : (p ||| q).picked? s next = (p.picked? s next).or (q.picked? s next) :=
  List.find?_append

private theorem picked?_capture (name : γ) : (capture name p).picked? s next =
    (p.picked? s fun t => next (s.record name t)).map (s.record name) := by
  rw [picked?, ways, List.find?_map]
  rfl

private theorem firstWay_followedBy (p q : Pattern γ) (s : Scan γ) (next : Scan γ → Option β) :
    (p.followedBy q).firstWay s next = p.firstWay s fun r => q.firstWay r next := by
  cases p <;> rfl

private theorem picked?_empty (s : Scan γ) (next : Scan γ → Option β) :
    empty.picked? s next = if (next s).isSome then some s else none := by
  rw [picked?, ways, List.find?_singleton]

private theorem picked?_followedBy : (p.followedBy q).picked? s next =
    (p.picked? s fun r => q.firstWay r next).bind fun r => q.picked? r next := by
  unfold followedBy
  split
  · rw [picked?_empty, isSome_firstWay]
    cases hq : q.picked? s next with
    | none => rfl
    | some t => exact hq.symm
  · exact picked?_seq

end Picked

/-- A part that a pattern captures: its name, the pattern that reads it, and the pattern that reads
on behind it. -/
structure CaptureGroup (γ : Type) where
  name : γ
  inner : Pattern γ
  after : Pattern γ

/-- The parts that a pattern captures, those within another one apart. -/
def groups : Pattern γ → List (CaptureGroup γ)
  | never | empty | one _ | many _ | wordBoundary => []
  | seq p q => p.groups.map (fun g => { g with after := g.after.followedBy q }) ++ q.groups
  | alt p q => p.groups ++ q.groups
  | capture name p => [⟨name, p, empty⟩]

def isFlat : Pattern γ → Bool
  | never | empty | one _ | many _ | wordBoundary => true
  | seq p q | alt p q => p.isFlat && q.isFlat
  | capture _ p => p.isFlat && p.groups.isEmpty

/-- How a part was captured: what its pattern read from `a` to `b` was picked, and so was the way
from there on to the end of the match. -/
structure CaptureGroup.Captures {β : Type} (g : CaptureGroup γ) (next : Scan γ → Option β)
    (t : Scan γ) (span : Span) (a b : Scan γ) : Prop where
  span_eq : span = ⟨a.rest, b.rest⟩
  inner : g.inner.picked? a (fun b => g.after.firstWay (a.record g.name b) next) = some b
  after : g.after.picked? (a.record g.name b) next = some t

private theorem captured_of_mem_stops {cls : CharClass} {captured : List (γ × Span)}
    {before : Option Char} {rest : List Char} {t : Scan γ}
    (h : t ∈ stops cls captured before rest) : t.captured = captured := by
  induction rest generalizing before with
  | nil =>
    rw [stops, List.mem_singleton] at h
    rw [h]
  | cons x rest ih =>
    rw [stops] at h
    split at h
    · rcases List.mem_append.1 h with h | h
      · exact ih h
      · rw [List.mem_singleton.1 h]
    · rw [List.mem_singleton.1 h]

theorem captured_of_mem_ways {p : Pattern γ} (hp : p.groups = []) {s t : Scan γ}
    (h : t ∈ p.ways s) : t.captured = s.captured := by
  induction p generalizing s t with
  | never => cases h
  | empty => rw [List.mem_singleton.1 h]
  | one cls =>
    unfold ways at h
    split at h
    · cases h
    · split at h
      · rw [List.mem_singleton.1 h]
      · cases h
  | many cls => exact captured_of_mem_stops h
  | wordBoundary =>
    unfold ways at h
    split at h
    · rw [List.mem_singleton.1 h]
    · cases h
  | seq p q ihp ihq =>
    rw [groups, List.append_eq_nil_iff, List.map_eq_nil_iff] at hp
    obtain ⟨r, hr, ht⟩ := List.mem_flatMap.1 h
    rw [ihq hp.2 ht, ihp hp.1 hr]
  | alt p q ihp ihq =>
    rw [groups, List.append_eq_nil_iff] at hp
    exact (List.mem_append.1 h).elim (ihp hp.1) (ihq hp.2)
  | capture name p => cases hp

theorem exists_group {β : Type} {p : Pattern γ} (hflat : p.isFlat) {s t : Scan γ}
    {next : Scan γ → Option β} (h : p.picked? s next = some t) {name : γ} {span : Span}
    (hc : (name, span) ∈ t.captured) :
    (name, span) ∈ s.captured ∨
      ∃ g ∈ p.groups, g.name = name ∧ ∃ a b, a.rest <:+ s.rest ∧ g.Captures next t span a b := by
  induction p generalizing s t β with
  | never | empty | one cls | many cls | wordBoundary =>
    rw [captured_of_mem_ways rfl (mem_ways_of_picked? h)] at hc
    exact Or.inl hc
  | seq p q ihp ihq =>
    obtain ⟨hp, hq⟩ := (Bool.and_eq_true _ _).mp hflat
    rw [show seq p q = p ++ q from rfl, picked?_seq] at h
    obtain ⟨r, hr, ht⟩ := Option.bind_eq_some_iff.1 h
    rcases ihq hq ht hc with hold | ⟨g, hg, hname, a, b, ha, hcaptures⟩
    · rcases ihp hp hr hold with hold | ⟨g, hg, hname, a, b, ha, hspan, hinner, hafter⟩
      · exact Or.inl hold
      · refine Or.inr ⟨_, List.mem_append_left _ (List.mem_map_of_mem hg), hname, a, b, ha, hspan,
          ?_, ?_⟩
        · simpa only [firstWay_followedBy] using hinner
        · rw [picked?_followedBy, hafter]
          exact ht
    · obtain ⟨u, hu, -⟩ := reads_of_mem_ways (mem_ways_of_picked? hr)
      have hsuffix := ha.trans ⟨u, hu.symm⟩
      exact Or.inr ⟨g, List.mem_append_right _ hg, hname, a, b, hsuffix, hcaptures⟩
  | alt p q ihp ihq =>
    obtain ⟨hp, hq⟩ := (Bool.and_eq_true _ _).mp hflat
    rw [show alt p q = p ||| q from rfl, picked?_alt] at h
    rcases Option.or_eq_some_iff.1 h with ht | ⟨-, ht⟩
    · exact (ihp hp ht hc).imp_right fun ⟨g, hg, hrest⟩ => ⟨g, List.mem_append_left _ hg, hrest⟩
    · exact (ihq hq ht hc).imp_right fun ⟨g, hg, hrest⟩ => ⟨g, List.mem_append_right _ hg, hrest⟩
  | capture n p ih =>
    obtain ⟨hp, hgroups⟩ := (Bool.and_eq_true _ _).mp hflat
    rw [picked?_capture] at h
    obtain ⟨r, hr, rfl⟩ := Option.map_eq_some_iff.1 h
    rcases List.mem_cons.1 hc with hhead | hc
    · cases hhead
      refine Or.inr ⟨_, List.mem_singleton_self _, rfl, s, r, List.suffix_refl _, rfl, hr, ?_⟩
      have hnext := isSome_of_picked? hr
      simp only [picked?, ways, List.find?_cons, hnext]
    · rcases ih hp hr hc with hold | ⟨g, hg, -⟩
      · exact Or.inl hold
      · rw [List.isEmpty_iff.1 hgroups] at hg
        cases hg

theorem CaptureGroup.Captures.reads {β : Type} {g : CaptureGroup γ} {next : Scan γ → Option β}
    {t a b : Scan γ} {span : Span} (h : g.Captures next t span a b) :
    a.rest = span.text ++ b.rest ∧ g.inner.Reads a.before span.text b.rest := by
  obtain ⟨u, hu, -, hreads⟩ := reads_of_mem_ways (mem_ways_of_picked? h.inner)
  have htext : span.text = u := by
    rw [h.span_eq, hu, Span.text_append]
  rw [htext]
  exact ⟨hu, hreads⟩

/-- Behind a captured part the pattern goes on with a step for the next character, unless it can stop
in front of it. -/
theorem CaptureGroup.Captures.exists_step {β : Type} {g : CaptureGroup γ}
    {next : Scan γ → Option β} {t a b : Scan γ} {span : Span} (h : g.Captures next t span a b)
    {c : Char} {rest : List Char} (hrest : b.rest = c :: rest)
    (hstop : g.after.canStop (b.before.any isWord) (isWord c) = false) :
    ∃ s ∈ g.after.steps (b.before.any isWord), s.1.accepts c := by
  obtain ⟨u, hu, -, hreads⟩ := reads_of_mem_ways (mem_ways_of_picked? h.after)
  replace hu : c :: rest = u ++ t.rest := hrest.symm.trans hu
  replace hreads : g.after.Reads b.before u t.rest := hreads
  cases u with
  | nil =>
    have hcan := canStop_of_reads hreads
    rw [List.nil_append] at hu
    rw [← hu, List.head?_cons, Option.any_some, hstop] at hcan
    cases hcan
  | cons d u =>
    obtain rfl := (List.cons.inj hu).1
    obtain ⟨s, hs, hc, -⟩ := Pattern.exists_step hreads
    exact ⟨s, hs, hc⟩

/-- A match stands in the text searched, and is the most preferred way from its place on. -/
structure GoesBy (p : Pattern γ) (text : List Char) (m : Match γ) (front rest : List Char)
    (t : Scan γ) : Prop where
  split : text = front ++ rest
  start : m.start = utf8Length front
  way : p.first? ⟨front.getLast?, rest, []⟩ = some t
  captured : m.captured = t.captured.map fun (name, span) => (name, span.text)

/-- A match goes by a way, and stands where that way was read. -/
theorem exists_goesBy_occurs {p : Pattern γ} {text : List Char} {m : Match γ}
    (h : m ∈ p.search text) :
    ∃ front u t, p.GoesBy text m front (u ++ t.rest) t ∧ p.Occurs text m front u t.rest := by
  obtain ⟨front, rest, taken, hsplit, hm⟩ := exists_matchAt h
  obtain ⟨t, ht, hm⟩ := Option.bind_eq_some_iff.1 hm
  have hway := ht
  rw [first?_eq_head?] at hway
  obtain ⟨u, rfl, -, hreads⟩ := reads_of_mem_ways (List.mem_of_head? hway)
  dsimp only at hm
  split at hm
  · cases hm
  · cases hm
    refine ⟨front, u, t, ⟨hsplit, rfl, ht, rfl⟩, ?_, rfl, ?_, hreads⟩
    · rw [hsplit, List.append_assoc]
    · rw [List.length_append, Nat.add_sub_cancel, List.take_left]

theorem exists_goesBy {p : Pattern γ} {text : List Char} {m : Match γ} (h : m ∈ p.search text) :
    ∃ front rest t, p.GoesBy text m front rest t := by
  obtain ⟨front, u, t, hgoes, -⟩ := exists_goesBy_occurs h
  exact ⟨front, _, t, hgoes⟩

theorem GoesBy.exists_span [DecidableEq γ] {p : Pattern γ} {text front rest : List Char}
    {m : Match γ} {t : Scan γ} (h : p.GoesBy text m front rest t) {name : γ} {part : List Char}
    (hpart : m.text? name = some part) : ∃ span, (name, span) ∈ t.captured ∧ span.text = part := by
  rw [Match.text?, h.captured] at hpart
  obtain ⟨front, back, hsplit, -⟩ := List.lookup_eq_some_iff.1 hpart
  have hmem : (name, part) ∈ t.captured.map fun (name, span) => (name, span.text) := by
    rw [hsplit]
    simp
  obtain ⟨⟨name, span⟩, hspan, hname⟩ := List.mem_map.1 hmem
  cases hname
  exact ⟨span, hspan, rfl⟩

theorem exists_reads_of_text? [DecidableEq γ] {p : Pattern γ} (hflat : p.isFlat)
    {text : List Char} {m : Match γ} (hm : m ∈ p.search text) {name : γ} {part : List Char}
    (hpart : m.text? name = some part) :
    ∃ g ∈ p.groups, g.name = name ∧ ∃ before after, g.inner.Reads before part after := by
  obtain ⟨front, rest, t, hgoes⟩ := exists_goesBy hm
  obtain ⟨span, hspan, rfl⟩ := hgoes.exists_span hpart
  have hpicked := hgoes.way
  rw [first?_eq_picked?] at hpicked
  rcases exists_group hflat hpicked hspan with hnone | ⟨g, hg, hname, a, b, -, hcaptures⟩
  · cases hnone
  · exact ⟨g, hg, hname, a.before, b.rest, hcaptures.reads.2⟩

section Names
variable [DecidableEq γ]

/-- The names under which a pattern captures parts on one way, the latest in front; one list for
each of the choices among its alternatives that differ in this. -/
def nameLists : Pattern γ → List (List γ)
  | never => []
  | empty | one _ | many _ | wordBoundary => [[]]
  | seq p q => p.nameLists.flatMap fun names => q.nameLists.map (· ++ names)
  | alt p q => p.nameLists ++ q.nameLists.filter fun names => names ∉ p.nameLists
  | capture name p => p.nameLists.map (name :: ·)

theorem names_of_mem_ways {p : Pattern γ} {s t : Scan γ} (h : t ∈ p.ways s) :
    ∃ names ∈ p.nameLists, t.captured.map Prod.fst = names ++ s.captured.map Prod.fst := by
  induction p generalizing s t with
  | never => cases h
  | empty | one cls | many cls | wordBoundary =>
    rw [captured_of_mem_ways rfl h]
    exact ⟨[], List.mem_singleton_self _, rfl⟩
  | seq p q ihp ihq =>
    obtain ⟨r, hr, ht⟩ := List.mem_flatMap.1 h
    obtain ⟨names, hnames, hp⟩ := ihp hr
    obtain ⟨names', hnames', hq⟩ := ihq ht
    refine ⟨names' ++ names, ?_, by rw [hq, hp, List.append_assoc]⟩
    exact List.mem_flatMap.2 ⟨names, hnames, List.mem_map_of_mem hnames'⟩
  | alt p q ihp ihq =>
    rcases List.mem_append.1 h with h | h
    · obtain ⟨names, hnames, hp⟩ := ihp h
      exact ⟨names, List.mem_append_left _ hnames, hp⟩
    · obtain ⟨names, hnames, hq⟩ := ihq h
      refine ⟨names, ?_, hq⟩
      by_cases hp : names ∈ p.nameLists
      · exact List.mem_append_left _ hp
      · exact List.mem_append_right _ (List.mem_filter.2 ⟨hnames, by simpa using hp⟩)
  | capture name p ih =>
    obtain ⟨r, hr, rfl⟩ := List.mem_map.1 h
    obtain ⟨names, hnames, hp⟩ := ih hr
    refine ⟨name :: names, List.mem_map_of_mem hnames, ?_⟩
    rw [List.cons_append, ← hp]
    rfl

theorem names_of_mem_search {p : Pattern γ} {text : List Char} {m : Match γ}
    (h : m ∈ p.search text) : m.captured.map Prod.fst ∈ p.nameLists := by
  obtain ⟨front, rest, t, hgoes⟩ := exists_goesBy h
  have hpicked := hgoes.way
  rw [first?_eq_picked?] at hpicked
  obtain ⟨names, hnames, ht⟩ := names_of_mem_ways (mem_ways_of_picked? hpicked)
  have hsame : m.captured.map Prod.fst = names := by
    rw [hgoes.captured, List.map_map, ← List.append_nil names]
    exact ht
  rwa [hsame]

end Names
end Pattern

theorem Match.isSome_text?_iff [DecidableEq γ] {m : Match γ} {name : γ} :
    (m.text? name).isSome ↔ name ∈ m.captured.map Prod.fst := by
  simp only [text?, List.lookup_isSome_iff, List.mem_map, beq_iff_eq, @eq_comm γ name]

end VideoEdit
