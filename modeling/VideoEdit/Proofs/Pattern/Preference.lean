import VideoEdit.Proofs.Pattern.Ending
/-!
# The preferred reading

What the most preferred way of a pattern reads is put together from what its parts read: a sequence
reads what its two parts read in turn, a choice what its first part reads unless that is blocked,
and a run of a class all that belongs to the class.
-/
namespace VideoEdit
variable {γ : Type}

def Scan.texts (s : Scan γ) : List (γ × List Char) :=
  s.captured.map fun (name, span) => (name, span.text)

namespace Pattern

/-- The most preferred way from a place reads the text `u` and captures the texts `parts`. -/
def Prefers (p : Pattern γ) (before : Option Char) (u after : List Char)
    (parts : List (γ × List Char)) : Prop :=
  ∀ captured, ∃ t : Scan γ, p.first? ⟨before, u ++ after, captured⟩ = some t ∧
    t.before = lastOr before u ∧ t.rest = after ∧
    t.texts = parts ++ Scan.texts ⟨before, u ++ after, captured⟩

def Blocked (p : Pattern γ) (before : Option Char) (text : List Char) : Prop :=
  ∀ captured, p.first? ⟨before, text, captured⟩ = none

section Blocked
variable {p : Pattern γ} {before : Option Char} {text : List Char}

theorem blocked_of_not_reads (h : ∀ u after, text = u ++ after → ¬p.Reads before u after) :
    p.Blocked before text := by
  intro captured
  rw [first?_eq_head?, List.head?_eq_none_iff, List.eq_nil_iff_forall_not_mem]
  intro t ht
  obtain ⟨u, hu, -, hreads⟩ := reads_of_mem_ways ht
  exact h u t.rest hu hreads

private theorem blocked_of_steps
    (hstop : p.canStop (before.any isWord) (text.head?.any isWord) = false)
    (hsteps : ∀ s ∈ p.steps (before.any isWord), ∀ c ∈ text.head?, s.1.accepts c = false) :
    p.Blocked before text := by
  apply blocked_of_not_reads
  rintro u after rfl hreads
  cases u with
  | nil =>
    rw [List.nil_append, canStop_of_reads hreads] at hstop
    cases hstop
  | cons c u =>
    obtain ⟨s, hs, hc, -⟩ := exists_step hreads
    rw [hsteps s hs c rfl] at hc
    cases hc

theorem blocked_of_head? {chars : List Char} (htext : ∀ c ∈ text.head?, c ∈ chars)
    (h : ∀ left, (∀ right, p.canStop left right = false) ∧
      ∀ s ∈ p.steps left, chars.all fun c => s.1.accepts c = false) : p.Blocked before text := by
  apply blocked_of_steps
  · exact (h _).1 _
  · intro s hs c hc
    exact List.all_iff_forall_prop.1 ((h _).2 s hs) c (htext c hc)

end Blocked

section Preference
variable {p q : Pattern γ} {before : Option Char} {u v after : List Char}
  {a b : List (γ × List Char)}

theorem Prefers.seq (hp : p.Prefers before u (v ++ after) a)
    (hq : q.Prefers (lastOr before u) v after b) :
    (p ++ q).Prefers before (u ++ v) after (b ++ a) := by
  intro captured
  obtain ⟨r, hr, hbefore, hrest, htexts⟩ := hp captured
  obtain ⟨t, ht, hbefore', hrest', htexts'⟩ := hq r.captured
  rw [← hbefore, ← hrest] at ht htexts'
  refine ⟨t, ?_, ?_, hrest', ?_⟩
  · rw [first?_eq_head?] at hr ht ⊢
    change ((p.ways _).flatMap q.ways).head? = some t
    rw [List.append_assoc]
    obtain ⟨rs, hrs⟩ := List.head?_eq_some_iff.1 hr
    rw [hrs, List.flatMap_cons, List.head?_append, ht]
    rfl
  · rw [hbefore', lastOr_append]
  · rw [htexts', List.append_assoc, List.append_assoc]
    exact congrArg (b ++ ·) htexts

theorem Prefers.left (hp : p.Prefers before u after a) : (p ||| q).Prefers before u after a := by
  intro captured
  obtain ⟨t, ht, hrest⟩ := hp captured
  refine ⟨t, ?_, hrest⟩
  rw [first?_eq_head?] at ht ⊢
  change ((p.ways _) ++ (q.ways _)).head? = some t
  rw [List.head?_append, ht]
  rfl

theorem Prefers.right (hp : p.Blocked before (u ++ after)) (hq : q.Prefers before u after a) :
    (p ||| q).Prefers before u after a := by
  intro captured
  obtain ⟨t, ht, hrest⟩ := hq captured
  refine ⟨t, ?_, hrest⟩
  have hnone := hp captured
  rw [first?_eq_head?] at ht hnone ⊢
  change ((p.ways _) ++ (q.ways _)).head? = some t
  rw [List.head?_append, hnone, ht]
  rfl

theorem prefers_empty : (empty : Pattern γ).Prefers before [] after [] :=
  fun captured => ⟨⟨before, after, captured⟩, rfl, rfl, rfl, rfl⟩

theorem prefers_maybe_nil (hp : p.Blocked before after) : (maybe p).Prefers before [] after [] :=
  .right hp prefers_empty

theorem prefers_wordBoundary (h : Scan.boundary before after) :
    (wordBoundary : Pattern γ).Prefers before [] after [] := by
  intro captured
  refine ⟨⟨before, after, captured⟩, ?_, rfl, rfl, rfl⟩
  exact if_pos h

theorem prefers_one {cls : CharClass} {c : Char} (h : cls.accepts c) :
    (one cls : Pattern γ).Prefers before [c] after [] := by
  intro captured
  refine ⟨⟨some c, after, captured⟩, ?_, rfl, rfl, rfl⟩
  exact if_pos h

theorem prefers_many {cls : CharClass} (hu : ∀ c ∈ u, cls.accepts c)
    (hafter : ∀ c ∈ after.head?, cls.accepts c = false) :
    (many cls : Pattern γ).Prefers before u after [] := by
  intro captured
  refine ⟨⟨lastOr before u, after, captured⟩, ?_, rfl, rfl, rfl⟩
  obtain ⟨htake, hdrop⟩ := cut_run hu hafter
  rw [first?_eq_head?, ways, head?_stops, htake, hdrop]

theorem prefers_oneOrMore {cls : CharClass} (hne : u ≠ []) (hu : ∀ c ∈ u, cls.accepts c)
    (hafter : ∀ c ∈ after.head?, cls.accepts c = false) :
    (oneOrMore cls : Pattern γ).Prefers before u after [] := by
  obtain ⟨c, u, rfl⟩ := List.exists_cons_of_ne_nil hne
  obtain ⟨hc, hu⟩ := List.forall_mem_cons.1 hu
  exact (prefers_one hc).seq (prefers_many hu hafter)

theorem Prefers.capture (name : γ) (hp : p.Prefers before u after a) :
    (capture name p).Prefers before u after ((name, u) :: a) := by
  intro captured
  obtain ⟨t, ht, hbefore, hrest, htexts⟩ := hp captured
  refine ⟨Scan.record name ⟨before, u ++ after, captured⟩ t, ?_, hbefore, hrest, ?_⟩
  · rw [first?_eq_head?] at ht ⊢
    rw [ways, List.head?_map, ht]
    rfl
  · have htext : Span.text ⟨u ++ after, t.rest⟩ = u := by rw [hrest, Span.text_append]
    change (name, Span.text ⟨u ++ after, t.rest⟩) :: t.texts = _
    rw [htext, htexts]
    rfl

theorem Prefers.reads (hp : p.Prefers before u after a) : p.Reads before u after := by
  obtain ⟨t, ht, -, hrest, -⟩ := hp []
  rw [first?_eq_head?] at ht
  obtain ⟨v, hv, -, hreads⟩ := reads_of_mem_ways (List.mem_of_head? ht)
  rw [hrest] at hv hreads
  rwa [List.append_cancel_right hv]

theorem Prefers.matchAt (hp : p.Prefers before u after a) (hne : u ≠ []) (offset : Nat) :
    p.matchAt offset before (u ++ after) =
      some (u.length, ⟨offset, offset + utf8Length u, a⟩) := by
  obtain ⟨t, ht, -, hrest, htexts⟩ := hp []
  have hlen : (u ++ after).length - t.rest.length = u.length := by
    rw [hrest, List.length_append, Nat.add_sub_cancel]
  have hpos : u.length ≠ 0 := by simpa using hne
  rw [Scan.texts, Scan.texts, List.map_nil, List.append_nil] at htexts
  simp only [Pattern.matchAt, ht, Option.bind_some, hlen, hpos, if_false, List.take_left, htexts]

end Preference

theorem mem_search_of_prefers {p : Pattern γ} {u after : List Char} {a : List (γ × List Char)}
    (h : p.Prefers none u after a) (hne : u ≠ []) :
    ⟨0, utf8Length u, a⟩ ∈ p.search (u ++ after) := by
  have hmatch := h.matchAt hne 0
  obtain ⟨c, u, rfl⟩ := List.exists_cons_of_ne_nil hne
  rw [List.cons_append] at hmatch ⊢
  rw [search, searchFrom, hmatch, Nat.zero_add]
  exact List.mem_cons_self

/-- A text that is one match has no other. -/
theorem search_eq_of_prefers {p : Pattern γ} {u : List Char} {a : List (γ × List Char)}
    (h : p.Prefers none u [] a) (hne : u ≠ []) : p.search u = [⟨0, utf8Length u, a⟩] := by
  have hmatch := h.matchAt hne 0
  rw [List.append_nil, Nat.zero_add] at hmatch
  obtain ⟨c, u, rfl⟩ := List.exists_cons_of_ne_nil hne
  rw [search, searchFrom, hmatch]
  have hnone : p.searchFrom u.length (0 + c.utf8Size) (some c) u = [] := by
    rw [List.eq_nil_iff_forall_not_mem]
    intro m hm
    have hbounds := p.searchFrom_bounds hm
    rw [List.take_length] at hbounds
    omega
  exact congrArg _ hnone

end Pattern
end VideoEdit
