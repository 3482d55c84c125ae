import VideoEdit.Proofs.Pattern.Groups
/-!
# Readings with their parts

A reading of a pattern captures parts of the text that it reads. The ways to match are exactly these
readings, so a search finds something in every text that has a part which its pattern reads.
-/
namespace VideoEdit
variable {γ : Type}

namespace Pattern

/-- Whether a pattern can read a text, given the character before it and the text after it, and
capture some parts on the way, the latest in front. -/
def ReadsAs : Pattern γ → Option Char → List Char → List Char → List (γ × Span) → Prop
  | seq p q, before, u, after, parts =>
    ∃ v w a b, u = v ++ w ∧ parts = b ++ a ∧ p.ReadsAs before v (w ++ after) a ∧
      q.ReadsAs (lastOr before v) w after b
  | alt p q, before, u, after, parts =>
    p.ReadsAs before u after parts ∨ q.ReadsAs before u after parts
  | capture name p, before, u, after, parts =>
    ∃ inner, parts = (name, ⟨u ++ after, after⟩) :: inner ∧ p.ReadsAs before u after inner
  | p, before, u, after, parts => p.Reads before u after ∧ parts = []

section Readings
variable {p q r : Pattern γ} {before : Option Char} {u after : List Char} {parts : List (γ × Span)}

theorem reads_of_readsAs (h : p.ReadsAs before u after parts) : p.Reads before u after := by
  induction p generalizing before u after parts with
  | never | empty | one | many | wordBoundary => exact h.1
  | seq p q ihp ihq =>
    obtain ⟨v, w, a, b, rfl, -, hp, hq⟩ := h
    exact ⟨v, w, rfl, ihp hp, ihq hq⟩
  | alt p q ihp ihq => exact h.imp ihp ihq
  | capture name p ih =>
    obtain ⟨inner, -, hp⟩ := h
    exact ih hp

theorem exists_readsAs (h : p.Reads before u after) : ∃ parts, p.ReadsAs before u after parts := by
  induction p generalizing before u after with
  | never | empty | one | many | wordBoundary => exact ⟨[], h, rfl⟩
  | seq p q ihp ihq =>
    obtain ⟨v, w, rfl, hp, hq⟩ := h
    obtain ⟨a, ha⟩ := ihp hp
    obtain ⟨b, hb⟩ := ihq hq
    exact ⟨b ++ a, v, w, a, b, rfl, rfl, ha, hb⟩
  | alt p q ihp ihq =>
    rcases h with hp | hq
    · obtain ⟨parts, hparts⟩ := ihp hp
      exact ⟨parts, Or.inl hparts⟩
    · obtain ⟨parts, hparts⟩ := ihq hq
      exact ⟨parts, Or.inr hparts⟩
  | capture name p ih =>
    obtain ⟨parts, hparts⟩ := ih h
    exact ⟨_, parts, rfl, hparts⟩

theorem readsAs_seq_assoc :
    ((p ++ q) ++ r).ReadsAs before u after parts ↔
      (p ++ (q ++ r)).ReadsAs before u after parts := by
  constructor
  · rintro ⟨_, w, _, c, rfl, rfl, ⟨v, v', a, b, rfl, rfl, hp, hq⟩, hr⟩
    rw [lastOr_append] at hr
    rw [← List.append_assoc] at hp
    exact ⟨v, v' ++ w, a, c ++ b, List.append_assoc .., (List.append_assoc ..).symm, hp, v', w, b,
      c, rfl, rfl, hq, hr⟩
  · rintro ⟨v, _, a, _, rfl, rfl, hp, v', w, b, c, rfl, rfl, hq, hr⟩
    rw [← lastOr_append] at hr
    rw [List.append_assoc] at hp
    exact ⟨v ++ v', w, b ++ a, c, (List.append_assoc ..).symm, List.append_assoc .., ⟨v, v', a, b,
      rfl, rfl, hp, hq⟩, hr⟩

theorem readsAs_empty_seq :
    (empty ++ p).ReadsAs before u after parts ↔ p.ReadsAs before u after parts := by
  constructor
  · rintro ⟨_, w, _, b, rfl, rfl, ⟨rfl, rfl⟩, hp⟩
    rwa [List.append_nil]
  · intro hp
    exact ⟨[], u, [], parts, rfl, (List.append_nil parts).symm, ⟨rfl, rfl⟩, hp⟩

end Readings

theorem mem_stops {cls : CharClass} {captured : List (γ × Span)} {before : Option Char}
    {u after : List Char} (h : ∀ c ∈ u, cls.accepts c) :
    ⟨lastOr before u, after, captured⟩ ∈ stops cls captured before (u ++ after) := by
  induction u generalizing before with
  | nil =>
    cases after with
    | nil => exact List.mem_singleton_self _
    | cons x after =>
      rw [List.nil_append, stops]
      split_ifs
      · exact List.mem_append_right _ (List.mem_singleton_self _)
      · exact List.mem_singleton_self _
  | cons x u ih =>
    obtain ⟨hx, hu⟩ := List.forall_mem_cons.1 h
    rw [List.cons_append, stops, if_pos hx, lastOr_cons]
    exact List.mem_append_left _ (ih hu)

private theorem mem_ways_of_readsAs {p : Pattern γ} {before : Option Char} {u after : List Char}
    {parts : List (γ × Span)} (h : p.ReadsAs before u after parts) (captured : List (γ × Span)) :
    ⟨lastOr before u, after, parts ++ captured⟩ ∈ p.ways ⟨before, u ++ after, captured⟩ := by
  induction p generalizing before u after parts captured with
  | never => cases h.1
  | empty =>
    obtain ⟨rfl : u = [], rfl⟩ := h
    exact List.mem_singleton_self _
  | one cls =>
    obtain ⟨⟨c, rfl, hc⟩, rfl⟩ := h
    simp [ways, hc]
  | many cls =>
    obtain ⟨hu, rfl⟩ := h
    exact mem_stops hu
  | wordBoundary =>
    obtain ⟨⟨rfl, hb⟩, rfl⟩ := h
    simp [ways, hb]
  | seq p q ihp ihq =>
    obtain ⟨v, w, a, b, rfl, rfl, hp, hq⟩ := h
    rw [List.append_assoc, lastOr_append, List.append_assoc]
    exact List.mem_flatMap.2 ⟨_, ihp hp captured, ihq hq (a ++ captured)⟩
  | alt p q ihp ihq =>
    rcases h with hp | hq
    · exact List.mem_append_left _ (ihp hp captured)
    · exact List.mem_append_right _ (ihq hq captured)
  | capture name p ih =>
    obtain ⟨inner, rfl, hp⟩ := h
    exact List.mem_map_of_mem (ih hp captured)

theorem parts_eq_nil {p : Pattern γ} (hp : p.groups = []) {before : Option Char}
    {u after : List Char} {parts : List (γ × Span)} (h : p.ReadsAs before u after parts) :
    parts = [] := by
  have hcaptured := captured_of_mem_ways hp (mem_ways_of_readsAs h [])
  rwa [List.append_nil] at hcaptured

theorem names_of_readsAs [DecidableEq γ] {p : Pattern γ} {before : Option Char}
    {u after : List Char} {parts : List (γ × Span)} (h : p.ReadsAs before u after parts) :
    parts.map Prod.fst ∈ p.nameLists := by
  obtain ⟨names, hnames, hparts⟩ := names_of_mem_ways (mem_ways_of_readsAs h [])
  simp only [List.append_nil, List.map_nil] at hparts
  rwa [hparts]

theorem readsAs_capture {p : Pattern γ} (hp : p.groups = []) {name : γ} {before : Option Char}
    {u after : List Char} {parts : List (γ × Span)}
    (h : (capture name p).ReadsAs before u after parts) :
    parts = [(name, ⟨u ++ after, after⟩)] ∧ p.Reads before u after := by
  obtain ⟨inner, rfl, hreads⟩ := h
  rw [parts_eq_nil hp hreads]
  exact ⟨rfl, reads_of_readsAs hreads⟩

private theorem readsAs_of_mem_ways {p : Pattern γ} {s t : Scan γ} (h : t ∈ p.ways s) :
    ∃ u parts, s.rest = u ++ t.rest ∧ t.before = lastOr s.before u ∧
      t.captured = parts ++ s.captured ∧ p.ReadsAs s.before u t.rest parts := by
  induction p generalizing s t with
  | never => cases h
  | empty | one cls | many cls | wordBoundary =>
    obtain ⟨u, hu, hb, hreads⟩ := reads_of_mem_ways h
    exact ⟨u, [], hu, hb, captured_of_mem_ways rfl h, hreads, rfl⟩
  | seq p q ihp ihq =>
    obtain ⟨r, hr, ht⟩ := List.mem_flatMap.1 h
    obtain ⟨v, a, hv, hbv, hca, hp⟩ := ihp hr
    obtain ⟨w, b, hw, hbw, hcb, hq⟩ := ihq ht
    rw [hw] at hv hp
    rw [hbv] at hbw hq
    exact ⟨v ++ w, b ++ a, by rw [hv, List.append_assoc], by rw [hbw, lastOr_append],
      by rw [hcb, hca, List.append_assoc], v, w, a, b, rfl, rfl, hp, hq⟩
  | alt p q ihp ihq =>
    rcases List.mem_append.1 h with h | h
    · obtain ⟨u, parts, hu, hb, hc, hp⟩ := ihp h
      exact ⟨u, parts, hu, hb, hc, Or.inl hp⟩
    · obtain ⟨u, parts, hu, hb, hc, hq⟩ := ihq h
      exact ⟨u, parts, hu, hb, hc, Or.inr hq⟩
  | capture name p ih =>
    obtain ⟨r, hr, rfl⟩ := List.mem_map.1 h
    obtain ⟨u, parts, hu, hb, hc, hp⟩ := ih hr
    refine ⟨u, (name, ⟨s.rest, r.rest⟩) :: parts, hu, hb, ?_, parts, by rw [hu]; rfl, hp⟩
    simp only [Scan.record, hc, List.cons_append]

section First
variable {p q : Pattern γ} {before : Option Char} {rest : List Char} {t : Scan γ}

theorem first?_alt (p q : Pattern γ) (s : Scan γ) :
    (p ||| q).first? s = (p.first? s).or (q.first? s) := by
  rw [first?_eq_head?, first?_eq_head?, first?_eq_head?]
  exact List.head?_append

theorem first?_of_boundary {s : Scan γ} (h : (wordBoundary ++ p).first? s = some t) :
    p.first? s = some t := by
  rw [first?_eq_head?] at h ⊢
  change (List.flatMap p.ways (if Scan.boundary s.before s.rest then [s] else [])).head? = _ at h
  split at h
  · rwa [List.flatMap_singleton] at h
  · cases h

theorem readsAs_of_first? (h : p.first? ⟨before, rest, []⟩ = some t) :
    ∃ u, rest = u ++ t.rest ∧ p.ReadsAs before u t.rest t.captured := by
  rw [first?_eq_head?] at h
  obtain ⟨u, parts, hu, -, hcaptured, hreads⟩ := readsAs_of_mem_ways (List.mem_of_head? h)
  rw [List.append_nil] at hcaptured
  rw [hcaptured]
  exact ⟨u, hu, hreads⟩

theorem not_reads_of_first?_eq_none (h : p.first? ⟨before, rest, []⟩ = none) {u after : List Char}
    (hrest : rest = u ++ after) : ¬p.Reads before u after := by
  rintro hreads
  obtain ⟨parts, hparts⟩ := exists_readsAs hreads
  have hway := mem_ways_of_readsAs hparts []
  rw [first?_eq_head?, List.head?_eq_none_iff, hrest] at h
  rw [h] at hway
  cases hway

end First

section Presence
variable {p : Pattern γ} (hempty : ∀ before after, ¬p.Reads before [] after)
include hempty

private theorem isSome_matchAt_of_reads {before : Option Char} {u after : List Char}
    (h : p.Reads before u after) (offset : Nat) :
    (p.matchAt offset before (u ++ after)).isSome := by
  obtain ⟨there, hthere⟩ : ∃ there, p.first? ⟨before, u ++ after, []⟩ = some there := by
    rw [← Option.ne_none_iff_exists']
    intro hnone
    exact not_reads_of_first?_eq_none hnone rfl h
  obtain ⟨v, hv, hparts⟩ := readsAs_of_first? hthere
  have hreads := reads_of_readsAs hparts
  have htaken : (u ++ after).length - there.rest.length ≠ 0 := by
    rw [hv, List.length_append, Nat.add_sub_cancel, List.length_eq_zero_iff.ne]
    rintro rfl
    exact hempty before there.rest hreads
  rw [matchAt, hthere, Option.bind_some, if_neg htaken]
  rfl

private theorem searchFrom_ne_nil_of_reads {offset : Nat} {before : Option Char}
    {front u back : List Char} (h : p.Reads (lastOr before front) u back) :
    p.searchFrom 0 offset before (front ++ (u ++ back)) ≠ [] := by
  induction front generalizing offset before with
  | nil =>
    obtain ⟨found, hfound⟩ := Option.isSome_iff_exists.1 (isSome_matchAt_of_reads hempty h offset)
    cases u with
    | nil => exact absurd h (hempty _ back)
    | cons c u =>
      rw [List.nil_append, List.cons_append, searchFrom]
      rw [lastOr_nil, List.cons_append] at hfound
      rw [hfound]
      exact List.cons_ne_nil _ _
  | cons c front ih =>
    rw [lastOr_cons] at h
    rw [List.cons_append, searchFrom]
    cases p.matchAt offset before (c :: (front ++ (u ++ back))) with
    | none => exact ih h
    | some found => exact List.cons_ne_nil _ _

/-- Something is found in a text exactly if some part of it is read. -/
theorem exists_match_iff {text : List Char} :
    (∃ m, m ∈ p.search text) ↔
      ∃ front u back, text = front ++ u ++ back ∧ p.Reads front.getLast? u back := by
  constructor
  · rintro ⟨m, hm⟩
    obtain ⟨front, u, back, hoccurs⟩ := exists_occurs hm
    exact ⟨front, u, back, hoccurs.split, hoccurs.reads⟩
  · rintro ⟨front, u, back, rfl, hreads⟩
    have hlast : lastOr none front = front.getLast? := Option.or_none
    rw [List.append_assoc]
    rw [← hlast] at hreads
    exact List.exists_mem_of_ne_nil _ (searchFrom_ne_nil_of_reads hempty hreads)

end Presence

end Pattern
end VideoEdit
