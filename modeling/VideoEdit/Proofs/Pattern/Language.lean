import VideoEdit.Proofs.Pattern.Search
/-!
# What patterns read

A pattern reads a text between the character before it and the text after it. The ways to match are
such readings, so every match of a search is one, at its place in the text searched.
-/
namespace VideoEdit
variable {γ : Type}

/-- The character before a place: the last one of a text, or what stood before that text. -/
def lastOr (before : Option Char) (text : List Char) : Option Char := text.getLast?.or before

@[simp] theorem lastOr_nil (before : Option Char) : lastOr before [] = before := rfl

@[simp] theorem lastOr_cons (before : Option Char) (c : Char) (text : List Char) :
    lastOr before (c :: text) = lastOr (some c) text := by
  cases h : text.getLast? <;> simp [lastOr, List.getLast?_cons, h]

theorem lastOr_append (before : Option Char) (u v : List Char) :
    lastOr before (u ++ v) = lastOr (lastOr before u) v := by
  simp [lastOr, List.getLast?_append, Option.or_assoc]

theorem Span.text_append (u after : List Char) : Span.text ⟨u ++ after, after⟩ = u := by
  rw [text, List.length_append, Nat.add_sub_cancel, List.take_left]

namespace Pattern

/-- Whether a pattern can read a text, given the character before it and the text after it. -/
def Reads : Pattern γ → Option Char → List Char → List Char → Prop
  | never, _, _, _ => False
  | empty, _, u, _ => u = []
  | one cls, _, u, _ => ∃ c, u = [c] ∧ cls.accepts c
  | many cls, _, u, _ => ∀ c ∈ u, cls.accepts c
  | wordBoundary, before, u, after => u = [] ∧ Scan.boundary before after
  | seq p q, before, u, after =>
    ∃ v w, u = v ++ w ∧ p.Reads before v (w ++ after) ∧ q.Reads (lastOr before v) w after
  | alt p q, before, u, after => p.Reads before u after ∨ q.Reads before u after
  | capture _ p, before, u, after => p.Reads before u after

private theorem reads_of_mem_stops {cls : CharClass} {captured : List (γ × Span)}
    {before : Option Char} {rest : List Char} {t : Scan γ}
    (h : t ∈ stops cls captured before rest) :
    ∃ u, rest = u ++ t.rest ∧ t.before = lastOr before u ∧ ∀ c ∈ u, cls.accepts c := by
  induction rest generalizing before with
  | nil =>
    rw [stops, List.mem_singleton] at h
    subst h
    exact ⟨[], rfl, rfl, by simp⟩
  | cons x rest ih =>
    have hstay : t = ⟨before, x :: rest, captured⟩ →
        ∃ u, x :: rest = u ++ t.rest ∧ t.before = lastOr before u ∧ ∀ c ∈ u, cls.accepts c := by
      rintro rfl
      exact ⟨[], rfl, rfl, by simp⟩
    rw [stops] at h
    split_ifs at h with hx
    · rcases List.mem_append.1 h with h | h
      · obtain ⟨u, hu, hb, hall⟩ := ih h
        refine ⟨x :: u, by rw [hu, List.cons_append], by rw [hb, lastOr_cons], ?_⟩
        exact List.forall_mem_cons.2 ⟨hx, hall⟩
      · exact hstay (List.mem_singleton.1 h)
    · exact hstay (List.mem_singleton.1 h)

/-- A way to match is a reading of the text up to the place where it stops. -/
theorem reads_of_mem_ways {p : Pattern γ} {s t : Scan γ} (h : t ∈ p.ways s) :
    ∃ u, s.rest = u ++ t.rest ∧ t.before = lastOr s.before u ∧ p.Reads s.before u t.rest := by
  induction p generalizing s t with
  | never => cases h
  | empty =>
    obtain rfl := List.mem_singleton.1 h
    exact ⟨[], rfl, rfl, rfl⟩
  | one cls =>
    unfold ways at h
    split at h
    · cases h
    · next x rest hrest =>
      split_ifs at h with hx
      · obtain rfl := List.mem_singleton.1 h
        exact ⟨[x], hrest, rfl, x, rfl, hx⟩
      · cases h
  | many cls => exact reads_of_mem_stops h
  | wordBoundary =>
    unfold ways at h
    split_ifs at h with hb
    · obtain rfl := List.mem_singleton.1 h
      exact ⟨[], rfl, rfl, rfl, hb⟩
    · cases h
  | seq p q ihp ihq =>
    obtain ⟨r, hr, ht⟩ := List.mem_flatMap.1 h
    obtain ⟨v, hv, hbv, hpv⟩ := ihp hr
    obtain ⟨w, hw, hbw, hqw⟩ := ihq ht
    rw [hw] at hv hpv
    rw [hbv] at hbw hqw
    exact ⟨v ++ w, by rw [hv, List.append_assoc], by rw [hbw, lastOr_append], v, w, rfl, hpv, hqw⟩
  | alt p q ihp ihq =>
    rcases List.mem_append.1 h with h | h
    · obtain ⟨u, hu, hb, hp⟩ := ihp h
      exact ⟨u, hu, hb, Or.inl hp⟩
    · obtain ⟨u, hu, hb, hq⟩ := ihq h
      exact ⟨u, hu, hb, Or.inr hq⟩
  | capture name p ih =>
    obtain ⟨r, hr, rfl⟩ := List.mem_map.1 h
    have hreads := ih hr
    exact hreads

/-- A match stands in the text searched, and the pattern reads it there. -/
structure Occurs (p : Pattern γ) (text : List Char) (m : Match γ) (front u back : List Char) :
    Prop where
  split : text = front ++ u ++ back
  start : m.start = utf8Length front
  stop : m.stop = utf8Length front + utf8Length u
  reads : p.Reads front.getLast? u back

private theorem matchAt_reads {p : Pattern γ} {offset : Nat} {before : Option Char}
    {rest : List Char} {taken : Nat} {m : Match γ}
    (h : p.matchAt offset before rest = some (taken, m)) :
    p.Reads before (rest.take taken) (rest.drop taken) := by
  obtain ⟨there, hfirst, hm⟩ := Option.bind_eq_some_iff.1 h
  rw [first?_eq_head?] at hfirst
  obtain ⟨u, hu, -, hreads⟩ := reads_of_mem_ways (List.mem_of_head? hfirst)
  dsimp only at hu hreads hm
  split_ifs at hm
  simp only [Option.some.injEq, Prod.mk.injEq] at hm
  obtain ⟨rfl, -⟩ := hm
  have hlen : rest.length - there.rest.length = u.length := by
    rw [hu, List.length_append, Nat.add_sub_cancel]
  rw [hlen, hu, List.take_left, List.drop_left]
  exact hreads

private theorem searchFrom_matchAt {p : Pattern γ} {skip offset : Nat} {before : Option Char}
    {rest : List Char} {m : Match γ} (h : m ∈ p.searchFrom skip offset before rest) :
    ∃ front back taken, rest = front ++ back ∧
      p.matchAt (offset + utf8Length front) (lastOr before front) back = some (taken, m) := by
  induction rest generalizing skip offset before with
  | nil => cases skip <;> cases h
  | cons c rest ih =>
    have hlater {skip : Nat} (h : m ∈ p.searchFrom skip (offset + c.utf8Size) (some c) rest) :
        ∃ front back taken, c :: rest = front ++ back ∧
          p.matchAt (offset + utf8Length front) (lastOr before front) back = some (taken, m) := by
      obtain ⟨front, back, taken, rfl, hm⟩ := ih h
      refine ⟨c :: front, back, taken, rfl, ?_⟩
      rwa [lastOr_cons, utf8Length_cons, ← Nat.add_assoc]
    cases skip with
    | succ skip => exact hlater h
    | zero =>
      rw [searchFrom] at h
      cases hm : p.matchAt offset before (c :: rest) with
      | none =>
        rw [hm] at h
        exact hlater h
      | some found =>
        obtain ⟨taken, first⟩ := found
        rw [hm] at h
        rcases List.mem_cons.1 h with rfl | h
        · exact ⟨[], c :: rest, taken, rfl, hm⟩
        · exact hlater h

theorem exists_matchAt {p : Pattern γ} {text : List Char} {m : Match γ} (h : m ∈ p.search text) :
    ∃ front rest taken, text = front ++ rest ∧
      p.matchAt (utf8Length front) front.getLast? rest = some (taken, m) := by
  obtain ⟨front, rest, taken, hsplit, hm⟩ := searchFrom_matchAt h
  rw [Nat.zero_add, lastOr, Option.or_none] at hm
  exact ⟨front, rest, taken, hsplit, hm⟩

theorem exists_occurs {p : Pattern γ} {text : List Char} {m : Match γ} (h : m ∈ p.search text) :
    ∃ front u back, p.Occurs text m front u back := by
  obtain ⟨front, rest, taken, hsplit, hm⟩ := exists_matchAt h
  obtain ⟨-, -, hstart, hstop⟩ := p.matchAt_bounds hm
  refine ⟨front, rest.take taken, rest.drop taken, ?_, hstart, hstop, matchAt_reads hm⟩
  rw [List.append_assoc, List.take_append_drop, hsplit]

theorem Occurs.exists_split {p : Pattern γ} {text front u back before rest : List Char}
    {m : Match γ} (h : p.Occurs text m front u back) (htext : text = before ++ rest)
    (hle : m.start ≤ utf8Length before) (hlt : utf8Length before < m.stop) :
    ∃ x y, before = front ++ x ∧ u = x ++ y ∧ rest = y ++ back ∧ y ≠ [] := by
  obtain ⟨hsplit, hstart, hstop, -⟩ := h
  rw [hstart] at hle
  rw [hstop] at hlt
  have hboth : front ++ (u ++ back) = before ++ rest := by
    rw [← List.append_assoc, ← hsplit, htext]
  obtain ⟨x, rfl, hx⟩ : ∃ x, before = front ++ x ∧ u ++ back = x ++ rest := by
    rcases List.append_eq_append_iff.1 hboth with h | ⟨x, rfl, hx⟩
    · exact h
    · obtain rfl : x = [] := by
        by_contra hne
        have hlen := utf8Length_pos hne
        rw [utf8Length_append] at hle
        omega
      exact ⟨[], by simp, by simpa using hx.symm⟩
  rw [utf8Length_append] at hlt
  rcases List.append_eq_append_iff.1 hx with ⟨y, rfl, -⟩ | ⟨y, rfl, hy⟩
  · rw [utf8Length_append] at hlt
    omega
  · refine ⟨x, y, rfl, rfl, hy, ?_⟩
    rintro rfl
    rw [List.append_nil] at hlt
    omega

theorem exists_class_of_reads {p : Pattern γ} {before : Option Char} {u after : List Char}
    (h : p.Reads before u after) : ∀ c ∈ u, ∃ cls ∈ p.classes, cls.accepts c := by
  induction p generalizing before u after with
  | never => cases h
  | empty =>
    obtain rfl : u = [] := h
    simp
  | one cls =>
    obtain ⟨d, rfl, hd⟩ := h
    intro c hc
    obtain rfl := List.mem_singleton.1 hc
    exact ⟨cls, List.mem_singleton_self cls, hd⟩
  | many cls => exact fun c hc => ⟨cls, List.mem_singleton_self cls, h c hc⟩
  | wordBoundary =>
    obtain ⟨rfl, -⟩ := h
    simp
  | seq p q ihp ihq =>
    obtain ⟨v, w, rfl, hp, hq⟩ := h
    intro c hc
    rcases List.mem_append.1 hc with hc | hc
    · obtain ⟨cls, hcls, hacc⟩ := ihp hp c hc
      exact ⟨cls, List.mem_append_left _ hcls, hacc⟩
    · obtain ⟨cls, hcls, hacc⟩ := ihq hq c hc
      exact ⟨cls, List.mem_append_right _ hcls, hacc⟩
  | alt p q ihp ihq =>
    intro c hc
    rcases h with hp | hq
    · obtain ⟨cls, hcls, hacc⟩ := ihp hp c hc
      exact ⟨cls, List.mem_append_left _ hcls, hacc⟩
    · obtain ⟨cls, hcls, hacc⟩ := ihq hq c hc
      exact ⟨cls, List.mem_append_right _ hcls, hacc⟩
  | capture name p ih => exact ih h

end Pattern
end VideoEdit
