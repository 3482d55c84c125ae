import VideoEdit.Proofs.Pattern.Parts
/-!
# Where patterns end

A run of a class goes on as far as the class does. Whether the character before the end of a reading
belongs to a word is often known from the pattern, and a pattern that can stop at a place has a way
that stays there.
-/
namespace VideoEdit
variable {γ : Type}

namespace Pattern

/-- Whether the character before the end of a reading is sure to belong to a word, given whether the
one before its beginning is. -/
def endsInWord : Pattern γ → Bool → Bool
  | never, _ => true
  | empty, left | wordBoundary, left => left
  | one cls, _ => cls.isWordlike
  | many cls, left => left && cls.isWordlike
  | seq p q, left => q.endsInWord (p.endsInWord left)
  | alt p q, left => p.endsInWord left && q.endsInWord left
  | capture _ p, left => p.endsInWord left

private theorem isWord_lastOr {before : Option Char} {u : List Char} (h : before.any isWord)
    (hu : ∀ c ∈ u, isWord c) : (lastOr before u).any isWord := by
  induction u generalizing before with
  | nil => exact h
  | cons c u ih =>
    rw [lastOr_cons]
    obtain ⟨hc, hu⟩ := List.forall_mem_cons.1 hu
    exact ih hc hu

private theorem isWord_of_endsInWord_left {p : Pattern γ} {left : Bool} (h : p.endsInWord left)
    {before : Option Char} (hleft : left → before.any isWord) {u after : List Char}
    (hreads : p.Reads before u after) : (lastOr before u).any isWord := by
  induction p generalizing left before u after with
  | never => cases hreads
  | empty =>
    obtain rfl : u = [] := hreads
    exact hleft h
  | one cls =>
    obtain ⟨c, rfl, hc⟩ := hreads
    exact (CharClass.isWord_of_accepts hc).trans h
  | many cls =>
    obtain ⟨hleft', hcls⟩ := (Bool.and_eq_true _ _).mp h
    apply isWord_lastOr (hleft hleft')
    intro c hc
    exact (CharClass.isWord_of_accepts (hreads c hc)).trans hcls
  | wordBoundary =>
    obtain ⟨rfl, -⟩ := hreads
    exact hleft h
  | seq p q ihp ihq =>
    obtain ⟨v, w, rfl, hp, hq⟩ := hreads
    rw [lastOr_append]
    exact ihq h (fun hends => ihp hends hleft hp) hq
  | alt p q ihp ihq =>
    obtain ⟨hp, hq⟩ := (Bool.and_eq_true _ _).mp h
    rcases hreads with hreads | hreads
    · exact ihp hp hleft hreads
    · exact ihq hq hleft hreads
  | capture name p ih => exact ih h hleft hreads

theorem isWord_of_endsInWord {p : Pattern γ} (h : p.endsInWord false) {before : Option Char}
    {u after : List Char} (hreads : p.Reads before u after) : (lastOr before u).any isWord :=
  isWord_of_endsInWord_left h (by simp) hreads

theorem cut_run {kind : Char → Bool} {u after : List Char} (hu : ∀ c ∈ u, kind c)
    (hafter : ∀ c ∈ after.head?, kind c = false) :
    (u ++ after).takeWhile kind = u ∧ (u ++ after).dropWhile kind = after := by
  rw [List.takeWhile_append_of_pos hu, List.dropWhile_append_of_pos hu]
  cases after with
  | nil => simp
  | cons c after =>
    have hc := hafter c rfl
    simp [hc]

theorem run_unique {kind : Char → Bool} {u v a b : List Char} (h : u ++ a = v ++ b)
    (hu : ∀ c ∈ u, kind c) (hv : ∀ c ∈ v, kind c) (ha : ∀ c ∈ a.head?, kind c = false)
    (hb : ∀ c ∈ b.head?, kind c = false) : u = v ∧ a = b := by
  obtain ⟨htake, hdrop⟩ := cut_run hu ha
  obtain ⟨htake', hdrop'⟩ := cut_run hv hb
  rw [h] at htake hdrop
  exact ⟨htake.symm.trans htake', hdrop.symm.trans hdrop'⟩

theorem head?_stops (cls : CharClass) (captured : List (γ × Span)) (before : Option Char)
    (rest : List Char) : (stops cls captured before rest).head? =
      some ⟨lastOr before (rest.takeWhile cls.accepts), rest.dropWhile cls.accepts, captured⟩ := by
  induction rest generalizing before with
  | nil => rfl
  | cons x rest ih =>
    rw [stops]
    split
    · next hx =>
      rw [List.head?_append, ih, List.takeWhile_cons_of_pos hx, List.dropWhile_cons_of_pos hx,
        lastOr_cons]
      rfl
    · next hx =>
      rw [List.takeWhile_cons_of_neg hx, List.dropWhile_cons_of_neg hx]
      rfl

private theorem exists_stay {p : Pattern γ} {s : Scan γ}
    (h : p.canStop (s.before.any isWord) (s.rest.head?.any isWord)) :
    ∃ t ∈ p.ways s, t.before = s.before ∧ t.rest = s.rest := by
  induction p generalizing s with
  | never => cases h
  | empty => exact ⟨s, List.mem_singleton_self s, rfl, rfl⟩
  | one cls => cases h
  | many cls => exact ⟨s, mem_stops (u := []) (by simp), rfl, rfl⟩
  | wordBoundary =>
    refine ⟨s, ?_, rfl, rfl⟩
    have hboundary : Scan.boundary s.before s.rest := h
    simp [ways, hboundary]
  | seq p q ihp ihq =>
    obtain ⟨hp, hq⟩ := (Bool.and_eq_true _ _).mp h
    obtain ⟨r, hr, hbefore, hrest⟩ := ihp hp
    rw [← hbefore, ← hrest] at hq
    obtain ⟨t, ht, hbefore', hrest'⟩ := ihq hq
    exact ⟨t, List.mem_flatMap.2 ⟨r, hr, ht⟩, hbefore'.trans hbefore, hrest'.trans hrest⟩
  | alt p q ihp ihq =>
    rcases (Bool.or_eq_true _ _).mp h with hp | hq
    · obtain ⟨t, ht, hstay⟩ := ihp hp
      exact ⟨t, List.mem_append_left _ ht, hstay⟩
    · obtain ⟨t, ht, hstay⟩ := ihq hq
      exact ⟨t, List.mem_append_right _ ht, hstay⟩
  | capture name p ih =>
    obtain ⟨t, ht, hstay⟩ := ih h
    exact ⟨s.record name t, List.mem_map_of_mem ht, hstay⟩

theorem canStop_of_firstWay_eq_none {p : Pattern γ} {s : Scan γ} (h : p.firstWay s some = none) :
    p.canStop (s.before.any isWord) (s.rest.head?.any isWord) = false := by
  rw [Bool.eq_false_iff]
  intro hstop
  obtain ⟨t, ht, -⟩ := exists_stay hstop
  rw [firstWay_eq, List.findSome?_eq_none_iff] at h
  cases h t ht

end Pattern
end VideoEdit
