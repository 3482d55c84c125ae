import VideoEdit.Proofs.Pattern.Language
import VideoEdit.Proofs.Text.CharacterClass
/-!
# Overlapping matches

What is left to read of a pattern after one character is a pattern again (its partial derivatives by
that character), and there are finitely many of these. Following two patterns side by side through
the text that their matches share decides whether they can share one without a digit.
-/
namespace VideoEdit
variable {γ : Type}

namespace Pattern

theorem isDecimalDigit_of_reads {p : Pattern γ} (hp : ∀ cls ∈ p.classes, cls.isNumeral = false)
    {before : Option Char} {u after : List Char} (h : p.Reads before u after) :
    ∀ c ∈ u, isDecimalDigit c = false := by
  intro c hc
  obtain ⟨cls, hcls, hacc⟩ := exists_class_of_reads h c hc
  rw [CharClass.isDecimalDigit_of_accepts hacc, hp cls hcls]

def followedBy : Pattern γ → Pattern γ → Pattern γ
  | empty, q => q
  | p, q => p ++ q

/-- Whether a pattern can read nothing at a place, given whether the characters on its two sides
belong to words. -/
def canStop : Pattern γ → Bool → Bool → Bool
  | never, _, _ | one _, _, _ => false
  | empty, _, _ | many _, _, _ => true
  | wordBoundary, left, right => left != right
  | seq p q, left, right => p.canStop left right && q.canStop left right
  | alt p q, left, right => p.canStop left right || q.canStop left right
  | capture _ p, left, right => p.canStop left right

/-- The classes that a pattern can read next, each with what is left to read after it. -/
def steps : Pattern γ → Bool → List (CharClass × Pattern γ)
  | never, _ | empty, _ | wordBoundary, _ => []
  | one cls, _ => [(cls, empty)]
  | many cls, _ => [(cls, many cls)]
  | seq p q, left =>
    (p.steps left).map (fun s => (s.1, s.2.followedBy q)) ++
      (q.steps left).filter fun s => p.canStop left s.1.isWordlike
  | alt p q, left => p.steps left ++ q.steps left
  | capture _ p, left => p.steps left

/-- The classes that a pattern reads anywhere, each with what is left to read after it. -/
def places : Pattern γ → List (CharClass × Pattern γ)
  | never | empty | wordBoundary => []
  | one cls => [(cls, empty)]
  | many cls => [(cls, many cls)]
  | seq p q => p.places.map (fun s => (s.1, s.2.followedBy q)) ++ q.places
  | alt p q => p.places ++ q.places
  | capture _ p => p.places

section Reading
variable {p q : Pattern γ} {before : Option Char} {after : List Char}

private theorem reads_followedBy {u v : List Char} (hp : p.Reads before u (v ++ after))
    (hq : q.Reads (lastOr before u) v after) : (p.followedBy q).Reads before (u ++ v) after := by
  unfold followedBy
  split
  · obtain rfl : u = [] := hp
    exact hq
  · exact ⟨u, v, rfl, hp, hq⟩

theorem canStop_of_reads (h : p.Reads before [] after) :
    p.canStop (before.any isWord) (after.head?.any isWord) := by
  induction p with
  | never => cases h
  | empty => rfl
  | one cls =>
    obtain ⟨c, hc, -⟩ := h
    cases hc
  | many cls => rfl
  | wordBoundary => exact h.2
  | seq p q ihp ihq =>
    obtain ⟨v, w, hvw, hp, hq⟩ := h
    obtain ⟨rfl, rfl⟩ := List.append_eq_nil_iff.1 hvw.symm
    rw [canStop, ihp hp, ihq hq, Bool.and_self]
  | alt p q ihp ihq =>
    rcases h with hp | hq
    · rw [canStop, ihp hp, Bool.true_or]
    · rw [canStop, ihq hq, Bool.or_true]
  | capture name p ih => exact ih h

theorem exists_step {c : Char} {u : List Char} (h : p.Reads before (c :: u) after) :
    ∃ s ∈ p.steps (before.any isWord), s.1.accepts c ∧ s.2.Reads (some c) u after := by
  induction p generalizing u after with
  | never => cases h
  | empty => cases h
  | one cls =>
    obtain ⟨d, hd, hc⟩ := h
    cases hd
    exact ⟨_, List.mem_singleton_self _, hc, rfl⟩
  | many cls =>
    obtain ⟨hc, hu⟩ := List.forall_mem_cons.1 h
    exact ⟨_, List.mem_singleton_self _, hc, hu⟩
  | wordBoundary =>
    obtain ⟨hu, -⟩ := h
    cases hu
  | seq p q ihp ihq =>
    obtain ⟨v, w, hvw, hp, hq⟩ := h
    cases v with
    | nil =>
      obtain rfl : c :: u = w := hvw
      obtain ⟨s, hs, hc, hr⟩ := ihq hq
      have hstop := canStop_of_reads hp
      rw [List.cons_append, List.head?_cons, Option.any_some, CharClass.isWord_of_accepts hc]
        at hstop
      exact ⟨s, List.mem_append_right _ (List.mem_filter.2 ⟨hs, hstop⟩), hc, hr⟩
    | cons d v =>
      rw [List.cons_append, List.cons.injEq] at hvw
      obtain ⟨rfl, rfl⟩ := hvw
      obtain ⟨s, hs, hc, hr⟩ := ihp hp
      rw [lastOr_cons] at hq
      exact ⟨_, List.mem_append_left _ (List.mem_map_of_mem hs), hc, reads_followedBy hr hq⟩
  | alt p q ihp ihq =>
    rcases h with hp | hq
    · obtain ⟨s, hs, hr⟩ := ihp hp
      exact ⟨s, List.mem_append_left _ hs, hr⟩
    · obtain ⟨s, hs, hr⟩ := ihq hq
      exact ⟨s, List.mem_append_right _ hs, hr⟩
  | capture name p ih => exact ih h

private theorem exists_place {c : Char} {u v : List Char} (h : p.Reads before (u ++ c :: v) after) :
    ∃ s ∈ p.places, s.1.accepts c ∧ s.2.Reads (some c) v after := by
  induction p generalizing before u v after with
  | never => cases h
  | empty =>
    have hnil : u ++ c :: v = [] := h
    simp at hnil
  | one cls =>
    obtain ⟨d, hd, hc⟩ := h
    obtain ⟨rfl, hcons⟩ | ⟨w, rfl, hcons⟩ := List.append_eq_cons_iff.1 hd
    · cases hcons
      exact ⟨_, List.mem_singleton_self _, hc, rfl⟩
    · simp at hcons
  | many cls =>
    have hall := (List.forall_mem_append.1 h).2
    obtain ⟨hc, hv⟩ := List.forall_mem_cons.1 hall
    exact ⟨_, List.mem_singleton_self _, hc, hv⟩
  | wordBoundary =>
    obtain ⟨hnil, -⟩ := h
    simp at hnil
  | seq p q ihp ihq =>
    obtain ⟨x, y, hxy, hp, hq⟩ := h
    rcases List.append_eq_append_iff.1 hxy with ⟨z, rfl, hz⟩ | ⟨z, rfl, rfl⟩
    · rcases List.cons_eq_append_iff.1 hz with ⟨rfl, rfl⟩ | ⟨z, rfl, rfl⟩
      · obtain ⟨s, hs, hr⟩ := ihq (u := []) hq
        exact ⟨s, List.mem_append_right _ hs, hr⟩
      · obtain ⟨s, hs, hc, hr⟩ := ihp hp
        rw [lastOr_append, lastOr_cons] at hq
        exact ⟨_, List.mem_append_left _ (List.mem_map_of_mem hs), hc, reads_followedBy hr hq⟩
    · obtain ⟨s, hs, hr⟩ := ihq hq
      exact ⟨s, List.mem_append_right _ hs, hr⟩
  | alt p q ihp ihq =>
    rcases h with hp | hq
    · obtain ⟨s, hs, hr⟩ := ihp hp
      exact ⟨s, List.mem_append_left _ hs, hr⟩
    · obtain ⟨s, hs, hr⟩ := ihq hq
      exact ⟨s, List.mem_append_right _ hs, hr⟩
  | capture name p ih => exact ih h

end Reading

/-- Whether a pattern can stop or read on at a place. -/
def canGo (p : Pattern γ) (left right : Bool) : Bool :=
  p.canStop left right || (p.steps left).any fun s => s.1.isWordlike == right

/-- Whether of two patterns neither can stop where the other can stop or read on. -/
def stopsApart (p q : Pattern γ) (left : Bool) : Bool :=
  [true, false].all fun right =>
    !(p.canStop left right && q.canGo left right) && !(q.canStop left right && p.canGo left right)

/-- Whether two patterns that both read on from a place share a digit. They are followed side by
side; a step that leaves both as they are need not be followed again. -/
def sharesDigit [DecidableEq γ] : Nat → Pattern γ → Pattern γ → Bool → Bool
  | 0, _, _, _ => false
  | depth + 1, p, q, left =>
    (p.steps left).all fun s => (q.steps left).all fun t =>
      !s.1.meets t.1 || s.1.isNumeral ||
        s.2.stopsApart t.2 s.1.isWordlike &&
          ((s.2, t.2, s.1.isWordlike) = (p, q, left) ||
            sharesDigit depth s.2 t.2 s.1.isWordlike)

section Sharing
variable {p q : Pattern γ} {before : Option Char} {u v u' v' : List Char}

private theorem canGo_of_reads (h : p.Reads before u v) :
    p.canGo (before.any isWord) ((u ++ v).head?.any isWord) := by
  cases u with
  | nil => rw [canGo, List.nil_append, canStop_of_reads h, Bool.true_or]
  | cons c u =>
    obtain ⟨s, hs, hc, -⟩ := exists_step h
    rw [canGo, Bool.or_eq_true, List.any_eq_true]
    refine Or.inr ⟨s, hs, ?_⟩
    rw [List.cons_append, List.head?_cons, Option.any_some, CharClass.isWord_of_accepts hc,
      beq_self_eq_true]

private theorem ne_nil_of_stopsApart (h : p.stopsApart q (before.any isWord))
    (hp : p.Reads before u v)
    (hq : q.Reads before u' v') (htext : u ++ v = u' ++ v') : u ≠ [] ∧ u' ≠ [] := by
  have hgo := canGo_of_reads hp
  have hgo' := canGo_of_reads hq
  have happly : ∀ right,
      (p.canStop (before.any isWord) right && q.canGo (before.any isWord) right) = false ∧
      (q.canStop (before.any isWord) right && p.canGo (before.any isWord) right) = false := by
    intro right
    have hright := List.all_eq_true.1 h right (by cases right <;> simp)
    simpa only [Bool.and_eq_true, Bool.not_eq_true'] using hright
  constructor
  · rintro rfl
    have hstop := canStop_of_reads hp
    rw [← htext, List.nil_append] at hgo'
    have hfalse := (happly (v.head?.any isWord)).1
    rw [hstop, hgo'] at hfalse
    cases hfalse
  · rintro rfl
    have hstop := canStop_of_reads hq
    rw [htext, List.nil_append] at hgo
    have hfalse := (happly (v'.head?.any isWord)).2
    rw [hstop, hgo] at hfalse
    cases hfalse

private theorem exists_digit_of_sharesDigit [DecidableEq γ] {depth : Nat}
    (h : p.sharesDigit depth q (before.any isWord)) (hp : p.Reads before u v)
    (hq : q.Reads before u' v') (htext : u ++ v = u' ++ v') (hu : u ≠ []) (hu' : u' ≠ []) :
    ∃ front d rest rest', u = front ++ d :: rest ∧ u' = front ++ d :: rest' ∧
      isDecimalDigit d := by
  induction depth generalizing p q before u u' with
  | zero => cases h
  | succ depth ih =>
    -- Within one depth the text gets shorter, as long as the patterns stay as they are.
    induction u generalizing before u' with
    | nil => contradiction
    | cons c u ihu =>
      obtain _ | ⟨d, u'⟩ := u'
      · contradiction
      obtain ⟨rfl, hrest⟩ := List.cons.inj htext
      obtain ⟨s, hs, hc, hr⟩ := exists_step hp
      obtain ⟨t, ht, hc', hr'⟩ := exists_step hq
      have hcheck := List.all_eq_true.1 (List.all_eq_true.1 h s hs) t ht
      rw [CharClass.meets_of_accepts hc hc', ← CharClass.isDecimalDigit_of_accepts hc,
        ← CharClass.isWord_of_accepts hc] at hcheck
      cases hd : isDecimalDigit c with
      | true => exact ⟨[], c, u, u', rfl, rfl, hd⟩
      | false =>
        simp only [hd, Bool.not_true, Bool.false_or, Bool.and_eq_true, Bool.or_eq_true,
          decide_eq_true_eq, Prod.mk.injEq] at hcheck
        obtain ⟨hstops, hnext⟩ := hcheck
        obtain ⟨hne, hne'⟩ := ne_nil_of_stopsApart hstops hr hr' hrest
        have hshare : ∃ front d rest rest', u = front ++ d :: rest ∧ u' = front ++ d :: rest' ∧
            isDecimalDigit d := by
          rcases hnext with ⟨rfl, rfl, hleft⟩ | hnext
          · exact ihu (by rw [Option.any_some, hleft]; exact h) hr hr' hrest hne hne'
          · exact ih hnext hr hr' hrest hne hne'
        obtain ⟨front, d, rest, rest', rfl, rfl, hdigit⟩ := hshare
        exact ⟨c :: front, d, rest, rest', rfl, rfl, hdigit⟩

end Sharing

/-- Whether two patterns share a digit wherever a match of the second one begins at or within a
match of the first. The second one has to begin where a word does. -/
def overlapsAtDigit [DecidableEq γ] (p q : Pattern γ) : Bool :=
  (q.steps true).isEmpty && p.sharesDigit 12 q false &&
    p.places.all fun s => s.1.isWordlike || s.2.sharesDigit 12 q false

section Overlap
variable [DecidableEq γ] {p q : Pattern γ}

private theorem exists_digit_of_overlapsAtDigit (h : p.overlapsAtDigit q) {before : Option Char}
    {x y u after after' : List Char} (hp : p.Reads before (x ++ y) after)
    (hq : q.Reads (lastOr before x) u after') (htext : y ++ after = u ++ after') (hy : y ≠ [])
    (hu : u ≠ []) :
    ∃ front d rest rest', y = front ++ d :: rest ∧ u = front ++ d :: rest' ∧ isDecimalDigit d := by
  simp only [overlapsAtDigit, Bool.and_eq_true, List.isEmpty_iff] at h
  obtain ⟨⟨hbegin, hstart⟩, hwithin⟩ := h
  -- The second pattern can begin only where a word does, so no word stands in front of it.
  have hleft : (lastOr before x).any isWord = false := by
    obtain ⟨c, u, rfl⟩ := List.exists_cons_of_ne_nil hu
    obtain ⟨s, hs, -⟩ := exists_step hq
    cases hword : (lastOr before x).any isWord with
    | false => rfl
    | true =>
      rw [hword, hbegin] at hs
      cases hs
  rcases List.eq_nil_or_concat' x with rfl | ⟨x, c, rfl⟩
  · rw [← hleft] at hstart
    exact exists_digit_of_sharesDigit hstart hp hq htext hy hu
  · rw [List.append_assoc] at hp
    rw [lastOr_append, lastOr_cons, lastOr_nil] at hq hleft
    obtain ⟨s, hs, hc, hr⟩ := exists_place hp
    have hshare := List.all_eq_true.1 hwithin s hs
    rw [← CharClass.isWord_of_accepts hc] at hshare
    rw [Option.any_some] at hleft
    rw [hleft, Bool.false_or, ← hleft] at hshare
    exact exists_digit_of_sharesDigit hshare hr hq htext hy hu

/-- Matches that overlap have a digit in common. -/
theorem Occurs.exists_digit {text front u back front' u' back' : List Char} {m n : Match γ}
    (hm : p.Occurs text m front u back) (hn : q.Occurs text n front' u' back')
    (h : p.overlapsAtDigit q) (hle : m.start ≤ n.start) (hlt : n.start < m.stop)
    (hpos : n.start < n.stop) :
    ∃ before d after, text = before ++ d :: after ∧ isDecimalDigit d ∧
      n.start ≤ utf8Length before ∧ utf8Length before < m.stop ∧ utf8Length before < n.stop := by
  obtain ⟨hsplit', hstart', hstop', hq⟩ := hn
  have hu' : u' ≠ [] := by
    rintro rfl
    simp only [utf8Length_nil] at hstop'
    omega
  rw [hstart'] at hle hlt
  rw [List.append_assoc] at hsplit'
  obtain ⟨x, y, rfl, rfl, hy, hne⟩ := hm.exists_split hsplit' hle hlt
  have hlast : (front ++ x).getLast? = lastOr front.getLast? x := by
    rw [List.getLast?_append, lastOr]
  rw [hlast] at hq
  obtain ⟨f, d, rest, rest', rfl, rfl, hd⟩ :=
    exists_digit_of_overlapsAtDigit h hm.reads hq hy.symm hne hu'
  have hsize := d.utf8Size_pos
  have hstop := hm.stop
  refine ⟨front ++ x ++ f, d, rest ++ back, ?_, hd, ?_, ?_, ?_⟩
  · rw [hm.split]
    simp only [List.append_assoc, List.cons_append]
  all_goals
    simp only [utf8Length_append, utf8Length_cons] at *
    omega

end Overlap
end Pattern
end VideoEdit
