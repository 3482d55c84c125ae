import Mathlib.Data.List.Forall2
import VideoEdit.Pattern.Search
/-!
# Patterns on related texts

A relation between texts simulates a pattern when every character class of the pattern reads the
same on related texts. From related places the ways to match are then related one by one, in the
same order of preference, and so are the parts captured on the way.
-/
namespace VideoEdit
variable {γ : Type} {R : List Char → List Char → Prop}

def CharClass.read? (cls : CharClass) : List Char → Option (Char × List Char)
  | [] => none
  | x :: rest => if cls.accepts x then some (x, rest) else none

private theorem CharClass.read?_eq_some {cls : CharClass} {u : List Char} {a : Char × List Char}
    (h : cls.read? u = some a) : u = a.1 :: a.2 ∧ cls.accepts a.1 := by
  cases u with
  | nil => cases h
  | cons x u =>
    by_cases hx : cls.accepts x
    · simp only [read?, hx, if_true, Option.some.injEq] at h
      subst h
      exact ⟨rfl, hx⟩
    · simp [read?, hx] at h

private theorem CharClass.not_accepts_of_read? {cls : CharClass} {x : Char} {u : List Char}
    (h : cls.read? (x :: u) = none) : ¬cls.accepts x := by
  intro hx
  simp [read?, hx] at h

def Pattern.classes : Pattern γ → List CharClass
  | never | empty | wordBoundary => []
  | one cls | many cls => [cls]
  | seq p q | alt p q => p.classes ++ q.classes
  | capture _ p => p.classes

/-- Related texts begin alike: with word characters or not, and with the same of some classes,
after which the texts are related again. -/
structure Simulates (classes : List CharClass) (R : List Char → List Char → Prop) : Prop where
  word : ∀ {u v}, R u v → u.head?.any isWord = v.head?.any isWord
  read : ∀ {u v}, R u v → ∀ cls ∈ classes,
    Option.Rel (fun a b => R a.2 b.2) (cls.read? u) (cls.read? v)

private theorem Simulates.mono {classes classes' : List CharClass} (h : Simulates classes R)
    (hs : ∀ cls ∈ classes', cls ∈ classes) : Simulates classes' R :=
  ⟨h.word, fun hR cls hc => h.read hR cls (hs cls hc)⟩

/-- Parts of the same name whose texts, from the start on and from the stop on, are related. -/
def Span.Related (R : List Char → List Char → Prop) (a b : γ × Span) : Prop :=
  a.1 = b.1 ∧ R a.2.start b.2.start ∧ R a.2.stop b.2.stop

/-- Places with the same kind of character before them, related texts behind them and related
parts captured. -/
structure Scan.Related (R : List Char → List Char → Prop) (s t : Scan γ) : Prop where
  word : s.before.any isWord = t.before.any isWord
  rest : R s.rest t.rest
  captured : List.Forall₂ (Span.Related R) s.captured t.captured

private theorem Simulates.read_cases {classes : List CharClass} (h : Simulates classes R)
    {u v : List Char} (hR : R u v) {cls : CharClass} (hc : cls ∈ classes) :
    (cls.read? u = none ∧ cls.read? v = none) ∨
      ∃ x u' y v', u = x :: u' ∧ v = y :: v' ∧ cls.accepts x ∧ cls.accepts y ∧
        isWord x = isWord y ∧ R u' v' := by
  have hread := h.read hR cls hc
  have hword := h.word hR
  cases hu : cls.read? u with
  | none =>
    cases hv : cls.read? v with
    | none => exact Or.inl ⟨rfl, rfl⟩
    | some b =>
      rw [hu, hv] at hread
      cases hread
  | some a =>
    cases hv : cls.read? v with
    | none =>
      rw [hu, hv] at hread
      cases hread
    | some b =>
      rw [hu, hv] at hread
      obtain ⟨rfl, hx⟩ := CharClass.read?_eq_some hu
      obtain ⟨rfl, hy⟩ := CharClass.read?_eq_some hv
      cases hread with
      | some hr => exact Or.inr ⟨a.1, a.2, b.1, b.2, rfl, rfl, hx, hy, by simpa using hword, hr⟩

private theorem stops_of_read? {cls : CharClass} {captured : List (γ × Span)} {u : List Char}
    (h : cls.read? u = none) (before : Option Char) :
    Pattern.stops cls captured before u = [⟨before, u, captured⟩] := by
  cases u with
  | nil => rfl
  | cons x u => simp [Pattern.stops, CharClass.not_accepts_of_read? h]

private theorem stops_related {cls : CharClass} (h : Simulates [cls] R)
    {captured captured' : List (γ × Span)} (hcap : List.Forall₂ (Span.Related R) captured captured')
    {u v : List Char} (hR : R u v) {before before' : Option Char}
    (hb : before.any isWord = before'.any isWord) :
    List.Forall₂ (Scan.Related R) (Pattern.stops cls captured before u)
      (Pattern.stops cls captured' before' v) := by
  have halt {u v : List Char} (hR : R u v) {before before' : Option Char}
      (hb : before.any isWord = before'.any isWord) (hu : cls.read? u = none)
      (hv : cls.read? v = none) :
      List.Forall₂ (Scan.Related R) (Pattern.stops cls captured before u)
        (Pattern.stops cls captured' before' v) := by
    rw [stops_of_read? hu, stops_of_read? hv]
    exact .cons ⟨hb, hR, hcap⟩ .nil
  induction u generalizing v before before' with
  | nil =>
    rcases h.read_cases hR (List.mem_singleton_self cls) with ⟨hu, hv⟩ | ⟨x, u', y, v', hu, _⟩
    · exact halt hR hb hu hv
    · cases hu
  | cons x u ih =>
    rcases h.read_cases hR (List.mem_singleton_self cls) with
      ⟨hu, hv⟩ | ⟨x', u', y, v', hu, rfl, hx, hy, hw, hr⟩
    · exact halt hR hb hu hv
    · cases hu
      simp only [Pattern.stops, hx, hy, if_true]
      exact List.rel_append (ih hr (by simpa using hw)) (.cons ⟨hb, hR, hcap⟩ .nil)

private theorem Pattern.ways_related (p : Pattern γ) (h : Simulates p.classes R) {s t : Scan γ}
    (hst : s.Related R t) : List.Forall₂ (Scan.Related R) (p.ways s) (p.ways t) := by
  induction p generalizing s t with
  | never => exact .nil
  | empty => exact .cons hst .nil
  | one cls =>
    rcases h.read_cases hst.rest (List.mem_singleton_self cls) with
      ⟨hs, ht⟩ | ⟨x, u, y, v, hs, ht, hx, hy, hw, hr⟩
    · have hnone {r : Scan γ} (hread : cls.read? r.rest = none) : (one cls).ways r = [] := by
        unfold ways
        cases hr : r.rest with
        | nil => rfl
        | cons x rest =>
          rw [hr] at hread
          simp [CharClass.not_accepts_of_read? hread]
      rw [hnone hs, hnone ht]
      exact .nil
    · simp only [ways, hs, ht, hx, hy, if_true]
      exact .cons ⟨by simpa using hw, hr, hst.captured⟩ .nil
  | many cls => exact stops_related h hst.captured hst.rest hst.word
  | wordBoundary =>
    have hb : Scan.boundary s.before s.rest = Scan.boundary t.before t.rest := by
      rw [Scan.boundary, Scan.boundary, hst.word, h.word hst.rest]
    simp only [ways, hb]
    by_cases ht : Scan.boundary t.before t.rest
    · simp only [ht, if_true]
      exact .cons hst .nil
    · simp only [ht]
      exact .nil
  | seq p q ihp ihq =>
    have hp : Simulates p.classes R := h.mono fun cls hc => List.mem_append_left _ hc
    have hq : Simulates q.classes R := h.mono fun cls hc => List.mem_append_right _ hc
    exact List.rel_flatMap (ihp hp hst) fun _ _ hr => ihq hq hr
  | alt p q ihp ihq =>
    have hp : Simulates p.classes R := h.mono fun cls hc => List.mem_append_left _ hc
    have hq : Simulates q.classes R := h.mono fun cls hc => List.mem_append_right _ hc
    exact List.rel_append (ihp hp hst) (ihq hq hst)
  | capture name p ih =>
    refine List.rel_map ?_ (ih h hst)
    intro s' t' hr
    exact ⟨hr.word, hr.rest, .cons ⟨rfl, hst.rest, hr.rest⟩ hr.captured⟩

/-- The most preferred ways from related places lead to related places. -/
theorem Pattern.first?_related (p : Pattern γ) (h : Simulates p.classes R) {s t : Scan γ}
    (hst : s.Related R t) : Option.Rel (Scan.Related R) (p.first? s) (p.first? t) := by
  rw [first?_eq_head?, first?_eq_head?]
  generalize p.ways s = xs, p.ways t = ys, p.ways_related h hst = hr
  cases hr with
  | nil => exact .none
  | cons hr _ => exact .some hr

end VideoEdit
