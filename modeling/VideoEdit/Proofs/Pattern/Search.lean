import Mathlib.Tactic.SplitIfs
import VideoEdit.Proofs.Pattern.Simulation
/-!
# Matches in a text

The matches of a search lie in the text one behind another. A text that goes on with something no
class of the pattern reads is searched as two texts: nothing matches across the break, and on both
sides the same is found as without the other.
-/
namespace VideoEdit
variable {γ : Type}

@[simp] theorem utf8Length_nil : utf8Length [] = 0 := rfl

@[simp] theorem utf8Length_cons (c : Char) (text : List Char) :
    utf8Length (c :: text) = c.utf8Size + utf8Length text := rfl

@[simp] theorem utf8Length_append (a b : List Char) :
    utf8Length (a ++ b) = utf8Length a + utf8Length b := by
  induction a with
  | nil => simp
  | cons c a ih => simp [ih, Nat.add_assoc]

private theorem utf8Length_take_add_drop (n : Nat) (text : List Char) :
    utf8Length (text.take n) + utf8Length (text.drop n) = utf8Length text := by
  rw [← utf8Length_append, List.take_append_drop]

theorem utf8Length_toList (text : String) : utf8Length text.toList = text.utf8ByteSize := by
  induction text using String.push_induction with
  | empty => rfl
  | push text c ih => simp [ih]

theorem utf8Length_pos {text : List Char} (h : text ≠ []) : 0 < utf8Length text := by
  cases text with
  | nil => contradiction
  | cons c text => exact Nat.lt_of_lt_of_le c.utf8Size_pos (Nat.le_add_right _ _)

def Match.shift (bytes : Nat) (m : Match γ) : Match γ :=
  ⟨m.start + bytes, m.stop + bytes, m.captured⟩

namespace Pattern
variable (p : Pattern γ)

theorem matchAt_bounds {offset : Nat} {before : Option Char} {rest : List Char} {taken : Nat}
    {m : Match γ} (h : p.matchAt offset before rest = some (taken, m)) :
    0 < taken ∧ taken ≤ rest.length ∧ m.start = offset ∧
      m.stop = offset + utf8Length (rest.take taken) := by
  obtain ⟨there, _, hm⟩ := Option.bind_eq_some_iff.1 h
  by_cases ht : rest.length - there.rest.length = 0
  · simp [ht] at hm
  · simp only [ht, if_false, Option.some.injEq, Prod.mk.injEq] at hm
    obtain ⟨rfl, rfl⟩ := hm
    exact ⟨Nat.pos_of_ne_zero ht, Nat.sub_le _ _, rfl, rfl⟩

private theorem matchAt_add (offset bytes : Nat) (before : Option Char) (rest : List Char) :
    p.matchAt (offset + bytes) before rest =
      (p.matchAt offset before rest).map fun found => (found.1, found.2.shift bytes) := by
  unfold matchAt
  dsimp only
  cases p.first? ⟨before, rest, []⟩ with
  | none => rfl
  | some there =>
    simp only [Option.bind_some]
    by_cases ht : rest.length - there.rest.length = 0
    · simp [ht]
    · simp [ht, Match.shift]
      omega

private theorem searchFrom_add (skip offset bytes : Nat) (before : Option Char) (rest : List Char) :
    p.searchFrom skip (offset + bytes) before rest =
      (p.searchFrom skip offset before rest).map (Match.shift bytes) := by
  induction rest generalizing skip offset before with
  | nil => cases skip <;> rfl
  | cons c rest ih =>
    have hstep : offset + bytes + c.utf8Size = offset + c.utf8Size + bytes := by omega
    cases skip with
    | succ skip => rw [searchFrom, searchFrom, hstep, ih]
    | zero =>
      rw [searchFrom, searchFrom, matchAt_add]
      cases p.matchAt offset before (c :: rest) with
      | none =>
        dsimp only [Option.map_none]
        rw [hstep, ih]
      | some found =>
        dsimp only [Option.map_some]
        rw [hstep, ih, List.map_cons]

theorem searchFrom_bounds {skip offset : Nat} {before : Option Char} {rest : List Char}
    {m : Match γ} (h : m ∈ p.searchFrom skip offset before rest) :
    offset + utf8Length (rest.take skip) ≤ m.start ∧ m.start < m.stop ∧
      m.stop ≤ offset + utf8Length rest := by
  induction rest generalizing skip offset before with
  | nil => cases skip <;> cases h
  | cons c rest ih =>
    cases skip with
    | succ skip =>
      rw [searchFrom] at h
      have hi := ih h
      simp only [List.take_succ_cons, utf8Length_cons]
      omega
    | zero =>
      rw [searchFrom] at h
      cases hm : p.matchAt offset before (c :: rest) with
      | none =>
        rw [hm] at h
        have hi := ih h
        simp only [List.take_zero, utf8Length_nil, utf8Length_cons] at hi ⊢
        omega
      | some found =>
        obtain ⟨taken, first⟩ := found
        rw [hm] at h
        rcases List.mem_cons.1 h with rfl | h
        · obtain ⟨hpos, hle, hstart, hstop⟩ := p.matchAt_bounds hm
          have htaken : (c :: rest).take taken ≠ [] := by
            simp
            omega
          have hlen := utf8Length_pos htaken
          have hsplit := utf8Length_take_add_drop taken (c :: rest)
          simp only [List.take_zero, utf8Length_nil]
          omega
        · have hi := ih h
          simp only [List.take_zero, utf8Length_nil, utf8Length_cons] at hi ⊢
          omega

private theorem searchFrom_ordered (skip offset : Nat) (before : Option Char) (rest : List Char) :
    (p.searchFrom skip offset before rest).Pairwise fun m n => m.stop ≤ n.start := by
  induction rest generalizing skip offset before with
  | nil => cases skip <;> exact .nil
  | cons c rest ih =>
    cases skip with
    | succ skip =>
      rw [searchFrom]
      exact ih _ _ _
    | zero =>
      rw [searchFrom]
      cases hm : p.matchAt offset before (c :: rest) with
      | none => exact ih _ _ _
      | some found =>
        obtain ⟨taken, first⟩ := found
        refine .cons ?_ (ih _ _ _)
        intro m hmem
        obtain ⟨hpos, _, _, hstop⟩ := p.matchAt_bounds hm
        have hbounds := p.searchFrom_bounds hmem
        obtain ⟨taken, rfl⟩ : ∃ n, taken = n + 1 := ⟨taken - 1, by omega⟩
        simp only [List.take_succ_cons, utf8Length_cons, Nat.add_sub_cancel] at hstop hbounds
        omega

theorem search_bounds {text : List Char} {m : Match γ} (h : m ∈ p.search text) :
    m.start < m.stop ∧ m.stop ≤ utf8Length text := by
  have hb := p.searchFrom_bounds h
  omega

theorem search_ordered (text : List Char) :
    (p.search text).Pairwise fun m n => m.stop ≤ n.start :=
  p.searchFrom_ordered 0 0 none text

end Pattern

def Match.mapTexts (change : List Char → List Char) (m : Match γ) : Match γ :=
  { m with captured := m.captured.map fun (name, text) => (name, change text) }

private theorem Match.mapTexts_id (m : Match γ) : m.mapTexts id = m := by
  simp [mapTexts]

theorem Match.text?_mapTexts [DecidableEq γ] (change : List Char → List Char)
    (m : Match γ) (name : γ) : (m.mapTexts change).text? name = (m.text? name).map change := by
  unfold mapTexts text?
  dsimp only
  induction m.captured with
  | nil => rfl
  | cons part parts ih =>
    rw [List.map_cons, List.lookup_cons, List.lookup_cons]
    cases name == part.1
    · exact ih
    · rfl

/-- Related texts between whose places as many characters lie, those of the second text being what
a change of as many bytes makes of those of the first. -/
structure Transports (R : List Char → List Char → Prop) (change : List Char → List Char) :
    Prop where
  length : ∀ {u v u' v'}, R u v → R u' v' → v.length - v'.length = u.length - u'.length
  take : ∀ {u v n}, R u v → n ≤ u.length → v.take n = change (u.take n)
  bytes : ∀ text, utf8Length (change text) = utf8Length text

section Related
variable {R : List Char → List Char → Prop} {change : List Char → List Char}

private theorem texts_of_related (h : Transports R change) {a b : List (γ × Span)}
    (hab : List.Forall₂ (Span.Related R) a b) :
    b.map (fun (name, span) => (name, span.text)) =
      (a.map fun (name, span) => (name, span.text)).map
        fun (name, text) => (name, change text) := by
  induction hab with
  | nil => rfl
  | @cons x y xs ys hxy _ ih =>
    obtain ⟨hname, hstart, hstop⟩ := hxy
    have htext : y.2.text = change x.2.text := by
      rw [Span.text, Span.text, h.length hstart hstop, h.take hstart (Nat.sub_le _ _)]
    simp only [List.map_cons, ih, ← hname, htext]

/-- At related places a pattern has the same match, of what the change makes of its text. -/
theorem Pattern.matchAt_related (p : Pattern γ) (h : Simulates p.classes R)
    (hchange : Transports R change) (offset : Nat) {before before' : Option Char}
    (hb : before.any isWord = before'.any isWord) {rest rest' : List Char} (hrest : R rest rest') :
    p.matchAt offset before' rest' =
      (p.matchAt offset before rest).map fun found => (found.1, found.2.mapTexts change) := by
  have hfirst := p.first?_related h (s := ⟨before, rest, []⟩) (t := ⟨before', rest', []⟩)
    ⟨hb, hrest, .nil⟩
  unfold matchAt
  dsimp only
  generalize p.first? ⟨before, rest, []⟩ = a, p.first? ⟨before', rest', []⟩ = b at hfirst
  cases hfirst with
  | none => rfl
  | @some s t hst =>
    simp only [Option.bind_some, hchange.length hrest hst.rest,
      texts_of_related hchange hst.captured, hchange.take hrest (Nat.sub_le _ _), hchange.bytes]
    split_ifs <;> rfl

end Related

/-- A text that none of the classes reads and that does not begin within a word. -/
structure ClosedTo (classes : List CharClass) (tail : List Char) : Prop where
  word : tail.head?.any isWord = false
  read : ∀ cls ∈ classes, cls.read? tail = none

theorem ClosedTo.nil (classes : List CharClass) : ClosedTo classes [] := ⟨rfl, fun _ _ => rfl⟩

theorem ClosedTo.cons {classes : List CharClass} {c : Char} (hw : isWord c = false)
    (hc : ∀ cls ∈ classes, cls.accepts c = false) (tail : List Char) :
    ClosedTo classes (c :: tail) :=
  ⟨by simpa using hw, fun cls hm => by simp [CharClass.read?, hc cls hm]⟩

private theorem ClosedTo.simulates {classes : List CharClass} {tail : List Char}
    (h : ClosedTo classes tail) : Simulates classes fun u v => v = u ++ tail where
  word := by
    rintro u v rfl
    cases u with
    | nil => simp [h.word]
    | cons x u => simp
  read := by
    rintro u v rfl cls hc
    cases u with
    | nil =>
      rw [List.nil_append, h.read cls hc]
      exact .none
    | cons x u =>
      by_cases hx : cls.accepts x
      · simp only [CharClass.read?, List.cons_append, hx, if_true]
        exact .some rfl
      · simp only [CharClass.read?, List.cons_append, hx]
        exact .none

private theorem transports_append (tail : List Char) :
    Transports (fun u v => v = u ++ tail) id where
  length := by
    rintro u _ u' _ rfl rfl
    simp only [List.length_append]
    omega
  take := by
    rintro u _ n rfl hn
    exact List.take_append_of_le_length hn
  bytes _ := rfl

namespace Pattern
variable (p : Pattern γ) {tail : List Char}

private theorem matchAt_append (h : ClosedTo p.classes tail) (offset : Nat)
    {before before' : Option Char}
    (hb : before.any isWord = before'.any isWord) (rest : List Char) :
    p.matchAt offset before' (rest ++ tail) = p.matchAt offset before rest := by
  rw [p.matchAt_related h.simulates (transports_append tail) offset hb rfl]
  simp only [Match.mapTexts_id]
  exact congrFun Option.map_id_fun' _

private theorem searchFrom_before (skip offset : Nat) {before before' : Option Char}
    (hb : before.any isWord = before'.any isWord) (rest : List Char) :
    p.searchFrom skip offset before' rest = p.searchFrom skip offset before rest := by
  cases rest with
  | nil => cases skip <;> rfl
  | cons c rest =>
    cases skip with
    | succ skip => rfl
    | zero =>
      have hm := p.matchAt_append (ClosedTo.nil _) offset hb (c :: rest)
      rw [List.append_nil] at hm
      rw [searchFrom, searchFrom, hm]

variable {c : Char} (hw : isWord c = false) (hc : ∀ cls ∈ p.classes, cls.accepts c = false)
include hw hc

/-- A character that no class reads divides a search in two. -/
theorem searchFrom_append (a b : List Char) {skip : Nat} (hs : skip ≤ a.length) (offset : Nat)
    (before : Option Char) :
    p.searchFrom skip offset before (a ++ c :: b) =
      p.searchFrom skip offset before a ++
        (p.search b).map (Match.shift (offset + utf8Length a + c.utf8Size)) := by
  have htail : ClosedTo p.classes (c :: b) := ClosedTo.cons hw hc b
  induction a generalizing skip offset before with
  | nil =>
    obtain rfl : skip = 0 := by simpa using hs
    have hnone : p.matchAt offset before (c :: b) = none := by
      cases hm : p.matchAt offset before (c :: b) with
      | none => rfl
      | some found =>
        have happ := p.matchAt_append htail offset (rfl : before.any isWord = _) []
        rw [List.nil_append, hm] at happ
        have hb := p.matchAt_bounds happ.symm
        simp only [List.length_nil] at hb
        omega
    have hword : (none : Option Char).any isWord = (some c).any isWord := by simp [hw]
    have hstep : p.searchFrom 0 offset before (c :: b) =
        p.searchFrom 0 (offset + c.utf8Size) (some c) b := by
      rw [searchFrom, hnone]
    have hsearch := p.searchFrom_add 0 0 (offset + c.utf8Size) none b
    rw [Nat.zero_add] at hsearch
    rw [List.nil_append, hstep, p.searchFrom_before 0 _ hword, hsearch]
    rfl
  | cons x a ih =>
    rw [utf8Length_cons, ← Nat.add_assoc]
    cases skip with
    | succ skip => exact ih (by simpa using hs) _ _
    | zero =>
      rw [List.cons_append, searchFrom, searchFrom, ← List.cons_append,
        p.matchAt_append htail offset rfl (x :: a)]
      cases hm : p.matchAt offset before (x :: a) with
      | none => exact ih (Nat.zero_le _) _ _
      | some found =>
        obtain ⟨taken, first⟩ := found
        have hle := (p.matchAt_bounds hm).2.1
        rw [List.length_cons] at hle
        dsimp only
        rw [ih (by omega), List.cons_append]

theorem search_append (a b : List Char) :
    p.search (a ++ c :: b) =
      p.search a ++ (p.search b).map (Match.shift (utf8Length a + c.utf8Size)) := by
  have h := p.searchFrom_append hw hc a b (Nat.zero_le _) 0 none
  rwa [Nat.zero_add] at h

end Pattern
end VideoEdit
