import VideoEdit.Proofs.Pattern.Language
import VideoEdit.Proofs.Text.LetterCase
/-!
# Words as patterns

A word reads the texts that spell it up to letter case. Two letters beyond ASCII are spellings of
ASCII ones, and lowering leaves them alone: a text lowered is a word exactly if it spells the word
without them. A pattern that needs a letter which a text does not have finds nothing in it.
-/
namespace VideoEdit

/-- Whether a text is a word up to letter case. -/
def Spells (text : List Char) (word : String) : Prop := text.map foldCase = word.toList

instance (text : List Char) (word : String) : Decidable (Spells text word) :=
  inferInstanceAs (Decidable (_ = _))

theorem Spells.not_mem {text : List Char} {word : String} (h : Spells text word) {c : Char}
    (hc : foldCase c ∉ word.toList) : c ∉ text := by
  intro hmem
  apply hc
  rw [← h]
  exact List.mem_map_of_mem hmem

theorem Spells.length_eq {text : List Char} {word : String} (h : Spells text word) :
    text.length = word.toList.length := by
  rw [← h, List.length_map]

theorem Spells.append {u v : List Char} {a b : String} (hu : Spells u a) (hv : Spells v b) :
    Spells (u ++ v) (a ++ b) := by
  unfold Spells at *
  rw [List.map_append, hu, hv, String.toList_append]

theorem Spells.isWord {text : List Char} {word : String} (h : Spells text word)
    (hword : word.toList.all VideoEdit.isWord) : ∀ c ∈ text, VideoEdit.isWord c := by
  intro c hc
  rw [← isWord_foldCase]
  apply List.all_eq_true.1 hword
  rw [← h]
  exact List.mem_map_of_mem hc

section Boundaries
variable {before : Option Char} {word after : List Char} (hne : word ≠ [])
  (hword : ∀ c ∈ word, isWord c)
include hne hword

theorem boundary_before_word : Scan.boundary before (word ++ after) = !before.any isWord := by
  obtain ⟨c, word, rfl⟩ := List.exists_cons_of_ne_nil hne
  have hc : isWord c := hword c List.mem_cons_self
  rw [Scan.boundary, List.cons_append, List.head?_cons, Option.any_some, hc, Bool.bne_true]

theorem boundary_after_word :
    Scan.boundary (lastOr before word) after = !after.head?.any isWord := by
  have hlast : isWord (word.getLast hne) := hword _ (List.getLast_mem hne)
  rw [Scan.boundary, lastOr, List.getLast?_eq_some_getLast hne, Option.some_or, Option.any_some,
    hlast, Bool.true_bne]

end Boundaries

theorem eq_of_foldCase {c d : Char} (h : foldCase c = d) (hd : d.isAlpha = false) : c = d := by
  rcases foldCase_eq_or_mem c with hsame | hmem
  · rw [← hsame, h]
  · have halpha : foldedChars.all fun c => (foldCase c).isAlpha := by decide
    rw [← h, List.all_eq_true.1 halpha c hmem] at hd
    cases hd

theorem Spells.eq_of_not_isAlpha {text : List Char} {word : String} (h : Spells text word)
    (hword : word.toList.all fun c => c.isAlpha = false) : text = word.toList := by
  have hsame : ∀ c ∈ text, foldCase c = id c := by
    intro c hc
    have hfold : foldCase c ∈ word.toList := by
      rw [← h]
      exact List.mem_map_of_mem hc
    exact (eq_of_foldCase rfl (List.all_iff_forall_prop.1 hword _ hfold)).symm
  rw [← h, List.map_congr_left hsame, List.map_id]

namespace Pattern
variable {γ : Type} {before : Option Char} {u after : List Char}

theorem reads_word {text : String} :
    (word text : Pattern γ).Reads before u after ↔ Spells u text := by
  unfold word Spells
  induction text.toList generalizing before u with
  | nil =>
    rw [List.map_eq_nil_iff]
    rfl
  | cons c rest ih =>
    rw [List.foldr_cons, List.map_eq_cons_iff]
    constructor
    · rintro ⟨v, w, rfl, ⟨d, rfl, hd⟩, hw⟩
      exact ⟨d, w, rfl, beq_iff_eq.1 hd, ih.1 hw⟩
    · rintro ⟨d, w, rfl, hd, hw⟩
      exact ⟨[d], w, rfl, ⟨d, rfl, beq_iff_eq.2 hd⟩, ih.2 hw⟩

private theorem reads_choice {patterns : List (Pattern γ)} :
    (choice patterns).Reads before u after ↔ ∃ p ∈ patterns, p.Reads before u after := by
  unfold choice
  induction patterns with
  | nil => simp [Reads]
  | cons p patterns ih =>
    simp only [List.foldr_cons, List.mem_cons, exists_eq_or_imp, ← ih]
    rfl

theorem reads_oneOf {texts : List String} :
    (oneOf texts : Pattern γ).Reads before u after ↔ ∃ text ∈ texts, Spells u text := by
  simp [oneOf, reads_choice, reads_word]

theorem reads_oneOrMore {cls : CharClass} :
    (oneOrMore cls : Pattern γ).Reads before u after ↔ u ≠ [] ∧ ∀ c ∈ u, cls.accepts c := by
  constructor
  · rintro ⟨_, rest, rfl, ⟨c, rfl, hc⟩, hrest⟩
    exact ⟨List.cons_ne_nil c rest, List.forall_mem_cons.2 ⟨hc, hrest⟩⟩
  · rintro ⟨hne, hu⟩
    obtain ⟨c, rest, rfl⟩ := List.exists_cons_of_ne_nil hne
    obtain ⟨hc, hrest⟩ := List.forall_mem_cons.1 hu
    exact ⟨[c], rest, rfl, ⟨c, rfl, hc⟩, hrest⟩

/-- Whether a pattern can read anything made of some characters, wherever it stands. -/
def spellable (alphabet : List Char) : Pattern γ → Bool
  | never => false
  | empty | many _ | wordBoundary => true
  | one cls => alphabet.any cls.accepts
  | seq p q => p.spellable alphabet && q.spellable alphabet
  | alt p q => p.spellable alphabet || q.spellable alphabet
  | capture _ p => p.spellable alphabet

private theorem spellable_of_reads {alphabet : List Char} {p : Pattern γ}
    (h : p.Reads before u after) (hu : ∀ c ∈ u, c ∈ alphabet) : p.spellable alphabet := by
  induction p generalizing before u after with
  | never => cases h
  | empty => rfl
  | one cls =>
    obtain ⟨c, rfl, hc⟩ := h
    exact List.any_eq_true.2 ⟨c, hu c (List.mem_singleton_self c), hc⟩
  | many cls => rfl
  | wordBoundary => rfl
  | seq p q ihp ihq =>
    obtain ⟨v, w, rfl, hp, hq⟩ := h
    obtain ⟨hv, hw⟩ := List.forall_mem_append.1 hu
    rw [spellable, ihp hp hv, ihq hq hw, Bool.and_self]
  | alt p q ihp ihq =>
    rcases h with hp | hq
    · rw [spellable, ihp hp hu, Bool.true_or]
    · rw [spellable, ihq hq hu, Bool.or_true]
  | capture name p ih => exact ih h hu

theorem search_eq_nil_of_not_spellable {alphabet text : List Char} {p : Pattern γ}
    (h : p.spellable alphabet = false) (htext : ∀ c ∈ text, c ∈ alphabet) : p.search text = [] := by
  rw [List.eq_nil_iff_forall_not_mem]
  intro m hm
  obtain ⟨front, u, back, hoccurs⟩ := exists_occurs hm
  have hu : ∀ c ∈ u, c ∈ alphabet := by
    intro c hc
    apply htext
    rw [hoccurs.split]
    simp [hc]
  rw [spellable_of_reads hoccurs.reads hu] at h
  cases h

end Pattern

section Lowering
variable {u word : List Char}

private theorem map_foldCase_lowerAscii (u : List Char) :
    (lowerAscii u).map foldCase = u.map foldCase := by
  simp [lowerAscii]

/-- A text lowered is a word of small letters exactly if it is that word up to letter case and has
none of the two letters that only folding changes. -/
theorem lowerAscii_eq_iff (h : word.all fun c => c ∉ foldedChars) :
    lowerAscii u = word ↔ u.map foldCase = word ∧ '\u017F' ∉ u ∧ '\u212A' ∉ u := by
  rw [List.all_iff_forall_prop] at h
  constructor
  · rintro rfl
    refine ⟨?_, ?_, ?_⟩
    · have hsame : ∀ c ∈ lowerAscii u, foldCase c = id c :=
        fun c hc => (foldCase_eq_or_mem c).resolve_right (h c hc)
      rw [← map_foldCase_lowerAscii, List.map_congr_left hsame, List.map_id]
    · intro hs
      exact h '\u017F' (List.mem_map.2 ⟨_, hs, rfl⟩) (by decide)
    · intro hk
      exact h '\u212A' (List.mem_map.2 ⟨_, hk, rfl⟩) (by decide)
  · rintro ⟨rfl, hs, hk⟩
    apply List.map_congr_left
    intro c hc
    unfold foldCase
    rw [if_neg, if_neg]
    · rintro rfl
      exact hk hc
    · rintro rfl
      exact hs hc

end Lowering
end VideoEdit
