import Mathlib.Data.Bool.AllAny
import Mathlib.Tactic.SplitIfs
import VideoEdit.Pattern.Basic
/-!
# Classes of characters

The classes that patterns test are words' characters or no words' characters as a whole: letters and
digits are, white space and punctuation are not, and folding the case of a letter changes no class.
-/
namespace VideoEdit

private def coveredBy (ranges : List (Nat × Nat)) (r : Nat × Nat) : Bool :=
  ranges.any fun s => s.1 ≤ r.1 && r.2 ≤ s.2

private theorem inRanges_of_coveredBy {ranges : List (Nat × Nat)} {r : Nat × Nat}
    (h : coveredBy ranges r) {c : Char} (hlow : r.1 ≤ c.toNat) (hhigh : c.toNat ≤ r.2) :
    inRanges ranges c := by
  obtain ⟨s, hs, hle⟩ := List.any_eq_true.1 h
  simp only [Bool.and_eq_true, decide_eq_true_eq] at hle
  refine List.any_eq_true.2 ⟨s, hs, ?_⟩
  simp only [Bool.and_eq_true, decide_eq_true_eq]
  omega

private theorem of_mem_range (P : Char → Prop) {start length : Nat}
    (h : ∀ n ∈ List.range' start length, P (Char.ofNat n)) {c : Char} (hlow : start ≤ c.toNat)
    (hhigh : c.toNat < start + length) : P c := by
  have hc := h c.toNat (List.mem_range'_1.2 ⟨hlow, hhigh⟩)
  rwa [Char.ofNat_toNat] at hc

def asciiDigits : List Char := "0123456789".toList

theorem mem_asciiDigits_of_isDigit {c : Char} (h : c.isDigit) : c ∈ asciiDigits := by
  have hdigit : ∀ n ∈ List.range' 48 10, Char.ofNat n ∈ asciiDigits := by decide
  simp only [Char.isDigit, Bool.and_eq_true, decide_eq_true_eq, UInt32.le_iff_toNat_le] at h
  exact of_mem_range (· ∈ asciiDigits) hdigit h.1 (Nat.lt_succ_of_le h.2)

theorem isDecimalDigit_of_isDigit {c : Char} (h : c.isDigit) : isDecimalDigit c := by
  have hdigit : asciiDigits.all isDecimalDigit := by decide
  exact List.all_eq_true.1 hdigit c (mem_asciiDigits_of_isDigit h)

theorem isBlank_of_mem_asciiDigits {c : Char} (h : c ∈ asciiDigits) : isBlank c = false := by
  have hblank : asciiDigits.all fun c => isBlank c = false := by decide
  exact List.all_iff_forall_prop.1 hblank c h

theorem isWord_of_isDecimalDigit {c : Char} (h : isDecimalDigit c) : isWord c := by
  unfold isDecimalDigit at h
  split_ifs at h with hc
  · simp [isWord, hc, isAsciiWord, Char.isAlphanum, h]
  -- No range of digits crosses from one table of word characters to the next.
  have htable : ∀ r ∈ digitRanges,
      r.2 < 0x1000 ∧ coveredBy wordRangesTo0FFF r ∨
        0x1000 ≤ r.1 ∧ r.2 < 0x10000 ∧ coveredBy wordRangesToFFFF r ∨
        0x10000 ≤ r.1 ∧ r.2 < 0x12000 ∧ coveredBy wordRangesTo11FFF r ∨
        0x12000 ≤ r.1 ∧ coveredBy wordRangesFrom12000 r := by
    decide +kernel
  obtain ⟨r, hr, hle⟩ := List.any_eq_true.1 h
  simp only [Bool.and_eq_true, decide_eq_true_eq] at hle
  obtain ⟨hlow, hhigh⟩ := hle
  rcases htable r hr with ⟨hb, ht⟩ | ⟨ha, hb, ht⟩ | ⟨ha, hb, ht⟩ | ⟨ha, ht⟩
  all_goals have hin := inRanges_of_coveredBy ht hlow hhigh
  · rw [isWord, if_neg hc, if_pos (by omega), hin]
  · rw [isWord, if_neg hc, if_neg (by omega), if_pos (by omega), hin]
  · rw [isWord, if_neg hc, if_neg (by omega), if_neg (by omega), if_pos (by omega), hin]
  · rw [isWord, if_neg hc, if_neg (by omega), if_neg (by omega), if_neg (by omega), hin]

private theorem isWord_of_isBlank {c : Char} (h : isBlank c) : isWord c = false := by
  unfold isBlank at h
  split_ifs at h with hc
  · simp only [Bool.or_eq_true, beq_iff_eq, Bool.and_eq_true, decide_eq_true_eq] at h
    have hcontrol : ∀ n ∈ List.range' 9 5, isWord (Char.ofNat n) = false := by decide
    rcases h with rfl | ⟨hlow, hhigh⟩
    · decide
    · exact of_mem_range (fun c => isWord c = false) hcontrol hlow (by omega)
  · have htable : ∀ r ∈ blankRanges, ∀ n ∈ List.range' r.1 (r.2 + 1 - r.1),
        isWord (Char.ofNat n) = false := by
      decide +kernel
    obtain ⟨r, hr, hle⟩ := List.any_eq_true.1 h
    simp only [Bool.and_eq_true, decide_eq_true_eq] at hle
    exact of_mem_range (fun c => isWord c = false) (htable r hr) hle.1 (by omega)

theorem isBlank_of_isWord {c : Char} (h : isWord c) : isBlank c = false := by
  rw [Bool.eq_false_iff]
  intro hb
  rw [isWord_of_isBlank hb] at h
  cases h

/-- The characters that folding changes: the capitals and the two letters beyond ASCII. -/
def foldedChars : List Char := '\u017F' :: '\u212A' :: "ABCDEFGHIJKLMNOPQRSTUVWXYZ".toList

theorem toLower_eq_or_mem (c : Char) : c.toLower = c ∨ c ∈ foldedChars := by
  unfold Char.toLower
  split_ifs with h
  · have hcapital : ∀ n ∈ List.range' 65 26, Char.ofNat n ∈ foldedChars := by decide
    obtain ⟨hlow, hhigh⟩ := h
    rw [ge_iff_le, UInt32.le_iff_toNat_le] at hlow
    rw [UInt32.le_iff_toNat_le] at hhigh
    exact Or.inr (of_mem_range (· ∈ foldedChars) hcapital hlow (Nat.lt_succ_of_le hhigh))
  · exact Or.inl rfl

theorem foldCase_eq_or_mem (c : Char) : foldCase c = c ∨ c ∈ foldedChars := by
  unfold foldCase
  split_ifs with hs hk
  · exact Or.inr (hs ▸ by decide)
  · exact Or.inr (hk ▸ by decide)
  · exact toLower_eq_or_mem c

private theorem apply_foldCase {P : Char → Bool} (h : foldedChars.all fun c => P (foldCase c) = P c)
    (c : Char) : P (foldCase c) = P c := by
  rcases foldCase_eq_or_mem c with heq | hmem
  · rw [heq]
  · exact of_decide_eq_true (List.all_eq_true.1 h c hmem)

theorem isWord_foldCase (c : Char) : isWord (foldCase c) = isWord c :=
  apply_foldCase (by decide) c

theorem isDecimalDigit_foldCase (c : Char) : isDecimalDigit (foldCase c) = isDecimalDigit c :=
  apply_foldCase (by decide) c

namespace CharClass

def isWordlike : CharClass → Bool
  | literal c => isWord c
  | digit => true
  | blank | gap => false

def isNumeral : CharClass → Bool
  | literal c => isDecimalDigit c
  | digit => true
  | blank | gap => false

theorem isWord_of_accepts {cls : CharClass} {c : Char} (h : cls.accepts c) :
    isWord c = cls.isWordlike := by
  cases cls with
  | literal a =>
    obtain rfl := beq_iff_eq.1 h
    exact (isWord_foldCase c).symm
  | digit => exact isWord_of_isDecimalDigit h
  | blank => exact isWord_of_isBlank h
  | gap =>
    rcases (Bool.or_eq_true _ _).mp h with h | h
    · exact isWord_of_isBlank h
    · obtain rfl := beq_iff_eq.1 h
      decide

theorem isDecimalDigit_of_accepts {cls : CharClass} {c : Char} (h : cls.accepts c) :
    isDecimalDigit c = cls.isNumeral := by
  have hnot (hw : isWord c = false) : isDecimalDigit c = false := by
    cases hd : isDecimalDigit c with
    | false => rfl
    | true =>
      rw [isWord_of_isDecimalDigit hd] at hw
      cases hw
  cases cls with
  | literal a =>
    obtain rfl := beq_iff_eq.1 h
    exact (isDecimalDigit_foldCase c).symm
  | digit => exact h
  | blank => exact hnot (isWord_of_accepts h)
  | gap => exact hnot (isWord_of_accepts h)

/-- Whether a character can belong to both of two classes; a class is taken for all of the
characters that are words' or digits alike, so that the answer may be too generous. -/
def meets : CharClass → CharClass → Bool
  | literal a, literal b => a == b
  | cls, cls' => cls.isWordlike == cls'.isWordlike && cls.isNumeral == cls'.isNumeral

theorem meets_of_accepts {cls cls' : CharClass} {c : Char} (h : cls.accepts c)
    (h' : cls'.accepts c) : cls.meets cls' := by
  unfold meets
  split
  · rw [← beq_iff_eq.1 h, ← beq_iff_eq.1 h', beq_self_eq_true]
  · rw [← isWord_of_accepts h, ← isWord_of_accepts h', ← isDecimalDigit_of_accepts h,
      ← isDecimalDigit_of_accepts h', beq_self_eq_true, beq_self_eq_true, Bool.and_self]

end CharClass
end VideoEdit
