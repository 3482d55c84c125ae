import VideoEdit.Prompt.Extraction
import VideoEdit.Proofs.Pattern.Search
import VideoEdit.Proofs.Text.LetterCase
/-!
# Prompts in any letter case

A pattern matches a text in the places in which it matches the text with its capitals lowered, and
what a match says does not depend on the case of the words and units that it captured. So prompts
that differ in the case of ASCII letters only are read as one extraction.
-/
namespace VideoEdit

def Match.lowered {γ : Type} (m : Match γ) : Match γ := m.mapTexts lowerAscii

private theorem Match.text?_lowered {γ : Type} [DecidableEq γ] (m : Match γ) (name : γ) :
    m.lowered.text? name = (m.text? name).map lowerAscii := m.text?_mapTexts lowerAscii name

section Search
variable {γ : Type}

@[simp] theorem utf8Length_lowerAscii (text : List Char) :
    utf8Length (lowerAscii text) = utf8Length text := by
  induction text with
  | nil => rfl
  | cons c text ih => rw [lowerAscii_cons, utf8Length_cons, utf8Length_cons, utf8Size_toLower, ih]

private theorem simulates_lowerAscii (classes : List CharClass) :
    Simulates classes fun u v => v = lowerAscii u where
  word := by
    rintro u _ rfl
    cases u with
    | nil => rfl
    | cons x u => exact (isWord_toLower x).symm
  read := by
    rintro u _ rfl cls -
    cases u with
    | nil => exact .none
    | cons x u =>
      rw [lowerAscii_cons, CharClass.read?, CharClass.read?, CharClass.accepts_toLower]
      by_cases hx : cls.accepts x
      · rw [if_pos hx, if_pos hx]
        exact .some rfl
      · rw [if_neg hx, if_neg hx]
        exact .none

private theorem transports_lowerAscii : Transports (fun u v => v = lowerAscii u) lowerAscii where
  length := by
    rintro u _ u' _ rfl rfl
    rw [length_lowerAscii, length_lowerAscii]
  take := by
    rintro u _ n rfl -
    exact take_lowerAscii u n
  bytes := utf8Length_lowerAscii

namespace Pattern
variable (p : Pattern γ)

private theorem matchAt_lowerAscii (offset : Nat) (before : Option Char) (rest : List Char) :
    p.matchAt offset (before.map Char.toLower) (lowerAscii rest) =
      (p.matchAt offset before rest).map fun found => (found.1, found.2.lowered) := by
  have hword : before.any isWord = (before.map Char.toLower).any isWord := by
    cases before with
    | none => rfl
    | some c => exact (isWord_toLower c).symm
  exact p.matchAt_related (simulates_lowerAscii _) transports_lowerAscii offset hword rfl

private theorem searchFrom_lowerAscii (skip offset : Nat) (before : Option Char)
    (rest : List Char) :
    p.searchFrom skip offset (before.map Char.toLower) (lowerAscii rest) =
      (p.searchFrom skip offset before rest).map Match.lowered := by
  -- By induction on the rest, as the search goes on: a match skips as much of either text.
  induction rest generalizing skip offset before with
  | nil => cases skip <;> rfl
  | cons c rest ih =>
    have hrest (skip : Nat) := ih skip (offset + c.utf8Size) (some c)
    cases skip with
    | succ skip =>
      rw [lowerAscii_cons, searchFrom, searchFrom, utf8Size_toLower]
      exact hrest skip
    | zero =>
      rw [lowerAscii_cons, searchFrom, searchFrom, ← lowerAscii_cons, matchAt_lowerAscii,
        utf8Size_toLower]
      cases p.matchAt offset before (c :: rest) with
      | none => exact hrest 0
      | some found => exact congrArg (found.2.lowered :: ·) (hrest (found.1 - 1))

private theorem search_lowerAscii (text : List Char) :
    p.search (lowerAscii text) = (p.search text).map Match.lowered :=
  p.searchFrom_lowerAscii 0 0 none text

end Pattern
end Search

namespace Finding
variable (text : List Char) (unit : Option (List Char)) (m : Match Part)

private theorem isMinute_lowerAscii : isMinute (lowerAscii text) = isMinute text := by
  rw [isMinute, isMinute, lowerAscii_lowerAscii]

private theorem clockSeconds?_lowerAscii :
    clockSeconds? (lowerAscii text) = clockSeconds? text := by
  rw [clockSeconds?, clockSeconds?, fields_lowerAscii text rfl, List.foldlM_map]
  simp only [Numeral.read?_lowerAscii]

private theorem seconds?_lowerAscii :
    seconds? (lowerAscii text) (unit.map lowerAscii) = seconds? text unit := by
  rw [seconds?, seconds?, if_congr (mem_lowerAscii_iff text rfl) rfl rfl, clockSeconds?_lowerAscii,
    Numeral.read?_lowerAscii, Option.any_map]
  simp only [isMinute_lowerAscii]

private theorem bound?_lowerAscii :
    bound? (lowerAscii text) (unit.map lowerAscii) = bound? text unit := by
  rw [bound?, bound?, seconds?_lowerAscii]
  simp only [Option.isNone_map, mem_lowerAscii_iff text (rfl : ':'.isAlpha = false)]

private theorem brightnessOf_lowerAscii (percent negative : Bool) :
    brightnessOf (lowerAscii text) percent negative = brightnessOf text percent negative := by
  rw [brightnessOf, brightnessOf, Numeral.read?_lowerAscii]

private theorem isSlowing_lowerAscii : isSlowing (lowerAscii text) = isSlowing text := by
  rw [isSlowing, isSlowing, lowerAscii_lowerAscii]

private theorem isDarkening_lowerAscii : isDarkening (lowerAscii text) = isDarkening text := by
  rw [isDarkening, isDarkening, lowerAscii_lowerAscii]

private theorem ofTrimRange?_lowered : ofTrimRange? m.lowered = ofTrimRange? m := by
  simp only [ofTrimRange?, Match.text?_lowered, ← Option.map_or]
  cases m.text? .start with
  | none => rfl
  | some start => cases m.text? .finish with
    | none => simp
    | some finish => simp [seconds?_lowerAscii]

private theorem ofStart?_lowered : ofStart? m.lowered = ofStart? m := by
  simp only [ofStart?, Match.text?_lowered]
  cases m.text? .start with
  | none => rfl
  | some start => simp [bound?_lowerAscii]

private theorem ofFinish?_lowered : ofFinish? m.lowered = ofFinish? m := by
  simp only [ofFinish?, Match.text?_lowered]
  cases m.text? .finish with
  | none => rfl
  | some finish => simp [bound?_lowerAscii]

private theorem speedFactor?_lowered : speedFactor? m.lowered = speedFactor? m := by
  simp only [speedFactor?, Match.text?_lowered, ← Option.map_or]
  cases m.text? .target with
  | some target => simp [Option.any_map, isSlowing_lowerAscii]
  | none => cases (m.text? .faster).or (m.text? .multiplier) with
    | some multiplier => simp
    | none => cases m.text? .slower <;> simp

private theorem ofBrightness?_lowered : ofBrightness? m.lowered = ofBrightness? m := by
  simp only [ofBrightness?, Match.text?_lowered, Option.isSome_map]
  cases m.text? .amount with
  | some amount => cases m.text? .verb with
    | none => rfl
    | some verb => simp [brightnessOf_lowerAscii, isDarkening_lowerAscii]
  | none => cases m.text? .level with
    | none => rfl
    | some level => simp [brightnessOf_lowerAscii]

private theorem ofCrop_lowered : ofCrop m.lowered = ofCrop m := by
  rw [ofCrop, ofCrop, Match.text?_lowered, Option.isSome_map]

end Finding

private theorem Rule.finding?_lowered (rule : Rule) (m : Match Part) :
    rule.finding? m.lowered = rule.finding? m := by
  cases rule with
  | trimRange => exact Finding.ofTrimRange?_lowered m
  | trimFirst | trimStartAt => exact Finding.ofStart?_lowered m
  | trimEnd => exact Finding.ofFinish?_lowered m
  | speed => exact congrArg (Option.map _) (Finding.speedFactor?_lowered m)
  | brightness => exact Finding.ofBrightness?_lowered m
  | crop => exact congrArg some (Finding.ofCrop_lowered m)
  | grayscale | mute | gif => rfl

namespace Prompt

private theorem findingsOf_lowerAscii (text : List Char) (rule : Rule) :
    findingsOf (lowerAscii text) rule = findingsOf text rule := by
  rw [findingsOf, findingsOf, Pattern.search_lowerAscii, List.filterMap_map]
  congr 1
  funext m
  exact congrArg _ (rule.finding?_lowered m)

private theorem findings_lowerAscii (text : List Char) :
    findings (lowerAscii text) = findings text := by
  have hrules : findingsOf (lowerAscii text) = findingsOf text :=
    funext (findingsOf_lowerAscii text)
  rw [findings, findings, hrules]

/-- Prompts that differ in the case of ASCII letters only are read alike. -/
theorem parse_eq_of_lowerAscii_eq {prompt prompt' : String}
    (h : lowerAscii prompt.toList = lowerAscii prompt'.toList) : parse prompt = parse prompt' := by
  rw [parse, parse, ← findings_lowerAscii, h, findings_lowerAscii]

theorem parse_eq_mixed_case :
    lowerAscii "SLOW Down to 2X, cut FROM 5S".toList =
        lowerAscii "Slow dOwn to 2x, Cut from 5s".toList ∧
      parse "SLOW Down to 2X, cut FROM 5S" = parse "Slow dOwn to 2x, Cut from 5s" :=
  have h : lowerAscii "SLOW Down to 2X, cut FROM 5S".toList =
      lowerAscii "Slow dOwn to 2x, Cut from 5s".toList := by decide
  ⟨h, parse_eq_of_lowerAscii_eq h⟩

end Prompt
end VideoEdit
