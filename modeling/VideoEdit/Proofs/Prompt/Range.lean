import VideoEdit.Proofs.Prompt.Account
import VideoEdit.Proofs.Prompt.TimeText
/-!
# Ranges of times

In "from X u to Y v" both times are read as they are written, whatever their forms and units; a unit
that stands at one of them only holds for both.
-/
namespace VideoEdit

def rangeText (x : TimeText) (u : Option TimeUnit) (y : TimeText) (v : Option TimeUnit) :
    List Char :=
  "from ".toList ++ x.text ++ unitText u ++ " to ".toList ++ y.text ++ unitText v

namespace Phrase
open Pattern

private theorem not_blank_of_digit {text : List Char} (h : ∀ c ∈ text.head?, c ∈ asciiDigits) :
    ∀ c ∈ text.head?, isBlank c = false :=
  fun c hc => isBlank_of_mem_asciiDigits (h c hc)

private theorem prefers_from {after : List Char} (h : ∀ c ∈ after.head?, c ∈ asciiDigits) :
    (wordBoundary ++ oneOf ["from", "between", "trim", "cut", "keep", "clip"] ++ blanks ++
      maybe (word "from" ++ blanks) : Shape).Prefers none "from ".toList after [] := by
  have hfrom : (wordBoundary ++ oneOf ["from", "between", "trim", "cut", "keep", "clip"] :
      Shape).Prefers none "from".toList ([' '] ++ after) [] :=
    fun _ => ⟨_, rfl, rfl, rfl, rfl⟩
  have hblanks : (blanks : Shape).Prefers (lastOr none "from".toList) [' '] after [] :=
    prefers_oneOrMore (by simp) (List.all_eq_true.1 (by decide)) (not_blank_of_digit h)
  have hnone : (maybe (word "from" ++ blanks) : Shape).Prefers
      (lastOr none ("from".toList ++ [' '])) [] after [] :=
    prefers_maybe_nil (blocked_of_head? h (by decide))
  exact (hfrom.seq hblanks).seq hnone

private theorem prefers_to {before : Option Char} {after : List Char} :
    (oneOf ["to", "and", "until", "till", "through", "-"] : Shape).Prefers before "to".toList
      ([' '] ++ after) [] :=
  fun _ => ⟨_, rfl, rfl, rfl, rfl⟩

/-- The pattern of ranges reads a whole range. -/
theorem trimRange_prefers (x : TimeText) (u : Option TimeUnit) (y : TimeText)
    (v : Option TimeUnit) : trimRange.Prefers none (rangeText x u y v) []
      (unitParts .finishUnit v ++ (.finish, y.text) ::
        (unitParts .startUnit u ++ [(.start, x.text)])) := by
  have hdigit : ∀ c ∈ (x.text ++ unitText u ++ [' '] ++ ("to".toList ++
      ([' '] ++ (y.text ++ unitText v)))).head?, c ∈ asciiDigits := by
    rw [List.append_assoc, List.append_assoc]
    exact x.head_mem
  have hhead : ∀ c ∈ ("to".toList ++ ([' '] ++ (y.text ++ unitText v))).head?, c ∈ ['t'] := by
    simp
  have hstart := x.prefers_timed_to u .start .startUnit hhead (prefers_from hdigit)
  have hto := (hstart.seq prefers_to).seq (prefers_blank (not_blank_of_digit y.head_mem))
  have hrange := y.prefers_timed_boundary v .finish .finishUnit hto
  have hparts : " to ".toList = [' '] ++ "to".toList ++ [' '] := by decide
  have htext : rangeText x u y v = "from ".toList ++ x.text ++ unitText u ++ [' '] ++
      "to".toList ++ [' '] ++ (y.text ++ unitText v) := by
    unfold rangeText
    generalize " to ".toList = joint at hparts ⊢
    simp only [hparts, List.append_assoc]
  rw [htext]
  exact hrange

end Phrase

private theorem finding?_range (x : TimeText) (u : Option TimeUnit) (y : TimeText)
    (v : Option TimeUnit) (start stop : Nat) :
    Rule.trimRange.finding? ⟨start, stop, unitParts .finishUnit v ++ (.finish, y.text) ::
        (unitParts .startUnit u ++ [(.start, x.text)])⟩ =
      some (.operation (.trim (x.seconds (u.or v)) (some (y.seconds (v.or u))))) := by
  have hor (u v : Option TimeUnit) :
      (u.map TimeUnit.text).or (v.map TimeUnit.text) = (u.or v).map TimeUnit.text := by
    cases u <;> rfl
  have htexts : let m : Match Part := ⟨start, stop, unitParts .finishUnit v ++
        (.finish, y.text) :: (unitParts .startUnit u ++ [(.start, x.text)])⟩
      m.text? .startUnit = u.map TimeUnit.text ∧ m.text? .finishUnit = v.map TimeUnit.text ∧
        m.text? .start = some x.text ∧ m.text? .finish = some y.text := by
    cases u <;> cases v <;> exact ⟨rfl, rfl, rfl, rfl⟩
  obtain ⟨hstartUnit, hfinishUnit, hstart, hfinish⟩ := htexts
  simp only [Rule.finding?, Finding.ofTrimRange?, hstartUnit, hfinishUnit, hstart, hfinish, hor,
    TimeText.seconds?_text, Option.bind_eq_bind, Option.bind_some, Option.pure_def]

namespace Prompt

/-- A range is one window from the first of its times to the second. Below 2^53 a clock time is
exact. -/
theorem mem_mentions_range (x : TimeText) (u : Option TimeUnit) (y : TimeText)
    (v : Option TimeUnit) :
    ⟨0, .phrase .trimRange, .trim (x.seconds (u.or v)) (some (y.seconds (v.or u)))⟩ ∈
        (parse (String.ofList (rangeText x u y v))).mentions ∧
      ∀ t : Timestamp, t.total < 2 ^ 53 →
        t.seconds = .ofNat t.total ∧ t.seconds.value = t.total := by
  constructor
  · have hne : rangeText x u y v ≠ [] := List.cons_ne_nil _ _
    have hmatch := Pattern.mem_search_of_prefers (Phrase.trimRange_prefers x u y v) hne
    rw [List.append_nil] at hmatch
    rw [mem_mentions_phrase_iff, String.toList_ofList]
    exact ⟨_, hmatch, rfl, finding?_range x u y v 0 _⟩
  · intro t ht
    rw [t.seconds_eq ht, Binary64.value_ofNat ht]
    exact ⟨rfl, rfl⟩

/-- A unit of minutes counts for the plain number of a range and not for its clock time. -/
theorem mem_mentions_range_minutes :
    let t : Timestamp := .minutes ⟨['1'], by decide, by decide⟩ ⟨'3', '0', by decide, by decide⟩
    t.total < 2 ^ 53 ∧
      ⟨0, .phrase .trimRange, .trim (.ofNat 90) (some 120)⟩ ∈
        (parse "from 1:30 to 2 min").mentions := by
  intro t
  have hsmall : t.total < 2 ^ 53 := by decide
  obtain ⟨hmem, hclock⟩ := mem_mentions_range (.clock t) none
    (.whole ⟨['2'], by decide, by decide⟩) (some .min)
  have hstart : (TimeText.clock t).seconds (some .min) = .ofNat 90 := (hclock t hsmall).1
  have hfinish : (TimeText.whole ⟨['2'], by decide, by decide⟩).seconds (some .min) = 120 := by
    decide +kernel
  rw [Option.none_or, Option.or_none, hstart, hfinish] at hmem
  exact ⟨hsmall, hmem⟩

end Prompt
end VideoEdit
