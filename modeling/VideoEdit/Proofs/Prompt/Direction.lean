import VideoEdit.Proofs.Number.Sign
import VideoEdit.Proofs.Pattern.Groups
import VideoEdit.Proofs.Pattern.Spelling
import VideoEdit.Proofs.Prompt.Account
/-!
# The direction of a verb

A verb of brightness settles the sign of the change, and a verb of slow motion turns its factor
over. Both are told by the verb with its ASCII capitals lowered; a spelling with a letter beyond
ASCII is recognised as the verb, and goes the other way.
-/
namespace VideoEdit

namespace Phrase
open Pattern

theorem reads_number {before : Option Char} {u after : List Char} :
    number.Reads before u after ↔ IsNumeral u := by
  have hdigits {before : Option Char} {v after : List Char} : digits.Reads before v after ↔
      v ≠ [] ∧ ∀ c ∈ v, isDecimalDigit c := reads_oneOrMore
  constructor
  · rintro ⟨whole, fraction, rfl, hwhole, hfraction⟩
    refine ⟨whole, fraction, rfl, hdigits.1 hwhole, hfraction.symm.imp_right ?_⟩
    rintro ⟨point, decimals, rfl, hpoint, hdecimals⟩
    obtain rfl : point = ['.'] := (reads_word.1 hpoint).eq_of_not_isAlpha (by decide)
    exact ⟨decimals, rfl, hdigits.1 hdecimals⟩
  · rintro ⟨whole, fraction, rfl, hwhole, hfraction⟩
    refine ⟨whole, fraction, rfl, hdigits.2 hwhole, hfraction.symm.imp_left ?_⟩
    rintro ⟨decimals, rfl, hdecimals⟩
    have hpoint : Spells ['.'] "." := by decide
    exact ⟨['.'], decimals, rfl, reads_word.2 hpoint, hdigits.2 hdecimals⟩

theorem exists_digit_of_reads_number {before : Option Char} {u after : List Char}
    (h : number.Reads before u after) : ∃ c rest, u = c :: rest ∧ isDecimalDigit c :=
  (reads_number.1 h).exists_digit

end Phrase

namespace Finding
variable {verb : List Char}

private theorem isDarkening_iff :
    isDarkening verb ↔ Spells verb "darken" ∧ '\u212A' ∉ verb ∨ Spells verb "dim" := by
  rw [isDarkening, Bool.or_eq_true, decide_eq_true_eq, decide_eq_true_eq,
    lowerAscii_eq_iff (by decide), lowerAscii_eq_iff (by decide)]
  apply or_congr
  · constructor
    · rintro ⟨hspells, -, hkelvin⟩
      exact ⟨hspells, hkelvin⟩
    · rintro ⟨hspells, hkelvin⟩
      exact ⟨hspells, hspells.not_mem (by decide), hkelvin⟩
  · constructor
    · exact fun h => h.1
    · intro hspells
      exact ⟨hspells, hspells.not_mem (by decide), hspells.not_mem (by decide)⟩

private theorem isSlowing_iff :
    isSlowing verb ↔ Spells (verb.take 4) "slow" ∧ '\u017F' ∉ verb.take 4 := by
  have htake : (lowerAscii verb).take 4 = lowerAscii (verb.take 4) := List.map_take.symm
  rw [isSlowing, List.isPrefixOf_iff_prefix, List.prefix_iff_eq_take, eq_comm,
    show "slow".toList.length = 4 from rfl, htake, lowerAscii_eq_iff (by decide)]
  constructor
  · rintro ⟨hspells, hlong, -⟩
    exact ⟨hspells, hlong⟩
  · rintro ⟨hspells, hlong⟩
    exact ⟨hspells, hlong, Spells.not_mem hspells (by decide)⟩

/-- The factor that a verb makes of a number: a verb of slow motion turns a number above one over,
unless it begins with a long s. -/
def verbFactor (verb : List Char) (number : Binary64) : Binary64 :=
  if Spells (verb.take 4) "slow" ∧ '\u017F' ∉ verb.take 4 ∧ Binary64.less 1 number then 1 / number
  else number

theorem hasSign_scaled {number : Binary64} {s : Bool} (h : number.HasSign s)
    (percent negative : Bool) :
    ((if negative then -1 else 1) * (if percent then number / 100 else number)).HasSign
      (negative != s) := by
  have hpercent : (if percent then number / 100 else number).HasSign s := by
    have hhundred : (100 : Binary64) = .ofNat 100 := rfl
    split
    · rw [hhundred, Binary64.ofNat_eq (by decide)]
      exact h.div_finite _ (Nat.mul_pos (by decide) unitsPerOne_pos)
    · exact h
  cases negative with
  | true =>
    rw [if_pos rfl, Binary64.neg_one_eq]
    exact hpercent.mul_finite _ unitsPerOne_pos
  | false =>
    rw [if_neg Bool.false_ne_true, Binary64.one_eq]
    exact hpercent.mul_finite _ unitsPerOne_pos

private theorem hasSign_of_brightnessOf {c : Char} {rest : List Char} (hc : isDecimalDigit c)
    {percent negative : Bool} {value : Binary64}
    (h : brightnessOf (c :: rest) percent negative = some value) : value.HasSign negative := by
  obtain ⟨number, hnumber, hvalue⟩ := Option.bind_eq_some_iff.1 h
  cases hvalue
  have hscaled := hasSign_scaled (Numeral.hasSign_of_read? hc hnumber) percent negative
  rw [Bool.bne_false] at hscaled
  exact hscaled.clamp

end Finding

private theorem Rule.nameLists_verb (rule : Rule) : ∀ names ∈ rule.shape.nameLists,
    .verb ∈ names →
      rule = brightness ∧ .amount ∈ names ∨ rule = speed ∧ .target ∈ names := by
  cases rule <;> decide

private theorem Phrase.brightness_groups : brightness.isFlat ∧ ∀ g ∈ brightness.groups,
    (g.name = .verb → g.inner = Pattern.oneOf ["brighten", "lighten", "darken", "dim"]) ∧
    (g.name = .amount → g.inner = number) := by
  decide

section Matches
variable {text : List Char} {m : Match Part} {verb : List Char} {op : Operation}

private theorem Phrase.exists_spells_of_brightness (hm : m ∈ brightness.search text)
    (h : m.text? .verb = some verb) :
    ∃ word ∈ ["brighten", "lighten", "darken", "dim"], Spells verb word := by
  obtain ⟨hflat, hgroups⟩ := brightness_groups
  obtain ⟨g, hg, hname, before, after, hreads⟩ := Pattern.exists_reads_of_text? hflat hm h
  rwa [(hgroups g hg).1 hname, Pattern.reads_oneOf] at hreads

theorem Phrase.exists_digit_of_amount (hm : m ∈ brightness.search text) {amount : List Char}
    (h : m.text? .amount = some amount) : ∃ c rest, amount = c :: rest ∧ isDecimalDigit c := by
  obtain ⟨hflat, hgroups⟩ := brightness_groups
  obtain ⟨g, hg, hname, before, after, hreads⟩ := Pattern.exists_reads_of_text? hflat hm h
  rw [(hgroups g hg).2 hname] at hreads
  exact exists_digit_of_reads_number hreads

private theorem Finding.brightness_direction (hm : m ∈ Phrase.brightness.search text)
    (hverb : m.text? .verb = some verb) {amount : List Char}
    (hamount : m.text? .amount = some amount)
    (h : ofBrightness? m = some (.operation op)) :
    ∃ value, op = .brightness value ∧
      ((Spells verb "darken" ∧ '\u212A' ∉ verb ∨ Spells verb "dim") ∧ value.atMost 0 ∨
        (Spells verb "darken" ∧ '\u212A' ∈ verb ∨ Spells verb "brighten" ∨
          Spells verb "lighten") ∧ Binary64.atMost 0 value) := by
  simp only [ofBrightness?, hverb, hamount, Option.bind_eq_bind, Option.bind_some, Option.pure_def,
    Option.bind_eq_some_iff, Option.some.injEq, operation.injEq] at h
  obtain ⟨value, hvalue, hop⟩ := h
  refine ⟨value, hop.symm, ?_⟩
  obtain ⟨c, rest, rfl, hc⟩ := Phrase.exists_digit_of_amount hm hamount
  have hsign := hasSign_of_brightnessOf hc hvalue
  cases hdark : isDarkening verb with
  | true =>
    rw [hdark] at hsign
    exact Or.inl ⟨isDarkening_iff.1 hdark, hsign.atMost_zero⟩
  | false =>
    rw [hdark] at hsign
    refine Or.inr ⟨?_, hsign.zero_atMost⟩
    have hnot : ¬(Spells verb "darken" ∧ '\u212A' ∉ verb ∨ Spells verb "dim") := by
      rw [← isDarkening_iff, hdark]
      exact Bool.false_ne_true
    have hspells := Phrase.exists_spells_of_brightness hm hverb
    simp only [List.mem_cons, List.not_mem_nil, or_false, exists_eq_or_imp, exists_eq_left]
      at hspells
    tauto

theorem Finding.speed_direction (hverb : m.text? .verb = some verb) {target : List Char}
    (htarget : m.text? .target = some target) (h : Rule.speed.finding? m = some (.operation op)) :
    ∃ number, Numeral.read? target = some number ∧ op = .speed (verbFactor verb number) := by
  simp only [Rule.finding?, speedFactor?, hverb, htarget, Option.map_eq_some_iff,
    Option.bind_eq_bind, Option.bind_eq_some_iff] at h
  obtain ⟨factor, ⟨number, hnumber, hfactor⟩, hop⟩ := h
  cases hfactor
  refine ⟨number, hnumber, ?_⟩
  simp only [operation.injEq, Option.any_some, Bool.and_eq_true, isSlowing_iff, and_assoc] at hop
  exact hop.symm

end Matches

namespace Prompt

/-- A verb of brightness settles the sign, unless it is "darken" with a kelvin sign in it; a verb of
slow motion turns a number above one over, unless it begins with a long s. -/
theorem exists_match_direction {prompt : String} {offset : Nat} {rule : Rule} {op : Operation}
    (h : ⟨offset, .phrase rule, op⟩ ∈ (parse prompt).mentions) :
    ∃ m ∈ rule.shape.search prompt.toList, m.start = offset ∧
      ∀ verb, m.text? .verb = some verb →
        (rule = .brightness ∧ ∃ value, op = .brightness value ∧
          ((Spells verb "darken" ∧ '\u212A' ∉ verb ∨ Spells verb "dim") ∧ value.atMost 0 ∨
            (Spells verb "darken" ∧ '\u212A' ∈ verb ∨ Spells verb "brighten" ∨
              Spells verb "lighten") ∧ Binary64.atMost 0 value)) ∨
        (rule = .speed ∧ ∃ target number, m.text? .target = some target ∧
          Numeral.read? target = some number ∧
          op = .speed (if Spells (verb.take 4) "slow" ∧ '\u017F' ∉ verb.take 4 ∧
            Binary64.less 1 number then 1 / number else number)) := by
  obtain ⟨m, hm, hstart, hfinding⟩ := mem_mentions_phrase_iff.1 h
  refine ⟨m, hm, hstart, ?_⟩
  intro verb hverb
  have hname : .verb ∈ m.captured.map Prod.fst := by
    rw [← Match.isSome_text?_iff, hverb, Option.isSome_some]
  rcases rule.nameLists_verb _ (Pattern.names_of_mem_search hm) hname with
    ⟨rfl, hname⟩ | ⟨rfl, hname⟩
  · obtain ⟨amount, hamount⟩ := Option.isSome_iff_exists.1 (Match.isSome_text?_iff.2 hname)
    exact Or.inl ⟨rfl, Finding.brightness_direction hm hverb hamount hfinding⟩
  · obtain ⟨target, htarget⟩ := Option.isSome_iff_exists.1 (Match.isSome_text?_iff.2 hname)
    obtain ⟨number, hnumber, hop⟩ := Finding.speed_direction hverb htarget hfinding
    exact Or.inr ⟨rfl, target, number, htarget, hnumber, hop⟩

private def slowing : Match Part :=
  ⟨0, 18, [(.target, "2".toList), (.verb, "slow it down".toList)]⟩

private def darkening : Match Part :=
  ⟨0, 15, [(.amountPercent, "%".toList), (.amount, "20".toList), (.verb, "dar\u212Aen".toList)]⟩

private theorem search_verbs :
    Rule.speed.shape.search "slow it down to 2x".toList = [slowing] ∧
      Rule.speed.finding? slowing = some (.operation (.speed (.fraction 1 2))) ∧
      Rule.brightness.shape.search "dar\u212Aen by 20%".toList = [darkening] ∧
      Rule.brightness.finding? darkening = some (.operation (.brightness (.fraction 1 5))) ∧
      (Binary64.fraction 1 5).atMost 0 = false := by
  decide +kernel

/-- "Slow it down to 2x" asks for half the speed. -/
theorem exists_match_direction_half :
    ⟨0, .phrase .speed, .speed (.fraction 1 2)⟩ ∈ (parse "slow it down to 2x").mentions ∧
      ∃ m ∈ Rule.speed.shape.search "slow it down to 2x".toList,
        m.text? .verb = some "slow it down".toList ∧
        ∃ target number, m.text? .target = some target ∧ Numeral.read? target = some number ∧
          Operation.speed (.fraction 1 2) = .speed (if Spells "slow".toList "slow" ∧
            '\u017F' ∉ "slow".toList ∧ Binary64.less 1 number then 1 / number else number) := by
  obtain ⟨hsearch, hfinding, -⟩ := search_verbs
  have hslowing : slowing ∈ Rule.speed.shape.search "slow it down to 2x".toList := by
    rw [hsearch]
    exact List.mem_singleton_self slowing
  have hmem := mem_mentions_phrase_iff.2 ⟨slowing, hslowing, rfl, hfinding⟩
  refine ⟨hmem, ?_⟩
  obtain ⟨m, hm, -, hdirection⟩ := exists_match_direction hmem
  obtain rfl : m = slowing := by
    rwa [hsearch, List.mem_singleton] at hm
  rcases hdirection _ rfl with ⟨hrule, -⟩ | ⟨-, hspeed⟩
  · cases hrule
  · exact ⟨slowing, hm, rfl, hspeed⟩

/-- "Darken" with a kelvin sign in it brightens. -/
theorem darken_not_atMost_zero :
    ¬∀ (prompt : String) (offset : Nat) (op : Operation),
      ⟨offset, .phrase .brightness, op⟩ ∈ (parse prompt).mentions →
      ∀ m ∈ Rule.brightness.shape.search prompt.toList, m.start = offset →
      ∀ verb, m.text? .verb = some verb → Spells verb "darken" →
        ∃ value, op = .brightness value ∧ value.atMost 0 := by
  intro h
  obtain ⟨-, -, hsearch, hfinding, hnot⟩ := search_verbs
  have hm : darkening ∈ Rule.brightness.shape.search "dar\u212Aen by 20%".toList := by
    rw [hsearch]
    exact List.mem_singleton_self darkening
  have hmem := mem_mentions_phrase_iff.2 ⟨darkening, hm, rfl, hfinding⟩
  obtain ⟨value, hvalue, hle⟩ := h _ _ _ hmem _ hm rfl _ rfl (by decide)
  obtain rfl := Operation.brightness.inj hvalue
  rw [hnot] at hle
  cases hle

end Prompt
end VideoEdit
