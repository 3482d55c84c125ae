import VideoEdit.Proofs.Pattern.Parts
import VideoEdit.Proofs.Prompt.Direction
/-!
# The forms of a speed

A speed is given by a number in one of four forms, or in words alone. The first form that can be
read is taken, and it settles what the number asks for: it is the factor, or it is turned over.
-/
namespace VideoEdit

namespace Phrase
open Pattern

/-- What stands behind a number that is compared. -/
def times (comparative : String) : Shape :=
  anyBlanks ++ (word "x" ++ (blanks ++ (word comparative ++ wordBoundary)))

def fixedSpeed : Shape :=
  (capture .double (word "double" ||| (word "twice" ++ blanks ++ word "the")) ++ blanks ++
      word "speed" ++ wordBoundary) |||
    ((capture .half (word "half") ++ oneOrMore .gap ++ word "speed" ++ wordBoundary) ||| never)

end Phrase

/-- The forms of a speed with a number: "slow down to 2x", "2x faster", "2x slower", "at 2x". -/
inductive SpeedForm
  | byVerb
  | faster
  | slower
  | multiplier
  deriving DecidableEq

namespace SpeedForm
open Pattern Phrase

def part : SpeedForm → Part
  | byVerb => .target
  | faster => .faster
  | slower => .slower
  | multiplier => .multiplier

def lead : SpeedForm → Shape
  | byVerb => capture .verb speedVerb ++ blanks ++ maybe (oneOf ["to", "by", "of", "at"] ++ blanks)
  | faster | slower => empty
  | multiplier => maybe (word "at" ++ blanks)

def tail : SpeedForm → Shape
  | byVerb => anyBlanks ++ (word "x" ++ wordBoundary)
  | faster => times "faster"
  | slower => times "slower"
  | multiplier => word "x" ++ wordBoundary

def shape (form : SpeedForm) : Shape := form.lead ++ (capture form.part number ++ form.tail)

private theorem groups_tail (form : SpeedForm) : form.tail.groups = [] := by
  cases form <;> rfl

section Readings
variable {before : Option Char} {u after rest : List Char} {parts : List (Part × Span)}

private theorem readsAs_byVerb : (capture Part.verb speedVerb ++ blanks ++
    maybe (oneOf ["to", "by", "of", "at"] ++ blanks) ++ capture Part.target number ++ anyBlanks ++
      word "x" ++ wordBoundary : Shape).ReadsAs before u after parts ↔
    byVerb.shape.ReadsAs before u after parts := by
  simp only [shape, lead, part, tail, readsAs_seq_assoc]

private theorem readsAs_times (form : SpeedForm) {comparative : String}
    (hlead : form.lead = empty) (htail : form.tail = times comparative) :
    (capture form.part number ++ anyBlanks ++ word "x" ++ blanks ++ word comparative ++
      wordBoundary).ReadsAs before u after parts ↔ form.shape.ReadsAs before u after parts := by
  simp only [shape, hlead, htail, times, readsAs_seq_assoc, readsAs_empty_seq]

private theorem readsAs_multiplier : (maybe (word "at" ++ blanks) ++
    capture Part.multiplier number ++ word "x" ++
      wordBoundary : Shape).ReadsAs before u after parts ↔
    multiplier.shape.ReadsAs before u after parts := by
  simp only [shape, lead, part, tail, readsAs_seq_assoc]

/-- A speed is given in the first form that can be read. -/
theorem exists_form {t : Scan Part} (h : speed.first? ⟨before, rest, []⟩ = some t) :
    ∃ u, rest = u ++ t.rest ∧
      ((∃ form : SpeedForm, form.shape.ReadsAs before u t.rest t.captured ∧
          (form = multiplier → ∀ v after, rest = v ++ after → ¬slower.shape.Reads before v after)) ∨
        fixedSpeed.ReadsAs before u t.rest t.captured) := by
  have hchoice := first?_of_boundary h
  simp only [choice, List.foldr_cons, List.foldr_nil] at hchoice
  change (_ ||| (_ ||| (_ ||| (_ ||| fixedSpeed)))).first? _ = _ at hchoice
  simp only [first?_alt, Option.or_eq_some_iff] at hchoice
  rcases hchoice with hverb | ⟨-, hfaster | ⟨-, hslower | ⟨hnone, hmultiplier | ⟨-, hfixed⟩⟩⟩⟩
  · obtain ⟨u, hu, hreads⟩ := readsAs_of_first? hverb
    exact ⟨u, hu, Or.inl ⟨byVerb, readsAs_byVerb.1 hreads, nofun⟩⟩
  · obtain ⟨u, hu, hreads⟩ := readsAs_of_first? hfaster
    exact ⟨u, hu, Or.inl ⟨faster, (readsAs_times faster rfl rfl).1 hreads, nofun⟩⟩
  · obtain ⟨u, hu, hreads⟩ := readsAs_of_first? hslower
    exact ⟨u, hu, Or.inl ⟨slower, (readsAs_times slower rfl rfl).1 hreads, nofun⟩⟩
  · -- A number that is to be slower at this place would have been taken first.
    obtain ⟨u, hu, hreads⟩ := readsAs_of_first? hmultiplier
    refine ⟨u, hu, Or.inl ⟨multiplier, readsAs_multiplier.1 hreads, ?_⟩⟩
    rintro - v after hv hslower
    obtain ⟨parts, hparts⟩ := exists_readsAs hslower
    have hreads := reads_of_readsAs ((readsAs_times slower rfl rfl).2 hparts)
    exact not_reads_of_first?_eq_none hnone hv hreads
  · obtain ⟨u, hu, hreads⟩ := readsAs_of_first? hfixed
    exact ⟨u, hu, Or.inr hreads⟩

end Readings

/-- A reading of a speed in one of its forms. -/
structure Reading (form : SpeedForm) (before : Option Char) (lead numeral tail after : List Char)
    (parts : List (Part × Span)) : Prop where
  reads_lead : form.lead.ReadsAs before lead (numeral ++ (tail ++ after)) parts
  isNumeral : IsNumeral numeral
  reads_tail : form.tail.Reads (lastOr (lastOr before lead) numeral) tail after

theorem exists_reading {form : SpeedForm} {before : Option Char} {u after : List Char}
    {parts : List (Part × Span)} (h : form.shape.ReadsAs before u after parts) :
    ∃ lead numeral tail parts', u = lead ++ (numeral ++ tail) ∧
      form.Reading before lead numeral tail after parts' ∧
      parts = (form.part, ⟨numeral ++ (tail ++ after), tail ++ after⟩) :: parts' := by
  obtain ⟨lead, _, parts', _, rfl, rfl, hlead, numeral, tail, _, b, rfl, rfl, hnumber, htail⟩ := h
  obtain ⟨rfl, hreads⟩ := readsAs_capture (by decide) hnumber
  rw [parts_eq_nil form.groups_tail htail]
  rw [List.append_assoc] at hlead
  refine ⟨lead, numeral, tail, parts', rfl, ⟨hlead, reads_number.1 hreads, ?_⟩, rfl⟩
  exact reads_of_readsAs htail

/-- What stands in front of a number set by a verb: the verb, and blanks with a preposition or
without one. -/
def LedByVerb (before : Option Char) (verb gap after : List Char) : Prop :=
  speedVerb.Reads before verb (gap ++ after) ∧
    (blanks ++ maybe (oneOf ["to", "by", "of", "at"] ++ blanks)).Reads (lastOr before verb) gap
      after

/-- The factor that a speed asks for, by its form, by what stands in front of its number, and by the
number. -/
def Asks (form : SpeedForm) (before : Option Char) (lead after : List Char)
    (number factor : Binary64) : Prop :=
  match form with
  | byVerb => ∃ verb gap, lead = verb ++ gap ∧ LedByVerb before verb gap after ∧
      factor = Finding.verbFactor verb number
  | faster => lead = [] ∧ factor = number
  | slower => lead = [] ∧ factor = 1 / number
  | multiplier => ((word "at" ++ blanks).Reads before lead after ∨ lead = []) ∧ factor = number

section Readings
variable {form : SpeedForm} {before : Option Char} {lead numeral tail after : List Char}
  {parts : List (Part × Span)}

theorem Reading.eq_verb_of_mem (h : form.Reading before lead numeral tail after parts)
    {name : Part} {span : Span} (hname : (name, span) ∈ parts) : name = .verb := by
  have hnames : ∀ names ∈ form.lead.nameLists, ∀ name ∈ names, name = .verb := by
    cases form <;> decide
  exact hnames _ (names_of_readsAs h.reads_lead) name (List.mem_map_of_mem hname)

theorem Reading.asks (h : form.Reading before lead numeral tail after parts) {m : Match Part}
    (hm : m.captured = (form.part, numeral) :: parts.map fun (name, span) => (name, span.text))
    {factor : Binary64} (hfactor : Rule.speed.finding? m = some (.operation (.speed factor))) :
    ∃ number, Numeral.read? numeral = some number ∧
      form.Asks before lead (numeral ++ (tail ++ after)) number factor := by
  have hlead := h.reads_lead
  obtain ⟨start, stop, captured⟩ := m
  obtain rfl : captured = _ := hm
  cases form with
  | byVerb =>
    obtain ⟨verb, gap, _, b, rfl, rfl, hverb, hgap⟩ := readsAs_seq_assoc.1 hlead
    obtain ⟨rfl, hreads⟩ := readsAs_capture (by decide) hverb
    obtain rfl := parts_eq_nil (by decide) hgap
    simp only [List.nil_append, List.map_cons, List.map_nil, Span.text_append] at hfactor
    obtain ⟨number, hnumber, hsame⟩ := Finding.speed_direction rfl rfl hfactor
    exact ⟨number, hnumber, verb, gap, rfl, ⟨hreads, reads_of_readsAs hgap⟩,
      Operation.speed.inj hsame⟩
  | faster | multiplier =>
    obtain rfl := parts_eq_nil (by decide) hlead
    obtain ⟨number, hnumber, hsame⟩ := Option.map_eq_some_iff.1 hfactor
    cases hsame
    exact ⟨factor, hnumber, reads_of_readsAs hlead, rfl⟩
  | slower =>
    obtain rfl := parts_eq_nil (by decide) hlead
    obtain ⟨_, hread, hsame⟩ := Option.map_eq_some_iff.1 hfactor
    cases hsame
    obtain ⟨number, hnumber, rfl⟩ := Option.map_eq_some_iff.1 hread
    exact ⟨number, hnumber, reads_of_readsAs hlead, rfl⟩

end Readings

theorem isDecimalDigit_of_fixedSpeed {before : Option Char} {u after : List Char}
    (h : fixedSpeed.Reads before u after) : ∀ c ∈ u, isDecimalDigit c = false :=
  isDecimalDigit_of_reads (by decide) h

private theorem isNumeral_of_mem_classes (form : SpeedForm) :
    (∀ cls ∈ form.lead.classes, cls.isNumeral = false) ∧
      ∀ cls ∈ form.tail.classes, cls.isNumeral = false ∧ cls.accepts '.' = false := by
  cases form <;> decide

private theorem not_reads_tail_nil {form : SpeedForm} {before : Option Char}
    {after : List Char} : ¬form.tail.Reads before [] after := by
  intro h
  have hstop := canStop_of_reads h
  revert hstop
  cases form <;> cases before.any isWord <;> cases after.head?.any isWord <;> decide

section Numerals
variable {form : SpeedForm} {before : Option Char} {lead numeral tail after : List Char}
  {parts : List (Part × Span)}

theorem Reading.isDecimalDigit_lead (h : form.Reading before lead numeral tail after parts) :
    ∀ c ∈ lead, isDecimalDigit c = false :=
  isDecimalDigit_of_reads form.isNumeral_of_mem_classes.1 (reads_of_readsAs h.reads_lead)

theorem Reading.isDecimalDigit_tail (h : form.Reading before lead numeral tail after parts) :
    ∀ c ∈ tail, isDecimalDigit c = false :=
  isDecimalDigit_of_reads (fun cls hcls => (form.isNumeral_of_mem_classes.2 cls hcls).1)
    h.reads_tail

theorem Reading.ends (h : form.Reading before lead numeral tail after parts) :
    ∀ c ∈ (tail ++ after).head?, isNumeralChar c = false := by
  cases tail with
  | nil => exact absurd h.reads_tail not_reads_tail_nil
  | cons d tail =>
    intro c hc
    obtain rfl : d = c := Option.some.inj hc
    obtain ⟨cls, hcls, hacc⟩ := exists_class_of_reads h.reads_tail d List.mem_cons_self
    obtain ⟨-, hpoint⟩ := form.isNumeral_of_mem_classes.2 cls hcls
    rw [isNumeralChar, h.isDecimalDigit_tail d List.mem_cons_self, Bool.false_or,
      beq_eq_false_iff_ne]
    rintro rfl
    rw [hacc] at hpoint
    cases hpoint

end Numerals

end SpeedForm
end VideoEdit
