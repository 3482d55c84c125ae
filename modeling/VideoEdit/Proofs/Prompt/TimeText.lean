import VideoEdit.Proofs.Number.Numeral
import VideoEdit.Proofs.Pattern.Preference
import VideoEdit.Proofs.Pattern.Spelling
import VideoEdit.Proofs.Text.Fields
import VideoEdit.Prompt.Finding
/-!
# Times as they are written

A time is written as a plain number, whole or with decimals, or as a clock time of two or three
fields. The pattern of times reads each of these as a whole, and the seconds it is read as are those
that it is written for: below 2^53 a clock time is exact.
-/
namespace VideoEdit
attribute [local irreducible] unitsPerOne overflowUnits

structure Digits where
  text : List Char
  ne_nil : text ≠ []
  isDigit : text.all Char.isDigit

structure TwoDigits where
  tens : Char
  ones : Char
  isDigit_tens : tens.isDigit
  isDigit_ones : ones.isDigit

inductive Timestamp
  | minutes (m : Digits) (s : TwoDigits)
  | hours (h : Digits) (m s : TwoDigits)

/-- A time as it is written. -/
inductive TimeText
  | whole (digits : Digits)
  | decimal (digits decimals : Digits)
  | clock (time : Timestamp)

inductive TimeUnit
  | s | sec | secs | second | seconds
  | min | mins | minute | minutes
  deriving DecidableEq

namespace Digits

def number (d : Digits) : Nat := Numeral.natOfDigits d.text

end Digits

namespace TwoDigits

def digits (d : TwoDigits) : Digits where
  text := [d.tens, d.ones]
  ne_nil := List.cons_ne_nil _ _
  isDigit := by simp [d.isDigit_tens, d.isDigit_ones]

end TwoDigits

namespace Timestamp

def fields : Timestamp → List Digits
  | minutes m s => [m, s.digits]
  | hours h m s => [h, m.digits, s.digits]

def text (t : Timestamp) : List Char := [':'].intercalate (t.fields.map Digits.text)

def total : Timestamp → Nat
  | minutes m s => 60 * m.number + s.digits.number
  | hours h m s => 3600 * h.number + 60 * m.digits.number + s.digits.number

/-- The seconds of a clock time as a double, each field counting sixty of the next. -/
def seconds (t : Timestamp) : Binary64 :=
  t.fields.foldl (fun total field => total * 60 + .ofNat field.number) 0

end Timestamp

namespace TimeUnit

def text : TimeUnit → List Char
  | s => "s".toList
  | sec => "sec".toList
  | secs => "secs".toList
  | second => "second".toList
  | seconds => "seconds".toList
  | min => "min".toList
  | mins => "mins".toList
  | minute => "minute".toList
  | minutes => "minutes".toList

def isMinute : TimeUnit → Bool
  | min | mins | minute | minutes => true
  | s | sec | secs | second | seconds => false

end TimeUnit

namespace TimeText

def text : TimeText → List Char
  | whole d => d.text
  | decimal d f => d.text ++ '.' :: f.text
  | clock t => t.text

/-- The seconds of a time under a unit, which counts for a plain number only. -/
def seconds (x : TimeText) (unit : Option TimeUnit) : Binary64 :=
  let scaled (value : Binary64) := if unit.any TimeUnit.isMinute then value * 60 else value
  match x with
  | whole d => scaled (.ofNat d.number)
  | decimal d f =>
    scaled (.fraction (Numeral.natOfDigits (d.text ++ f.text)) (Nat.pow 10 f.text.length))
  | clock t => t.seconds

end TimeText

namespace Digits

theorem isDigit_of_mem (d : Digits) : ∀ c ∈ d.text, c.isDigit := List.all_eq_true.1 d.isDigit

theorem not_mem_text (d : Digits) {c : Char} (hc : c.isDigit = false) : c ∉ d.text := by
  intro hmem
  rw [d.isDigit_of_mem c hmem] at hc
  cases hc

theorem read?_text (d : Digits) : Numeral.read? d.text = some (.ofNat d.number) :=
  Numeral.read?_digits d.ne_nil d.isDigit_of_mem

end Digits

namespace Timestamp

private theorem fields_text (t : Timestamp) :
    VideoEdit.fields ':' t.text = t.fields.map Digits.text := by
  apply fields_intercalate_of_not_mem
  · cases t <;> exact List.cons_ne_nil _ _
  · intro text htext
    obtain ⟨d, -, rfl⟩ := List.mem_map.1 htext
    exact d.not_mem_text (by decide)

theorem mem_text (t : Timestamp) : ':' ∈ t.text := by
  cases t <;> simp [text, fields, List.intercalate]

private theorem clockSeconds?_text (t : Timestamp) :
    Finding.clockSeconds? t.text = some t.seconds := by
  rw [Finding.clockSeconds?, fields_text, seconds]
  generalize t.fields = fields
  generalize (0 : Binary64) = total
  induction fields generalizing total with
  | nil => rfl
  | cons d fields ih =>
    rw [List.map_cons, List.foldlM_cons, d.read?_text, List.foldl_cons]
    exact ih _

private theorem le_foldl (fields : List Digits) (n : Nat) :
    n ≤ fields.foldl (fun total field => total * 60 + field.number) n := by
  induction fields generalizing n with
  | nil => exact Nat.le_refl n
  | cons d fields ih =>
    have hrest := ih (n * 60 + d.number)
    rw [List.foldl_cons]
    omega

private theorem count_sixty {a b : Nat} (h : a * 60 + b < 2 ^ 53) :
    Binary64.ofNat a * 60 + .ofNat b = .ofNat (a * 60 + b) := by
  have hsixty : (60 : Binary64) = .ofNat 60 := rfl
  rw [hsixty]
  exact Binary64.ofNat_mul_add (by decide) (by decide) h

private theorem foldl_ofNat (fields : List Digits) (n : Nat)
    (h : fields.foldl (fun total field => total * 60 + field.number) n < 2 ^ 53) :
    fields.foldl (fun total field => total * 60 + .ofNat field.number) (.ofNat n) =
      Binary64.ofNat (fields.foldl (fun total field => total * 60 + field.number) n) := by
  induction fields generalizing n with
  | nil => rw [List.foldl_nil, List.foldl_nil]
  | cons d fields ih =>
    rw [List.foldl_cons] at h
    rw [List.foldl_cons, List.foldl_cons, count_sixty ((le_foldl fields _).trans_lt h)]
    exact ih _ h

private theorem total_eq_foldl (t : Timestamp) :
    t.total = t.fields.foldl (fun total field => total * 60 + field.number) 0 := by
  cases t with
  | minutes m s =>
    simp only [total, fields, List.foldl_cons, List.foldl_nil]
    omega
  | hours h m s =>
    simp only [total, fields, List.foldl_cons, List.foldl_nil]
    omega

theorem seconds_eq (t : Timestamp) (h : t.total < 2 ^ 53) : t.seconds = .ofNat t.total := by
  rw [total_eq_foldl] at h ⊢
  exact foldl_ofNat t.fields 0 h

end Timestamp

@[simp] theorem TimeUnit.isMinute_text (u : TimeUnit) : Finding.isMinute u.text = u.isMinute := by
  cases u <;> decide

namespace TimeText

/-- A time that is written is read as the seconds that it is written for. -/
theorem seconds?_text (x : TimeText) (unit : Option TimeUnit) :
    Finding.seconds? x.text (unit.map TimeUnit.text) = some (x.seconds unit) := by
  have hunit : (unit.map TimeUnit.text).any Finding.isMinute = unit.any TimeUnit.isMinute := by
    cases unit <;> simp
  cases x with
  | whole d =>
    have hcolon : ':' ∉ d.text := d.not_mem_text (by decide)
    rw [Finding.seconds?, text, if_neg hcolon, d.read?_text, hunit]
    rfl
  | decimal d f =>
    have hcolon : ':' ∉ d.text ++ '.' :: f.text := by
      simp [d.not_mem_text, f.not_mem_text]
    rw [Finding.seconds?, text, if_neg hcolon,
      Numeral.read?_decimal d.ne_nil d.isDigit_of_mem f.isDigit_of_mem, hunit]
    rfl
  | clock t =>
    rw [Finding.seconds?, text, if_pos t.mem_text, t.clockSeconds?_text]
    rfl

end TimeText

/-- A text that a number in front of it does not go on in: it is empty or begins with a blank. -/
def Detached (text : List Char) : Prop := ∀ c ∈ text.head?, c ∈ [' ']

private theorem detached_nil : Detached [] := by simp [Detached]

private theorem detached_blank (text : List Char) : Detached ([' '] ++ text) := by simp [Detached]

private theorem Detached.not_digit {text : List Char} (h : Detached text) :
    ∀ c ∈ text.head?, isDecimalDigit c = false := by
  intro c hc
  rw [List.mem_singleton.1 (h c hc)]
  decide

def unitText : Option TimeUnit → List Char
  | none => []
  | some u => ' ' :: u.text

def unitParts (name : Part) : Option TimeUnit → List (Part × List Char)
  | none => []
  | some u => [(name, u.text)]

section Shapes
open Pattern Phrase
variable {before : Option Char} {after : List Char}

theorem Digits.isDecimalDigit_of_mem (d : Digits) : ∀ c ∈ d.text, isDecimalDigit c :=
  fun c hc => isDecimalDigit_of_isDigit (d.isDigit_of_mem c hc)

private theorem Digits.prefers (d : Digits) (hafter : ∀ c ∈ after.head?, isDecimalDigit c = false) :
    digits.Prefers before d.text after [] :=
  prefers_oneOrMore d.ne_nil d.isDecimalDigit_of_mem hafter

private theorem TwoDigits.prefers (d : TwoDigits) :
    twoDigits.Prefers before d.digits.text after [] := by
  have htens : CharClass.digit.accepts d.tens := isDecimalDigit_of_isDigit d.isDigit_tens
  have hones : CharClass.digit.accepts d.ones := isDecimalDigit_of_isDigit d.isDigit_ones
  exact (prefers_one htens).seq (prefers_one hones)

private theorem prefers_literal (c : Char) (h : CharClass.accepts (.literal c) c) :
    (one (.literal c) ++ empty : Shape).Prefers before [c] after [] :=
  (prefers_one h).seq prefers_empty

private theorem prefers_no_fraction (h : Detached after) :
    (maybe fractional).Prefers before [] after [] :=
  prefers_maybe_nil (blocked_of_head? h (by decide))

private theorem prefers_number (d : Digits) (h : Detached after) :
    number.Prefers before d.text after [] := by
  have hdigits : digits.Prefers before d.text ([] ++ after) [] := d.prefers h.not_digit
  have hnumber := hdigits.seq (prefers_no_fraction h)
  rwa [List.append_nil] at hnumber

private theorem prefers_number_decimal (d f : Digits) (h : Detached after) :
    number.Prefers before (d.text ++ '.' :: f.text) after [] := by
  have hpoint : ∀ c ∈ ('.' :: f.text ++ after).head?, isDecimalDigit c = false := by
    intro c hc
    obtain rfl : '.' = c := by simpa using hc
    decide
  have hfraction : fractional.Prefers (lastOr before d.text) ('.' :: f.text) after [] :=
    (prefers_literal '.' (by decide)).seq (f.prefers h.not_digit)
  exact (d.prefers hpoint).seq hfraction.left

private theorem isDecimalDigit_of_reads_digits {u : List Char} (h : digits.Reads before u after) :
    ∀ c ∈ u, isDecimalDigit c :=
  (reads_oneOrMore.1 h).2

private theorem blocked_clock (d : Digits) (hdigit : ∀ c ∈ after.head?, isDecimalDigit c = false)
    (hcolon : ∀ c ∈ after.head?, c ≠ ':') {p q r : Shape} :
    (digits ++ word ":" ++ p ++ q ++ r).Blocked before (d.text ++ after) := by
  apply blocked_of_not_reads
  rintro _ rest htext ⟨_, _, rfl, ⟨_, _, rfl, ⟨_, _, rfl, ⟨v, w, rfl, hv, hw⟩, -⟩, -⟩, -⟩
  -- The colon would have to stand where the digits end.
  obtain rfl : w = [':'] := (reads_word.1 hw).eq_of_not_isAlpha (by decide)
  simp only [List.append_assoc, List.cons_append] at htext
  obtain ⟨-, rfl⟩ := run_unique htext d.isDecimalDigit_of_mem
    (isDecimalDigit_of_reads_digits hv) hdigit (by simp; decide)
  exact hcolon ':' rfl rfl

private theorem prefers_field (d : TwoDigits) :
    (word ":" ++ twoDigits : Shape).Prefers before (':' :: d.digits.text) after [] :=
  (prefers_literal ':' (by decide)).seq d.prefers

private theorem prefers_lead (d : Digits) (s : TwoDigits) :
    (digits ++ word ":" ++ twoDigits).Prefers before (d.text ++ [':'] ++ s.digits.text) after [] := by
  have hcolon : ∀ c ∈ ([':'] ++ (s.digits.text ++ after)).head?, isDecimalDigit c = false := by
    simp
    decide
  exact ((d.prefers hcolon).seq (prefers_literal ':' (by decide))).seq s.prefers

private theorem Timestamp.prefers (t : Timestamp) (h : Detached after) :
    (digits ++ word ":" ++ twoDigits ++ maybe (word ":" ++ twoDigits) ++
      maybe fractional).Prefers before t.text after [] := by
  cases t with
  | minutes m s =>
    have hfield : (maybe (word ":" ++ twoDigits)).Prefers
        (lastOr before (m.text ++ [':'] ++ s.digits.text)) [] after [] :=
      prefers_maybe_nil (blocked_of_head? h (by decide))
    have hclock := ((prefers_lead m s).seq hfield).seq (prefers_no_fraction h)
    have htext : (minutes m s).text = m.text ++ [':'] ++ s.digits.text ++ [] ++ [] := by
      simp [text, fields, List.intercalate]
    rw [htext]
    exact hclock
  | hours hh m s =>
    have hfield : (maybe (word ":" ++ twoDigits)).Prefers
        (lastOr before (hh.text ++ [':'] ++ m.digits.text)) (':' :: s.digits.text) after [] :=
      (prefers_field s).left
    have hclock := ((prefers_lead hh m).seq hfield).seq (prefers_no_fraction h)
    have htext : (hours hh m s).text =
        hh.text ++ [':'] ++ m.digits.text ++ ':' :: s.digits.text ++ [] := by
      simp [text, fields, List.intercalate]
    rw [htext]
    exact hclock

private theorem TimeText.prefers (x : TimeText) (h : Detached after) :
    time.Prefers before x.text after [] := by
  cases x with
  | whole d =>
    apply Prefers.right
    · apply blocked_clock d h.not_digit
      intro c hc
      rw [List.mem_singleton.1 (h c hc)]
      decide
    · exact prefers_number d h
  | decimal d f =>
    apply Prefers.right
    · rw [TimeText.text, List.append_assoc]
      exact blocked_clock d (by simp; decide) (by simp)
    · exact prefers_number_decimal d f h
  | clock t =>
    exact (t.prefers h).left

private theorem TimeUnit.prefers (u : TimeUnit) (h : Detached after) :
    unit.Prefers before u.text after [] := by
  cases after with
  | nil => cases u <;> exact fun captured => ⟨_, rfl, rfl, rfl, rfl⟩
  | cons c after =>
    obtain rfl := List.mem_singleton.1 (h c rfl)
    cases u <;> exact fun captured => ⟨_, rfl, rfl, rfl, rfl⟩

theorem prefers_blank (h : ∀ c ∈ after.head?, isBlank c = false) :
    anyBlanks.Prefers before [' '] after [] :=
  prefers_many (List.all_eq_true.1 (by decide)) h

private theorem prefers_no_blank (h : ∀ c ∈ after.head?, isBlank c = false) :
    anyBlanks.Prefers before [] after [] :=
  prefers_many (by simp) h

private theorem prefers_no_unit (name : Part) (h : ∀ c ∈ after.head?, c ∈ ['t']) :
    (maybe (capture name unit)).Prefers before [] after [] := by
  -- No unit begins with the first letter of "to".
  have hbegins : ∀ left, (∀ right, unit.canStop left right = false) ∧
      ∀ s ∈ unit.steps left, ['t'].all fun c => s.1.accepts c = false := by decide
  exact prefers_maybe_nil (blocked_of_head? h hbegins)

private theorem TimeText.prefers_timed_some (x : TimeText) (u : TimeUnit) (value units : Part)
    (h : Detached after) : (timed value units).Prefers before (x.text ++ unitText (some u)) after
      [(units, u.text), (value, x.text)] := by
  have hblank : ∀ c ∈ (u.text ++ after).head?, isBlank c = false := by
    have hletters : ∃ (c : Char) (rest : List Char), u.text = c :: rest ∧ isBlank c = false := by
      cases u <;> exact ⟨_, _, rfl, by decide⟩
    obtain ⟨c, rest, hu, hc⟩ := hletters
    simpa [hu] using hc
  have htime : (capture value time).Prefers before x.text ([' '] ++ (u.text ++ after))
      [(value, x.text)] := (x.prefers (detached_blank _)).capture value
  have hunit : (maybe (capture units unit)).Prefers (lastOr before (x.text ++ [' '])) u.text after
      [(units, u.text)] := ((u.prefers h).capture units).left
  have htimed := (htime.seq (prefers_blank hblank)).seq hunit
  rwa [List.append_assoc] at htimed

private theorem TimeText.prefers_timed_end (x : TimeText) (u : Option TimeUnit)
    (value units : Part) :
    (timed value units).Prefers before (x.text ++ unitText u) []
      (unitParts units u ++ [(value, x.text)]) := by
  cases u with
  | none =>
    have htime : (capture value time).Prefers before x.text [] [(value, x.text)] :=
      (x.prefers detached_nil).capture value
    have hblanks : anyBlanks.Prefers (lastOr before x.text) [] [] [] := prefers_no_blank (by simp)
    have htimed := (htime.seq hblanks).seq (prefers_no_unit units (by simp))
    rwa [List.append_nil] at htimed
  | some u => exact x.prefers_timed_some u value units detached_nil

theorem TimeText.isWord_lastOr (x : TimeText) (u : Option TimeUnit) :
    (lastOr before (x.text ++ unitText u)).any isWord := by
  cases u with
  | none =>
    have hreads : time.Reads before x.text [] := (x.prefers detached_nil).reads
    rw [unitText, List.append_nil]
    exact isWord_of_endsInWord (by decide) hreads
  | some u =>
    have hreads : unit.Reads (lastOr before (x.text ++ [' '])) u.text [] :=
      (u.prefers detached_nil).reads
    rw [unitText, List.append_cons, lastOr_append]
    exact isWord_of_endsInWord (by decide) hreads

theorem TimeText.prefers_timed_boundary (x : TimeText) (u : Option TimeUnit) (value units : Part)
    {p : Shape} {start : List Char} {parts : List (Part × List Char)}
    (hp : p.Prefers before start (x.text ++ unitText u) parts) :
    (p ++ timed value units ++ wordBoundary).Prefers before (start ++ (x.text ++ unitText u)) []
      (unitParts units u ++ (value, x.text) :: parts) := by
  have hstart : p.Prefers before start (x.text ++ unitText u ++ []) parts := by
    rwa [List.append_nil]
  have hend : Scan.boundary (lastOr before (start ++ (x.text ++ unitText u))) [] := by
    rw [lastOr_append, Scan.boundary, x.isWord_lastOr]
    rfl
  have hall := (hstart.seq (x.prefers_timed_end u value units)).seq (prefers_wordBoundary hend)
  simpa using hall

theorem TimeText.prefers_timed_to (x : TimeText) (u : Option TimeUnit) (value units : Part)
    {p : Shape} {start : List Char} {parts : List (Part × List Char)}
    (h : ∀ c ∈ after.head?, c ∈ ['t'])
    (hp : p.Prefers before start (x.text ++ unitText u ++ [' '] ++ after) parts) :
    (p ++ timed value units ++ anyBlanks).Prefers before (start ++ x.text ++ unitText u ++ [' '])
      after (unitParts units u ++ (value, x.text) :: parts) := by
  have hblank : ∀ c ∈ after.head?, isBlank c = false := by
    intro c hc
    rw [List.mem_singleton.1 (h c hc)]
    decide
  cases u with
  | none =>
    have htime : (capture value time).Prefers (lastOr before start) x.text ([' '] ++ after)
        [(value, x.text)] := (x.prefers (detached_blank _)).capture value
    have htimed : (timed value units).Prefers _ _ _ _ :=
      (htime.seq (prefers_blank hblank)).seq (prefers_no_unit units h)
    have hstart : p.Prefers before start (x.text ++ [' '] ++ [] ++ after) parts := by
      simpa [unitText] using hp
    have hall := (hstart.seq htimed).seq (prefers_no_blank hblank)
    simpa [unitText, unitParts] using hall
  | some u =>
    have htimed : (timed value units).Prefers (lastOr before start) (x.text ++ unitText (some u))
        ([' '] ++ after) [(units, u.text), (value, x.text)] :=
      x.prefers_timed_some u value units (detached_blank _)
    rw [List.append_assoc] at hp
    have hall := (hp.seq htimed).seq (prefers_blank hblank)
    simpa [unitParts] using hall

theorem TimeText.head_mem (x : TimeText) : ∀ c ∈ (x.text ++ after).head?, c ∈ asciiDigits := by
  have hdigits : ∃ (d : Digits) (more : List Char), x.text = d.text ++ more := by
    cases x with
    | whole d => exact ⟨d, [], (List.append_nil _).symm⟩
    | decimal d f => exact ⟨d, _, rfl⟩
    | clock t => cases t <;> exact ⟨_, _, List.intercalate_cons_cons.trans (List.append_assoc ..)⟩
  obtain ⟨d, more, hx⟩ := hdigits
  obtain ⟨c, rest, hd⟩ := List.exists_cons_of_ne_nil d.ne_nil
  intro e he
  rw [hx, hd, List.cons_append, List.cons_append, List.head?_cons, Option.mem_some_iff] at he
  rw [← he]
  exact mem_asciiDigits_of_isDigit (d.isDigit_of_mem c (by simp [hd]))

end Shapes
end VideoEdit
