import VideoEdit.Proofs.Invocation.Numbers
import VideoEdit.Proofs.Number.Nearest
/-!
# The times of a compiled window

A window is compiled to a time to seek to and a length, both to the places of the settings. But for
the rounding it begins and ends where the plan says; a length of half of the last place or less is
rounded to nothing.
-/
namespace VideoEdit
-- Numbers with thousands of bits; no proof may compute with them.
attribute [local irreducible] unitsPerOne overflowUnits
open Binary64

namespace Arguments

def time? (flag : String) (items : List Item) : Option (Option ℚ) :=
  match valuesOf flag items with
  | [] => some none
  | [text] => (Decimal.read? text.toList).map some
  | _ => none

/-- The time that arguments seek to, and the length to which they limit the output. -/
def window? (arguments : List String) : Option (Option ℚ × Option ℚ) := do
  let items ← read? arguments
  return (← time? "-ss" items, ← time? "-t" items)

private theorem time?_of_times {flag : String} {items : List Item} {settings : Settings}
    {time : Option Binary64} (h : valuesOf flag items = times settings time)
    (hfinite : ∀ t, time = some t → t.isFinite) :
    time? flag items = some (time.map (atPlaces settings.timePrecision)) := by
  unfold time?
  rw [h]
  cases time with
  | none => rfl
  | some t =>
    have hread := read?_toFixed (hfinite t rfl) settings.timePrecision
    rw [← String.toList_ofList (l := t.toFixed _)] at hread
    exact congrArg (Option.map some) hread

section Window
variable (e : Extraction) (policy : DuplicatePolicy) (settings : Settings) (input output : String)

private theorem window?_compile :
    window? ((e.plan policy).compile input output settings).dropLast =
      some ((e.plan policy).seek?.map (atPlaces settings.timePrecision),
        (e.plan policy).length?.map (atPlaces settings.timePrecision)) := by
  obtain ⟨items, hread, hseek, hlength, -, -⟩ :=
    exists_values (e.plan policy) settings input output
  have hstart := time?_of_times hseek fun t ht => isFinite_of_seek? e policy ht
  have hlimit := time?_of_times hlength fun t ht => isFinite_of_length? e policy ht
  unfold window?
  rw [hread, Option.bind_eq_bind, Option.bind_some, hstart, hlimit]
  rfl

variable {start finish : Binary64}

private theorem length?_of_trim (h : .trim start (some finish) ∈ (e.plan policy).operations) :
    (e.plan policy).length? = some (finish - start) := by
  have hless := (window_bounds e policy h).2.2
  rw [Plan.length?, (e.plan_trim?_iff policy start (some finish)).2 h, Option.bind_some]
  simp only [Option.filter_some_pos hless, Option.map_some]

private theorem seek_error (h : .trim start (some finish) ∈ (e.plan policy).operations)
    (places : Nat) :
    |((e.plan policy).seek?.map (atPlaces places)).getD 0 - start.value| ≤
      1 / (2 * 10 ^ places) := by
  obtain ⟨⟨hstart, hzero⟩, -⟩ := window_bounds e policy h
  rw [Plan.seek?, (e.plan_trim?_iff policy start (some finish)).2 h, Option.map_some]
  by_cases hpos : Binary64.less 0 start
  · rw [Option.filter_some_pos hpos, Option.map_some, Option.getD_some]
    exact atPlaces_error places hstart
  · have hvalue : start.value = 0 := by
      have hle := not_lt.1 (mt (zero_less_iff_value hstart).2 hpos)
      exact le_antisymm hle ((zero_atMost_iff_value hstart).1 hzero)
    rw [Option.filter_some_neg (Bool.eq_false_of_not_eq_true hpos), Option.map_none,
      Option.getD_none, hvalue, sub_self, abs_zero]
    positivity

/-- A compiled window starts where the plan says, to half of the last place, and ends there to one
unit of the last place and the rounding of its length to a double. -/
theorem compile_window_error (h : .trim start (some finish) ∈ (e.plan policy).operations) :
    ∃ seek length,
      window? ((e.plan policy).compile input output settings).dropLast = some (seek, some length) ∧
        |seek.getD 0 - start.value| ≤ 1 / (2 * 10 ^ settings.timePrecision) ∧
        |seek.getD 0 + length - finish.value| ≤
          1 / 10 ^ settings.timePrecision + (finish.value - start.value) / 2 ^ 53 := by
  obtain ⟨⟨hstart, hzero⟩, hfinish, hless⟩ := window_bounds e policy h
  have hwindow := window?_compile e policy settings input output
  rw [length?_of_trim e policy h, Option.map_some] at hwindow
  have hseek := seek_error e policy h settings.timePrecision
  refine ⟨_, _, hwindow, hseek, ?_⟩
  have hlength := atPlaces_error settings.timePrecision (isFinite_sub hstart hfinish hzero hless)
  have hexact := sub_error hstart hfinish hzero hless
  generalize ((e.plan policy).seek?.map (atPlaces settings.timePrecision)).getD 0 = seek at *
  generalize (finish - start).atPlaces settings.timePrecision = length at *
  have hsplit : seek + length - finish.value =
      (seek - start.value) + (length - (finish - start).value) +
        ((finish - start).value - (finish.value - start.value)) := by
    ring
  rw [mul_comm, ← div_div] at hseek hlength
  rw [hsplit, ← add_halves (1 / 10 ^ settings.timePrecision)]
  exact (abs_add_three _ _ _).trans (add_le_add (add_le_add hseek hlength) hexact)

/-- From a tenth to three tenths of a second; the doubles nearest to these are a little less than a
fifth apart. -/
theorem compile_window_error_tenths :
    let e : Extraction := ⟨[⟨0, .bounds, .trim (.fraction 1 10) (some (.fraction 3 10))⟩], .mp4⟩
    .trim (.fraction 1 10) (some (.fraction 3 10)) ∈ (e.plan .first).operations ∧
      window? ((e.plan .first).compile "in.mp4" "out.mp4" {}).dropLast =
        some (some (1 / 10), some (1 / 5)) ∧
      |(1 / 10 : ℚ) + 1 / 5 - (Binary64.fraction 3 10).value| ≤
        1 / 10 ^ 2 +
          ((Binary64.fraction 3 10).value - (Binary64.fraction 1 10).value) / 2 ^ 53 := by
  intro e
  have h : .trim (.fraction 1 10) (some (.fraction 3 10)) ∈ (e.plan .first).operations := by
    decide +kernel
  have hread : window? ((e.plan .first).compile "in.mp4" "out.mp4" {}).dropLast =
      some (some (1 / 10), some (1 / 5)) := by
    decide +kernel
  obtain ⟨seek, length, hwindow, -, hend⟩ :=
    compile_window_error e .first {} "in.mp4" "out.mp4" h
  rw [hread, Option.some.injEq, Prod.mk.injEq, Option.some.injEq] at hwindow
  obtain ⟨rfl, rfl⟩ := hwindow
  exact ⟨h, hread, hend⟩

/-- A compiled window has a length exactly if its length is more than half of the last place, and so
if the times of the plan are a unit of the last place apart. -/
theorem compile_length_pos_iff (h : .trim start (some finish) ∈ (e.plan policy).operations) :
    ∃ seek length,
      window? ((e.plan policy).compile input output settings).dropLast = some (seek, some length) ∧
        0 ≤ length ∧
        (0 < length ↔ 1 / (2 * 10 ^ settings.timePrecision) < (finish - start).value) ∧
        (1 / 10 ^ settings.timePrecision ≤ finish.value - start.value → 0 < length) := by
  obtain ⟨⟨hstart, hzero⟩, hfinish, hless⟩ := window_bounds e policy h
  have hwindow := window?_compile e policy settings input output
  rw [length?_of_trim e policy h, Option.map_some] at hwindow
  have hfinite := isFinite_sub hstart hfinish hzero hless
  have hpos := atPlaces_pos_iff hfinite settings.timePrecision
  refine ⟨_, _, hwindow, ?nonneg, hpos, fun hplace => hpos.2 ?long⟩
  case nonneg =>
    obtain ⟨n, hn, hsub, -⟩ := exists_sub hstart hfinish hzero hless
    rw [hsub]
    exact div_nonneg (Nat.cast_nonneg _) (by positivity)
  case long =>
    -- Rounding to a double takes far less than half away.
    have hexact := (abs_le.1 (sub_error hstart hfinish hzero hless)).1
    have hpow : (0 : ℚ) < 1 / 10 ^ settings.timePrecision := by positivity
    rw [mul_comm, ← div_div]
    linarith

/-- To whole seconds, six tenths of a second are one second. -/
theorem compile_length_pos_iff_whole :
    let e : Extraction := ⟨[⟨0, .bounds, .trim 0 (some (.fraction 6 10))⟩], .gif⟩
    .trim 0 (some (.fraction 6 10)) ∈ (e.plan .last).operations ∧
      window? ((e.plan .last).compile "in.mp4" "out.gif" { timePrecision := 0 }).dropLast =
        some (none, some 1) ∧ (0 : ℚ) < 1 := by
  intro e
  have h : .trim 0 (some (.fraction 6 10)) ∈ (e.plan .last).operations := by decide +kernel
  have hread : window? ((e.plan .last).compile "in.mp4" "out.gif" { timePrecision := 0 }).dropLast =
      some (none, some 1) := by
    decide +kernel
  have hhalf : 1 / (2 * 10 ^ 0) < (.fraction 6 10 - 0 : Binary64).value := by decide +kernel
  obtain ⟨seek, length, hwindow, -, hpos, -⟩ :=
    compile_length_pos_iff e .last { timePrecision := 0 } "in.mp4" "out.gif" h
  rw [hread, Option.some.injEq, Prod.mk.injEq, Option.some.injEq] at hwindow
  obtain ⟨rfl, rfl⟩ := hwindow
  exact ⟨h, hread, hpos.2 hhalf⟩

/-- To two places, four thousandths of a second are no time at all, although the settings can be
used and the window of the plan ends after its start. -/
theorem compile_length_zero :
    let e : Extraction := ⟨[⟨0, .phrase .trimRange, .trim 0 (some (.fraction 4 1000))⟩], .mp4⟩
    .trim 0 (some (.fraction 4 1000)) ∈ (e.plan .first).operations ∧
      ({} : Settings).check = .ok () ∧
      window? ((e.plan .first).compile "in.mp4" "out.mp4" {}).dropLast = some (none, some 0) := by
  refine ⟨by decide +kernel, by decide +kernel, by decide +kernel⟩

end Window

end Arguments
end VideoEdit
