import Mathlib.Data.List.Forall2
import VideoEdit.Edit.Description
import VideoEdit.Proofs.Edit.Selection
import VideoEdit.Proofs.Number.Nearest
/-!
# What a description tells

The lines that describe a plan tell its operations apart up to the places to which their numbers are
printed, and tell no more: plans are described alike exactly if their operations are alike, one by
one.
-/
namespace VideoEdit
-- Numbers with thousands of bits; no proof may compute with them.
attribute [local irreducible] unitsPerOne overflowUnits
open Binary64

private theorem append_cons_eq_iff {c : Char} {front front' back back' : List Char}
    (h : c ∉ front) (h' : c ∉ front') :
    front ++ c :: back = front' ++ c :: back' ↔ front = front' ∧ back = back' := by
  have htake {text : List Char} (rest : List Char) (hc : c ∉ text) :
      (text ++ c :: rest).takeWhile (· ≠ c) = text := by
    have hall : ∀ d ∈ text, decide (d ≠ c) := by
      rintro d hd
      rw [decide_eq_true_iff]
      rintro rfl
      exact hc hd
    rw [List.takeWhile_append_of_pos hall, List.takeWhile_cons_of_neg (by simp), List.append_nil]
  constructor
  · intro heq
    have hfront : front = front' := by rw [← htake back h, heq, htake back' h']
    subst hfront
    exact ⟨rfl, List.tail_eq_of_cons_eq (List.append_cancel_left heq)⟩
  · rintro ⟨rfl, rfl⟩
    rfl

private theorem decimalText_eq_iff {x y : Binary64} (hx : x.isFinite) (hy : y.isFinite)
    {places : Nat} (h : places ≠ 0) : decimalText places x = decimalText places y ↔
      x.rounded places = y.rounded places := by
  rw [decimalText, decimalText, String.ofList_inj, toDecimal_eq_iff hx hy h]

private theorem rounded_neg_eq_abs {x : Binary64} (h : x.value < 0) (places : Nat) :
    (-x).rounded places = nearestEven (|x.value| * 10 ^ places) := by
  rw [rounded, value_neg, abs_of_neg h]

private theorem rounded_eq_abs {x : Binary64} (h : ¬x.value < 0) (places : Nat) :
    x.rounded places = nearestEven (|x.value| * 10 ^ places) := by
  rw [rounded, abs_of_nonneg (not_lt.1 h)]

namespace Operation

/-- Operations of one kind whose numbers agree to the places that are printed. A change of the
brightness is a direction and an amount. -/
inductive Alike : Operation → Operation → Prop
  | trim {start start' : Binary64} {finish finish' : Option Binary64}
      (opening : start.rounded 2 = start'.rounded 2)
      (closing : finish.map (rounded 2) = finish'.map (rounded 2)) :
      Alike (trim start finish) (trim start' finish')
  | grayscale : Alike grayscale grayscale
  | speed {factor factor' : Binary64} (multiple : factor.rounded 4 = factor'.rounded 4) :
      Alike (speed factor) (speed factor')
  | mute : Alike mute mute
  | brightness {change change' : Binary64} (direction : change.value < 0 ↔ change'.value < 0)
      (amount : nearestEven (|change.value| * 10 ^ 2) = nearestEven (|change'.value| * 10 ^ 2)) :
      Alike (brightness change) (brightness change')
  | crop (mode : CropMode) : Alike (crop mode) (crop mode)

private theorem Alike.kind_eq {op op' : Operation} (h : op.Alike op') : op.kind = op'.kind := by
  cases h <;> rfl

section Lines
variable {start start' factor factor' change change' : Binary64} {finish finish' : Option Binary64}

private def closing : Option Binary64 → String
  | none => "end"
  | some finish => decimalText 2 finish ++ "s"

private theorem closing_eq_iff (h : ∀ t ∈ finish, t.isFinite) (h' : ∀ t ∈ finish', t.isFinite) :
    closing finish = closing finish' ↔ finish.map (rounded 2) = finish'.map (rounded 2) := by
  -- Only a number ends in an s.
  have hend (t : Binary64) : closing none ≠ closing (some t) := by
    intro heq
    have hlast := congrArg (fun text => text.toList.getLast?) heq
    simp [closing] at hlast
  cases finish with
  | none => cases finish' with
    | none => exact iff_of_true rfl rfl
    | some t => exact iff_of_false (hend t) (by simp)
  | some t => cases finish' with
    | none => exact iff_of_false (hend t).symm (by simp)
    | some t' =>
      rw [closing, closing, String.append_left_inj, Option.map_some, Option.map_some,
        Option.some.injEq, decimalText_eq_iff (h t rfl) (h' t' rfl) two_ne_zero]

private theorem description_trim (start : Binary64) (finish : Option Binary64) :
    (trim start finish).description =
      "Trim from " ++ (decimalText 2 start ++ "s to " ++ closing finish) := by
  rw [← String.append_assoc, ← String.append_assoc]
  cases finish <;> rfl

private theorem description_trim_eq_iff (hstart : start.isFinite) (hstart' : start'.isFinite)
    (hfinish : ∀ t ∈ finish, t.isFinite) (hfinish' : ∀ t ∈ finish', t.isFinite) :
    (trim start finish).description = (trim start' finish').description ↔
      start.rounded 2 = start'.rounded 2 ∧
        finish.map (rounded 2) = finish'.map (rounded 2) := by
  -- The first s of the line ends the start.
  have hnot (x : Binary64) : 's' ∉ x.toDecimal 2 := not_mem_toDecimal (by decide) 2 x
  have hsplit (x : Binary64) (ending : String) :
      (decimalText 2 x ++ "s to " ++ ending).toList =
        x.toDecimal 2 ++ 's' :: (" to " ++ ending).toList := by
    simp [decimalText]
  rw [description_trim, description_trim, String.append_right_inj, ← String.toList_inj, hsplit,
    hsplit, append_cons_eq_iff (hnot start) (hnot start'), String.toList_inj,
    String.append_right_inj, toDecimal_eq_iff hstart hstart' two_ne_zero,
    closing_eq_iff hfinish hfinish']

private theorem description_speed (factor : Binary64) :
    (speed factor).description =
      "Change playback speed to " ++ decimalText 4 factor ++ "x" := rfl

private theorem description_brightness (change : Binary64) :
    (brightness change).description =
      if change.less 0 then "Decrease brightness by " ++ decimalText 2 (-change)
      else "Increase brightness by " ++ decimalText 2 change := rfl

private theorem description_speed_eq_iff (h : factor.isFinite) (h' : factor'.isFinite) :
    (speed factor).description = (speed factor').description ↔
      factor.rounded 4 = factor'.rounded 4 := by
  rw [description_speed, description_speed, String.append_left_inj, String.append_right_inj,
    decimalText_eq_iff h h' four_ne_zero]

private theorem description_brightness_eq_iff (h : change.isFinite) (h' : change'.isFinite) :
    (brightness change).description = (brightness change').description ↔
      (change.value < 0 ↔ change'.value < 0) ∧
        nearestEven (|change.value| * 10 ^ 2) = nearestEven (|change'.value| * 10 ^ 2) := by
  have hdown {x : Binary64} (hx : x.isFinite) (hneg : x.value < 0) :
      (brightness x).description = "Decrease brightness by " ++ decimalText 2 (-x) :=
    if_pos ((less_zero_iff_value hx).2 hneg)
  have hup {x : Binary64} (hx : x.isFinite) (hneg : ¬x.value < 0) :
      (brightness x).description = "Increase brightness by " ++ decimalText 2 x :=
    if_neg (mt (less_zero_iff_value hx).1 hneg)
  have hdiffer (a b : String) :
      "Decrease brightness by " ++ a ≠ "Increase brightness by " ++ b := by
    intro heq
    have hhead := congrArg (fun text => text.toList.head?) heq
    simp at hhead
  by_cases hneg : change.value < 0
  · by_cases hneg' : change'.value < 0
    · rw [hdown h hneg, hdown h' hneg', String.append_right_inj,
        decimalText_eq_iff (isFinite_neg h) (isFinite_neg h') two_ne_zero,
        rounded_neg_eq_abs hneg, rounded_neg_eq_abs hneg', iff_true_intro hneg,
        iff_true_intro hneg', iff_self, true_and]
    · rw [hdown h hneg, hup h' hneg']
      exact iff_of_false (hdiffer _ _) fun hboth => hneg' (hboth.1.1 hneg)
  · by_cases hneg' : change'.value < 0
    · rw [hup h hneg, hdown h' hneg']
      exact iff_of_false (hdiffer _ _).symm fun hboth => hneg (hboth.1.2 hneg')
    · rw [hup h hneg, hup h' hneg', String.append_right_inj,
        decimalText_eq_iff h h' two_ne_zero, rounded_eq_abs hneg, rounded_eq_abs hneg',
        iff_false_intro hneg, iff_false_intro hneg', iff_self, true_and]

/-- The kind of effect that the first letters of a line tell. -/
private def kindOf : List Char → Kind
  | 'T' :: _ => .trim
  | 'C' :: 'o' :: _ => .grayscale
  | 'C' :: 'h' :: _ => .speed
  | 'D' :: _ | 'I' :: _ => .brightness
  | 'C' :: 'r' :: _ | 'S' :: _ => .crop
  | _ => .mute

private theorem kindOf_description (op : Operation) :
    kindOf op.description.toList = op.kind := by
  cases op with
  | trim start finish =>
    rw [description_trim, String.toList_append]
    rfl
  | grayscale | mute => decide
  | speed factor =>
    rw [description_speed, String.toList_append, String.toList_append]
    rfl
  | brightness change =>
    rw [description_brightness]
    split_ifs
    all_goals
      rw [String.toList_append]
      rfl
  | crop mode => cases mode <;> decide

private theorem finite_of_valid_trim (h : (trim start finish).isValid) :
    start.isFinite ∧ ∀ t ∈ finish, t.isFinite := by
  simp only [isValid, Bool.and_eq_true, Option.all_eq_true] at h
  exact ⟨h.1.1, fun t ht => (h.2 t ht).1⟩

private theorem finite_of_valid_speed (h : (speed factor).isValid) : factor.isFinite := by
  simp only [isValid, Bool.and_eq_true] at h
  exact h.1

private theorem finite_of_valid_brightness (h : (brightness change).isValid) :
    change.isFinite := by
  simp only [isValid, Bool.and_eq_true] at h
  exact h.1.1

end Lines

/-- Valid operations are described by one line exactly if they are alike. -/
theorem description_eq_iff {op op' : Operation} (h : op.isValid) (h' : op'.isValid) :
    op.description = op'.description ↔ op.Alike op' := by
  by_cases hkind : op.kind = op'.kind
  · cases op with
    | trim start finish => cases op' with
      | trim start' finish' =>
        obtain ⟨hstart, hfinish⟩ := finite_of_valid_trim h
        obtain ⟨hstart', hfinish'⟩ := finite_of_valid_trim h'
        rw [description_trim_eq_iff hstart hstart' hfinish hfinish']
        exact ⟨fun heq => .trim heq.1 heq.2, fun | .trim opening closing => ⟨opening, closing⟩⟩
      | _ => cases hkind
    | grayscale => cases op' with
      | grayscale => exact iff_of_true rfl .grayscale
      | _ => cases hkind
    | speed factor => cases op' with
      | speed factor' =>
        rw [description_speed_eq_iff (finite_of_valid_speed h) (finite_of_valid_speed h')]
        exact ⟨.speed, fun | .speed multiple => multiple⟩
      | _ => cases hkind
    | mute => cases op' with
      | mute => exact iff_of_true rfl .mute
      | _ => cases hkind
    | brightness change => cases op' with
      | brightness change' =>
        rw [description_brightness_eq_iff (finite_of_valid_brightness h)
          (finite_of_valid_brightness h')]
        exact ⟨fun heq => .brightness heq.1 heq.2,
          fun | .brightness direction amount => ⟨direction, amount⟩⟩
      | _ => cases hkind
    | crop mode => cases op' with
      | crop mode' =>
        have hmode : (crop mode).description = (crop mode').description ↔ mode = mode' := by
          cases mode <;> cases mode' <;> decide
        rw [hmode]
        exact ⟨fun heq => heq ▸ .crop mode, fun | .crop _ => rfl⟩
      | _ => cases hkind
  · have hdiffer : op.description ≠ op'.description := by
      intro heq
      apply hkind
      rw [← kindOf_description, heq, kindOf_description]
    exact iff_of_false hdiffer fun halike => hkind halike.kind_eq

end Operation

/-- Plans are described by the same lines exactly if their operations are alike, one by one. -/
theorem Extraction.plan_description_eq_iff (e e' : Extraction) (policy policy' : DuplicatePolicy) :
    (e.plan policy).description = (e'.plan policy').description ↔
      List.Forall₂ Operation.Alike (e.plan policy).operations (e'.plan policy').operations := by
  have hvalid : ∀ op ∈ (e.plan policy).operations, op.isValid := fun _ => e.plan_valid policy
  have hvalid' : ∀ op ∈ (e'.plan policy').operations, op.isValid := fun _ => e'.plan_valid policy'
  rw [Plan.description, Plan.description]
  generalize (e.plan policy).operations = ops at hvalid
  generalize (e'.plan policy').operations = ops' at hvalid'
  induction ops generalizing ops' with
  | nil =>
    rw [List.forall₂_nil_left_iff, List.map_nil, eq_comm, List.map_eq_nil_iff]
  | cons op ops ih =>
    cases ops' with
    | nil => exact iff_of_false (List.cons_ne_nil _ _) nofun
    | cons op' ops' =>
      have hrest : ops.map Operation.description = ops'.map Operation.description ↔
          List.Forall₂ Operation.Alike ops ops' :=
        ih (fun o ho => hvalid o (List.mem_cons_of_mem op ho)) ops'
          fun o ho => hvalid' o (List.mem_cons_of_mem op' ho)
      rw [List.map_cons, List.map_cons, List.cons.injEq, List.forall₂_cons, hrest,
        Operation.description_eq_iff (hvalid op List.mem_cons_self)
          (hvalid' op' List.mem_cons_self)]

end VideoEdit
