import Mathlib.Algebra.Order.Ring.Nat
import Mathlib.Data.List.Induction
import Mathlib.Tactic.Positivity
import VideoEdit.Number.Numeral
import VideoEdit.Number.Radix
/-!
# Digits and the numbers that they denote

Digits are read from the front. As many digits denote as many numbers, so equally many that denote
the same number are the same; and a number that no zero leads has the fewest digits.
-/
namespace VideoEdit

theorem not_mem_toDigits {c : Char} (h : c.isDigit = false) (n : Nat) : c ∉ Nat.toDigits 10 n := by
  intro hmem
  rw [Nat.isDigit_of_mem_toDigits (by decide) (by decide) hmem] at h
  cases h

theorem natInBase?_concat (base : Nat) (digits : List Char) (c : Char) :
    natInBase? base (digits ++ [c]) =
      (natInBase? base digits).bind fun n => (digitIn? base c).map (base * n + ·) := by
  simp only [natInBase?, List.foldlM_append, List.foldlM_cons, List.foldlM_nil, bind_pure]
  rfl

namespace Numeral

private theorem natOfDigits_append (front back : List Char) :
    natOfDigits (front ++ back) = natOfDigits front * 10 ^ back.length + natOfDigits back := by
  rw [natOfDigits, Nat.ofDigitChars_append, Nat.ofDigitChars_eq_ofDigitChars_zero, Nat.mul_comm]
  rfl

private theorem natOfDigits_singleton (c : Char) : natOfDigits [c] = c.toNat - 48 :=
  Nat.zero_add _

private theorem natOfDigits_concat (digits : List Char) (c : Char) :
    natOfDigits (digits ++ [c]) = natOfDigits digits * 10 + (c.toNat - 48) := by
  rw [natOfDigits_append, natOfDigits_singleton, List.length_singleton, pow_one]

theorem digit_bounds {c : Char} (h : c.isDigit) : 48 ≤ c.toNat ∧ c.toNat ≤ 57 := by
  simpa [Char.isDigit, UInt32.le_iff_toNat_le] using h

private theorem toNat_ne_of_ne_zero {c : Char} (h : c ≠ '0') : c.toNat ≠ 48 :=
  fun hvalue => h (Char.toNat_inj.1 hvalue)

variable {digits digits' : List Char}

theorem natOfDigits_lt (h : ∀ c ∈ digits, c.isDigit) :
    natOfDigits digits < 10 ^ digits.length := by
  induction digits using List.reverseRecOn with
  | nil => exact Nat.one_pos
  | append_singleton digits c ih =>
    have hlt := ih fun d hd => h d (List.mem_append_left _ hd)
    have hdigit := digit_bounds (h c (by simp))
    rw [natOfDigits_concat, List.length_append, List.length_singleton, pow_succ]
    omega

theorem le_natOfDigits (h : ∀ c ∈ digits, c.isDigit) (hne : digits ≠ [])
    (hlead : digits.head? ≠ some '0') : 10 ^ (digits.length - 1) ≤ natOfDigits digits := by
  obtain ⟨c, rest, rfl⟩ := List.exists_cons_of_ne_nil hne
  have hdigit := digit_bounds (h c List.mem_cons_self)
  have hzero : c.toNat ≠ 48 := toNat_ne_of_ne_zero (by simpa using hlead)
  have hpos : 1 ≤ c.toNat - 48 := by omega
  rw [← List.singleton_append, natOfDigits_append, natOfDigits_singleton, List.length_append,
    List.length_singleton, Nat.add_sub_cancel_left]
  calc 10 ^ rest.length = 1 * 10 ^ rest.length := (Nat.one_mul _).symm
    _ ≤ (c.toNat - 48) * 10 ^ rest.length := Nat.mul_le_mul_right _ hpos
    _ ≤ _ := Nat.le_add_right _ _

theorem not_ten_dvd_natOfDigits (h : ∀ c ∈ digits, c.isDigit) (hne : digits ≠ [])
    (hlast : digits.getLast? ≠ some '0') (front : List Char) :
    ¬10 ∣ natOfDigits (front ++ digits) := by
  obtain ⟨init, c, rfl⟩ := (List.eq_nil_or_concat' digits).resolve_left hne
  have hdigit := digit_bounds (h c (by simp))
  have hzero : c.toNat ≠ 48 := toNat_ne_of_ne_zero (by simpa using hlast)
  rw [← List.append_assoc, natOfDigits_concat]
  omega

theorem natOfDigits_div_pow (front : List Char) (h : ∀ c ∈ digits, c.isDigit) :
    natOfDigits (front ++ digits) / 10 ^ digits.length = natOfDigits front := by
  rw [natOfDigits_append, Nat.mul_comm, Nat.mul_add_div (by positivity),
    Nat.div_eq_of_lt (natOfDigits_lt h), Nat.add_zero]

theorem natInBase?_ten (h : ∀ c ∈ digits, c.isDigit) :
    natInBase? 10 digits = some (natOfDigits digits) := by
  induction digits using List.reverseRecOn with
  | nil => rfl
  | append_singleton digits c ih =>
    have hc := h c (by simp)
    have hbounds := digit_bounds hc
    have hdigit : digitIn? 10 c = some (c.toNat - 48) := by
      simp only [digitIn?, digitValue?, hc, if_true, Option.filter_some, decide_eq_true_eq]
      exact if_pos (by omega)
    rw [natInBase?_concat, ih fun d hd => h d (List.mem_append_left _ hd), Option.bind_some, hdigit,
      Option.map_some, natOfDigits_concat, Nat.mul_comm]

theorem natOfDigits_append_zeros (digits : List Char) (zeros : Nat) :
    natOfDigits (digits ++ List.replicate zeros '0') = natOfDigits digits * 10 ^ zeros := by
  rw [natOfDigits, Nat.ofDigitChars_append, Nat.ofDigitChars_replicate_zero, Nat.mul_comm]
  rfl

theorem eq_of_natOfDigits_eq (h : ∀ c ∈ digits, c.isDigit) (h' : ∀ c ∈ digits', c.isDigit)
    (hlength : digits.length = digits'.length) (hvalue : natOfDigits digits = natOfDigits digits') :
    digits = digits' := by
  induction digits using List.reverseRecOn generalizing digits' with
  | nil => exact (List.length_eq_zero_iff.1 hlength.symm).symm
  | append_singleton digits c ih =>
    have hne' : digits' ≠ [] := by
      rintro rfl
      simp at hlength
    obtain ⟨init, d, rfl⟩ := (List.eq_nil_or_concat' digits').resolve_left hne'
    have hc := digit_bounds (h c (by simp))
    have hd := digit_bounds (h' d (by simp))
    rw [natOfDigits_concat, natOfDigits_concat] at hvalue
    have hinit := ih (fun e he => h e (List.mem_append_left _ he))
      (fun e he => h' e (List.mem_append_left _ he)) (by simpa using hlength) (by omega)
    have hlast : c = d := Char.toNat_inj.1 (by omega)
    rw [hinit, hlast]

theorem head?_toDigits (n : Nat) :
    Nat.toDigits 10 n = ['0'] ∨ (Nat.toDigits 10 n).head? ≠ some '0' := by
  obtain ⟨c, rest, hdigits⟩ := List.exists_cons_of_ne_nil (Nat.toDigits_ne_nil (n := n) (b := 10))
  rw [hdigits, List.head?_cons, ne_eq, Option.some_inj, or_iff_not_imp_right, not_not]
  rintro rfl
  cases rest with
  | nil => rfl
  | cons d rest =>
    -- With a zero in front, one digit fewer would do.
    have hrest : ∀ e ∈ d :: rest, e.isDigit := fun e he =>
      Nat.isDigit_of_mem_toDigits (by decide) (by decide) (hdigits ▸ List.mem_cons_of_mem _ he)
    have hvalue : natOfDigits (d :: rest) = n := by
      have hread := Nat.ofDigitChars_ten_toDigits (n := n)
      rwa [hdigits, Nat.ofDigitChars_cons] at hread
    have hlt := natOfDigits_lt hrest
    rw [hvalue] at hlt
    have hle := (Nat.length_toDigits_le_iff (by decide) (by simp)).2 hlt
    simp [hdigits] at hle

end Numeral
end VideoEdit
