import VideoEdit.Proofs.Number.Nearest
/-!
# The shortest text of a decimal

A decimal can be written in many ways: zeros may lead it, zeros may end its fraction, and a zero may
have a sign. Without any of these the text is the shortest that denotes the number, and the only one
of its length. Such a text is printed for a double, and what it denotes is the double rounded to the
nearest multiple of the last place.
-/
namespace VideoEdit
-- Numbers with thousands of bits; no proof may compute with them.
attribute [local irreducible] unitsPerOne overflowUnits

namespace Decimal
open Numeral

/-- The parts of a plain decimal: its sign, the digits in front of the point, and those behind it. -/
structure Parts where
  negative : Bool
  whole : List Char
  decimals : List Char

namespace Parts

def text (p : Parts) : List Char :=
  Binary64.signed p.negative (p.whole ++ if p.decimals = [] then [] else '.' :: p.decimals)

def size (p : Parts) : ℚ := natOfDigits (p.whole ++ p.decimals) / 10 ^ p.decimals.length

def value (p : Parts) : ℚ := if p.negative then -p.size else p.size

/-- The parts are made of digits, and there are some in front of the point. -/
structure IsPlain (p : Parts) : Prop where
  whole_ne_nil : p.whole ≠ []
  whole_digits : ∀ c ∈ p.whole, c.isDigit
  decimals_digits : ∀ c ∈ p.decimals, c.isDigit

/-- No zero can be left out: none leads the number except in front of the point, none ends the
fraction, and none stands alone behind a sign. -/
structure IsTrim (p : Parts) : Prop extends IsPlain p where
  lead : p.whole = ['0'] ∨ p.whole.head? ≠ some '0'
  last : p.decimals.getLast? ≠ some '0'
  sign : p.text ≠ "-0".toList

private theorem size_nonneg (p : Parts) : 0 ≤ p.size := by
  unfold size
  positivity

private theorem length_text (p : Parts) :
    p.text.length = p.negative.toNat + p.whole.length +
      if p.decimals = [] then 0 else p.decimals.length + 1 := by
  unfold text
  cases p.negative <;> split_ifs <;> simp [Binary64.signed] <;> omega

end Parts

private theorem exists_parts_of_magnitude? {text : List Char} {q : ℚ}
    (h : magnitude? text = some q) :
    ∃ p : Parts, p.IsPlain ∧ p.negative = false ∧ p.text = text ∧ p.size = q := by
  have hwhole : ∀ c ∈ text.takeWhile Char.isDigit, c.isDigit := fun c => List.mem_takeWhile_imp
  have hsplit := List.takeWhile_append_dropWhile (p := Char.isDigit) (l := text)
  unfold magnitude? at h
  dsimp only at h
  generalize text.takeWhile Char.isDigit = whole at *
  split_ifs at h with hne
  split at h
  · next hnil =>
    rw [hnil] at hsplit
    refine ⟨⟨false, whole, []⟩, ⟨hne, hwhole, by simp⟩, rfl, hsplit, ?_⟩
    simpa [Parts.size] using h
  · next decimals hpoint =>
    split_ifs at h with hdecimals
    rw [hpoint] at hsplit
    refine ⟨⟨false, whole, decimals⟩, ⟨hne, hwhole, List.all_eq_true.1 hdecimals.2⟩, rfl, ?_, ?_⟩
    · simpa [Parts.text, Binary64.signed, hdecimals.1] using hsplit
    · simpa [Parts.size] using h
  · cases h

private theorem exists_parts_of_read? {text : List Char} {q : ℚ} (h : read? text = some q) :
    ∃ p : Parts, p.IsPlain ∧ p.text = text ∧ p.value = q := by
  unfold read? at h
  split at h
  · next rest =>
    obtain ⟨r, hr, rfl⟩ := Option.map_eq_some_iff.1 h
    obtain ⟨⟨negative, whole, decimals⟩, hplain, rfl, htext, hsize⟩ := exists_parts_of_magnitude? hr
    exact ⟨⟨true, whole, decimals⟩, ⟨hplain.1, hplain.2, hplain.3⟩, congrArg ('-' :: ·) htext,
      congrArg (- ·) hsize⟩
  · obtain ⟨p, hplain, hsign, htext, hsize⟩ := exists_parts_of_magnitude? h
    exact ⟨p, hplain, htext, by rw [Parts.value, hsign, ← hsize]; rfl⟩

namespace Parts
variable {p q : Parts}

theorem IsPlain.read?_text (h : p.IsPlain) : read? p.text = some p.value := by
  refine read?_signed p.negative ?_
  unfold size
  split_ifs with hdecimals
  · rw [hdecimals, List.append_nil, magnitude?_digits h.whole_ne_nil h.whole_digits]
    simp
  · exact magnitude?_point h.whole_ne_nil hdecimals h.whole_digits h.decimals_digits

private theorem scaled_of_size_eq (h : p.size = q.size) :
    natOfDigits (p.whole ++ p.decimals) * 10 ^ q.decimals.length =
      natOfDigits (q.whole ++ q.decimals) * 10 ^ p.decimals.length := by
  unfold size at h
  rw [div_eq_div_iff (by positivity) (by positivity)] at h
  exact_mod_cast h

private theorem abs_value (p : Parts) : |p.value| = p.size := by
  unfold value
  split_ifs <;> simp [abs_of_nonneg p.size_nonneg]

private theorem IsTrim.decimals_length_le (h : p.IsTrim) (hsize : p.size = q.size) :
    p.decimals.length ≤ q.decimals.length := by
  by_contra hlong
  obtain ⟨k, hk⟩ := Nat.exists_eq_add_of_lt (Nat.lt_of_not_le hlong)
  have hne : p.decimals ≠ [] := by
    intro hnil
    simp [hnil] at hk
  -- With fewer decimals the other text denotes a multiple of ten of the last place.
  have hmultiple : natOfDigits (p.whole ++ p.decimals) =
      10 * (natOfDigits (q.whole ++ q.decimals) * 10 ^ k) := by
    refine Nat.eq_of_mul_eq_mul_right (by positivity : 0 < 10 ^ q.decimals.length) ?_
    rw [scaled_of_size_eq hsize, hk]
    ring
  exact not_ten_dvd_natOfDigits h.decimals_digits hne h.last p.whole
    (hmultiple ▸ Nat.dvd_mul_right 10 _)

private theorem whole_eq_of_size_eq (hp : p.IsPlain) (hq : q.IsPlain) (hsize : p.size = q.size) :
    natOfDigits p.whole = natOfDigits q.whole := by
  have hpos (n : Nat) : 0 < 10 ^ n := by positivity
  rw [← natOfDigits_div_pow p.whole hp.decimals_digits,
    ← natOfDigits_div_pow q.whole hq.decimals_digits]
  calc _ = natOfDigits (p.whole ++ p.decimals) * 10 ^ q.decimals.length /
        (10 ^ p.decimals.length * 10 ^ q.decimals.length) :=
        (Nat.mul_div_mul_right _ _ (hpos _)).symm
    _ = 10 ^ p.decimals.length * natOfDigits (q.whole ++ q.decimals) /
        (10 ^ p.decimals.length * 10 ^ q.decimals.length) := by
        rw [scaled_of_size_eq hsize, Nat.mul_comm]
    _ = _ := Nat.mul_div_mul_left _ _ (hpos _)

private theorem IsTrim.whole_length_le (h : p.IsTrim) (hq : q.IsPlain) (hsize : p.size = q.size) :
    p.whole.length ≤ q.whole.length := by
  rcases h.lead with hzero | hlead
  · rw [hzero]
    exact List.length_pos_iff.2 hq.whole_ne_nil
  · have hle := le_natOfDigits h.whole_digits h.whole_ne_nil hlead
    have hlt := natOfDigits_lt hq.whole_digits
    rw [← whole_eq_of_size_eq h.toIsPlain hq hsize] at hlt
    have hpow := (Nat.pow_lt_pow_iff_right (by decide)).1 (hle.trans_lt hlt)
    omega

private theorem IsTrim.size_pos (h : p.IsTrim) (hnegative : p.negative) : 0 < p.size := by
  have hdigits : natOfDigits (p.whole ++ p.decimals) ≠ 0 := by
    intro hzero
    have hdecimals : p.decimals = [] := by
      by_contra hne
      exact not_ten_dvd_natOfDigits h.decimals_digits hne h.last p.whole (hzero ▸ Nat.dvd_zero 10)
    rcases h.lead with hwhole | hlead
    · exact h.sign (by simp [text, hnegative, hwhole, hdecimals, Binary64.signed])
    · have hle := le_natOfDigits h.whole_digits h.whole_ne_nil hlead
      rw [hdecimals, List.append_nil] at hzero
      rw [hzero] at hle
      exact absurd hle (Nat.not_le_of_lt (by positivity))
  have hpos := Nat.pos_of_ne_zero hdigits
  unfold size
  positivity

private theorem IsTrim.negative_le (h : p.IsTrim) (hvalue : q.value = p.value) :
    p.negative.toNat ≤ q.negative.toNat := by
  cases hp : p.negative with
  | false => exact Nat.zero_le _
  | true =>
    cases hq : q.negative with
    | true => exact le_rfl
    | false =>
      have hpos := h.size_pos hp
      have hnonneg := q.size_nonneg
      simp only [value, hp, hq, if_true, Bool.false_eq_true, if_false] at hvalue
      linarith

/-- A text of which no zero can be left out is shorter than every other one for the number. -/
theorem IsTrim.eq_or_length_lt (h : p.IsTrim) {text : List Char}
    (htext : read? text = some p.value) : text = p.text ∨ p.text.length < text.length := by
  obtain ⟨q, hq, rfl, hvalue⟩ := exists_parts_of_read? htext
  have hsize : p.size = q.size := by rw [← abs_value, ← abs_value, hvalue]
  have hsign := h.negative_le hvalue
  have hwhole := h.whole_length_le hq hsize
  have hdecimals := h.decimals_length_le hsize
  rcases Nat.lt_or_ge p.text.length q.text.length with hlt | hge
  · exact .inr hlt
  left
  rw [length_text, length_text] at hge
  have hlengths : q.negative.toNat = p.negative.toNat ∧ q.whole.length = p.whole.length ∧
      q.decimals.length = p.decimals.length := by
    simp only [← List.length_eq_zero_iff] at hge
    split_ifs at hge <;> omega
  obtain ⟨hnegative, hfront, hback⟩ := hlengths
  have hdigits : q.whole ++ q.decimals = p.whole ++ p.decimals := by
    have hscaled := scaled_of_size_eq hsize
    rw [hback] at hscaled
    refine eq_of_natOfDigits_eq ?_ ?_ (by simp [hfront, hback]) ?_
    · exact List.forall_mem_append.2 ⟨hq.whole_digits, hq.decimals_digits⟩
    · exact List.forall_mem_append.2 ⟨h.whole_digits, h.decimals_digits⟩
    · exact (Nat.eq_of_mul_eq_mul_right (by positivity) hscaled).symm
  obtain ⟨hwhole, hdecimals⟩ := List.append_inj hdigits hfront
  have hnegative : q.negative = p.negative := by
    revert hnegative
    cases q.negative <;> cases p.negative <;> decide
  rw [Parts.text, Parts.text, hnegative, hwhole, hdecimals]

private theorem IsTrim.getLast?_text (h : p.IsTrim) :
    p.text.getLast? ≠ some '.' ∧ ('.' ∈ p.text → p.text.getLast? ≠ some '0') := by
  have hpoint {digits : List Char} (hdigits : ∀ c ∈ digits, c.isDigit) : '.' ∉ digits :=
    fun hmem => absurd (hdigits '.' hmem) (by decide)
  have hwhole := hpoint h.whole_digits
  have hdecimals := hpoint h.decimals_digits
  have hsplit : p.text = Binary64.signed p.negative [] ++
      (p.whole ++ if p.decimals = [] then [] else '.' :: p.decimals) := by
    unfold text
    cases p.negative <;> rfl
  rw [hsplit]
  split_ifs with hnil
  · rw [List.append_nil, List.getLast?_append_of_ne_nil _ h.whole_ne_nil]
    refine ⟨fun hlast => hwhole (List.mem_of_getLast? hlast), fun hmem => ?_⟩
    rcases List.mem_append.1 hmem with hmem | hmem
    · cases hnegative : p.negative <;> simp [hnegative, Binary64.signed] at hmem
    · exact absurd hmem hwhole
  · have hlast : (Binary64.signed p.negative [] ++ (p.whole ++ '.' :: p.decimals)).getLast? =
        p.decimals.getLast? := by
      rw [List.getLast?_append_of_ne_nil _ (by simp), List.getLast?_append_of_ne_nil _ (by simp),
        List.getLast?_cons_of_ne_nil hnil]
    rw [hlast]
    exact ⟨fun hlast => hdecimals (List.mem_of_getLast? hlast), fun _ => h.last⟩

end Parts
end Decimal

namespace Binary64
open Decimal

private theorem exists_parts_toDecimal {x : Binary64} (h : x.isFinite) {places : Nat}
    (hplaces : places ≠ 0) :
    ∃ (p : Parts) (negative : Bool) (zeros : Nat), p.IsTrim ∧ x.toDecimal places = p.text ∧
      x.toFixed places =
        signed negative (p.whole ++ '.' :: (p.decimals ++ List.replicate zeros '0')) ∧
      (p.negative = negative ∨ p = ⟨false, ['0'], []⟩ ∧ negative = true) := by
  obtain ⟨negative, units, hunits, rfl⟩ := exists_eq_finite h
  obtain ⟨whole, back, htext, hne, hwhole, hback, -, -, hlead⟩ :=
    exists_withPoint places (scaled places units)
  obtain ⟨short, zeros, rfl, hlast, hshort⟩ := exists_short (signed negative []) hne hwhole hback
  have hsigned (text : List Char) : signed negative [] ++ text = signed negative text := by
    cases negative <;> rfl
  have hfixed : (finite negative units hunits).toFixed places =
      signed negative (whole ++ '.' :: (short ++ List.replicate zeros '0')) := by
    rw [toFixed, htext, if_neg hplaces]
  have hpoint : '.' ∈ signed negative (whole ++ '.' :: (short ++ List.replicate zeros '0')) := by
    cases negative <;> simp [signed]
  have hdecimals : ∀ c ∈ short, c.isDigit := fun c hc => hback c (List.mem_append_left _ hc)
  rw [hsigned, hsigned] at hshort
  change _ = Parts.text ⟨negative, whole, short⟩ at hshort
  simp only [toDecimal, hfixed, if_pos hpoint, hshort]
  split_ifs with hminus
  · -- Of a zero with a sign there is one digit left.
    obtain ⟨rfl, rfl, rfl⟩ : negative = true ∧ whole = ['0'] ∧ short = [] := by
      obtain ⟨c, rest, rfl⟩ := List.exists_cons_of_ne_nil hne
      have hc := hwhole c List.mem_cons_self
      cases negative
      · simp only [Parts.text, signed] at hminus
        obtain rfl : c = '-' := (List.cons.inj hminus).1
        exact absurd hc (by decide)
      · by_cases hnil : short = [] <;> simp_all [Parts.text, signed]
    exact ⟨⟨false, ['0'], []⟩, true, zeros, ⟨⟨hne, hwhole, hdecimals⟩, hlead, hlast, by decide⟩, rfl,
      rfl, .inr ⟨rfl, rfl⟩⟩
  · exact ⟨⟨negative, whole, short⟩, negative, zeros,
      ⟨⟨hne, hwhole, hdecimals⟩, hlead, hlast, hminus⟩, rfl, rfl, .inl rfl⟩

private theorem takeWhile_signed (negative : Bool) {whole rest : List Char}
    (h : ∀ c ∈ whole, c.isDigit) (hrest : rest = [] ∨ rest.head? = some '.') :
    (signed negative (whole ++ rest)).takeWhile (· ≠ '.') = signed negative whole := by
  have hwhole : (whole ++ rest).takeWhile (· ≠ '.') = whole := by
    have hall : ∀ c ∈ whole, decide (c ≠ '.') := by
      intro c hc
      rw [decide_eq_true_iff]
      rintro rfl
      exact absurd (h '.' hc) (by decide)
    rw [List.takeWhile_append_of_pos hall]
    rcases hrest with rfl | hrest
    · exact List.append_nil whole
    · obtain ⟨tail, rfl⟩ := List.head?_eq_some_iff.1 hrest
      exact List.append_nil whole
  cases negative with
  | false => exact hwhole
  | true => exact congrArg ('-' :: ·) hwhole

private theorem toDecimal_zero {x : Binary64} (h : x.isFinite) : x.toDecimal 0 = x.toFixed 0 := by
  obtain ⟨negative, units, hunits, rfl⟩ := exists_eq_finite h
  obtain ⟨front, back, htext, -, hfront, -⟩ := exists_withPoint 0 (scaled 0 units)
  have hpoint : '.' ∉ (finite negative units hunits).toFixed 0 := by
    rw [toFixed, htext, if_pos rfl, List.append_nil]
    have hdigits : '.' ∉ front := fun hmem => absurd (hfront '.' hmem) (by decide)
    cases negative <;> simp [signed, hdigits]
  simp only [toDecimal, if_neg hpoint]

private theorem takeWhile_toDecimal {x : Binary64} (h : x.isFinite) (places : Nat) :
    (x.toDecimal places).takeWhile (· ≠ '.') = (x.toFixed places).takeWhile (· ≠ '.') ∨
      x.toDecimal places = "0".toList ∧
        (x.toFixed places).takeWhile (· ≠ '.') = "-0".toList := by
  rcases Nat.eq_zero_or_pos places with rfl | hplaces
  · exact .inl (by rw [toDecimal_zero h])
  · obtain ⟨p, negative, zeros, hp, htext, hfixed, hsign⟩ := exists_parts_toDecimal h hplaces.ne'
    rw [htext, hfixed, takeWhile_signed negative hp.whole_digits (.inr rfl)]
    rcases hsign with rfl | ⟨rfl, rfl⟩
    · left
      refine takeWhile_signed p.negative hp.whole_digits ?_
      split_ifs
      · exact .inl rfl
      · exact .inr rfl
    · exact .inr ⟨rfl, rfl⟩

/-- A printed number is the multiple of the last place nearest to the exact value, so it lies within
half a unit of that place and keeps the order. The digits in front of the point are those of the
text with all places. With one place or more no zero ends the fraction, no point ends the text, no
zero has a sign, and every other text for the number is longer. -/
theorem toDecimal_nearest {x : Binary64} (h : x.isFinite) (places : Nat) :
    let text := x.toDecimal places
    let nearest : ℚ := nearestEven (x.value * 10 ^ places) / 10 ^ places
    read? text = some nearest ∧ |nearest - x.value| ≤ 1 / (2 * 10 ^ places) ∧
      (∀ y : Binary64, y.isFinite → x.value ≤ y.value →
        ∃ q, read? (y.toDecimal places) = some q ∧ nearest ≤ q) ∧
      (text.takeWhile (· ≠ '.') = (x.toFixed places).takeWhile (· ≠ '.') ∨
        text = "0".toList ∧ (x.toFixed places).takeWhile (· ≠ '.') = "-0".toList) ∧
      (1 ≤ places →
        text.getLast? ≠ some '.' ∧ ('.' ∈ text → text.getLast? ≠ some '0') ∧
          text ≠ "-0".toList ∧
          ∀ other, read? other = some nearest → other = text ∨ text.length < other.length) := by
  intro text nearest
  have hnearest : x.atPlaces places = nearest := atPlaces_eq_rounded h places
  have hread : read? text = some nearest := hnearest ▸ read?_toDecimal h places
  refine ⟨hread, hnearest ▸ atPlaces_error places h, fun y hy hle => ?_,
    takeWhile_toDecimal h places, fun hplaces => ?_⟩
  · refine ⟨y.atPlaces places, read?_toDecimal hy places, ?_⟩
    have hpow : (0 : ℚ) < 10 ^ places := by positivity
    have hmono := nearestEven_mono (mul_le_mul_of_nonneg_right hle hpow.le)
    rw [atPlaces_eq_rounded hy, rounded]
    exact div_le_div_of_nonneg_right (by exact_mod_cast hmono) hpow.le
  · obtain ⟨p, -, -, hp, htext, -⟩ := exists_parts_toDecimal h (Nat.one_le_iff_ne_zero.1 hplaces)
    have hvalue : read? p.text = some p.value := hp.toIsPlain.read?_text
    obtain ⟨hpoint, hzero⟩ := hp.getLast?_text
    rw [← htext] at hpoint hzero hvalue
    refine ⟨hpoint, hzero, fun hminus => hp.sign (htext.symm.trans hminus),
      fun other hother => ?_⟩
    rw [← hread, hvalue] at hother
    have hshort := hp.eq_or_length_lt hother
    rwa [← htext] at hshort

theorem toDecimal_nearest_hundred :
    let x : Binary64 := -100
    let text := x.toDecimal 2
    let nearest : ℚ := nearestEven (x.value * 10 ^ 2) / 10 ^ 2
    x.isFinite ∧ text = "-100".toList ∧ nearest = -100 ∧ read? text = some nearest ∧
      |nearest - x.value| ≤ 1 / (2 * 10 ^ 2) ∧
      (∃ q, read? ((100 : Binary64).toDecimal 2) = some q ∧ nearest ≤ q) ∧
      text.takeWhile (· ≠ '.') = (x.toFixed 2).takeWhile (· ≠ '.') ∧
      text.getLast? ≠ some '.' ∧ text ≠ "-0".toList ∧ text.length < "-100.0".toList.length := by
  have hfinite : (100 : Binary64).isFinite := by
    change (ofNat 100).isFinite = true
    rw [ofNat_eq (by decide)]
    rfl
  have hvalue : (100 : Binary64).value = 100 := value_ofNat (by decide)
  have hneg : (-100 : Binary64).value = -100 := by rw [value_neg, hvalue]
  have htext : (-100 : Binary64).toDecimal 2 = "-100".toList := by
    have hfixed : (-100 : Binary64).toFixed 2 = "-100.00".toList := by
      change (-ofNat 100).toFixed 2 = _
      rw [ofNat_eq (by decide)]
      change signed true (withPoint 2 (roundDiv (100 * unitsPerOne * Nat.pow 10 2) unitsPerOne)) = _
      rw [Nat.mul_right_comm, roundDiv_mul_self _ unitsPerOne_pos]
      rfl
    rw [toDecimal, hfixed]
    rfl
  have hnearest : (nearestEven ((-100 : Binary64).value * 10 ^ 2) / 10 ^ 2 : ℚ) = -100 := by
    have hwhole : nearestEven (-100 * 10 ^ 2) = -10000 :=
      nearestEven_eq_iff.2 ⟨by norm_num, by norm_num⟩
    rw [hneg, hwhole]
    norm_num
  obtain ⟨hread, herror, hmono, hwhole, hshort⟩ := toDecimal_nearest (isFinite_neg hfinite) 2
  obtain ⟨hpoint, -, hminus, hother⟩ := hshort (by decide)
  refine ⟨isFinite_neg hfinite, htext, hnearest, hread, herror,
    hmono 100 hfinite (by rw [hneg, hvalue]; norm_num), hwhole.resolve_right ?_, hpoint, hminus, ?_⟩
  · rw [htext]
    decide
  · refine (hother "-100.0".toList ?_).resolve_left ?_
    · have hplain : (⟨true, "100".toList, ['0']⟩ : Parts).IsPlain :=
        ⟨by decide, List.all_eq_true.1 (by decide), List.all_eq_true.1 (by decide)⟩
      have hdigits : Numeral.natOfDigits "1000".toList = 1000 := by decide
      have hlonger : (⟨true, "100".toList, ['0']⟩ : Parts).value = -100 := by
        change -((Numeral.natOfDigits "1000".toList : ℚ) / 10 ^ 1) = -100
        rw [hdigits]
        norm_num
      rw [hnearest, ← hlonger]
      exact hplain.read?_text
    · rw [htext]
      decide

end Binary64
end VideoEdit
