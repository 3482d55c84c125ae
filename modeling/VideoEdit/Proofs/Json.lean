import VideoEdit.Json
import VideoEdit.Proofs.Number.Decimal
/-!
# JSON on one line

The compact form of a JSON value is one line: a string escapes its line ends, and nothing else holds
any.
-/
namespace VideoEdit

private theorem newline_not_mem_toDigits (n : Nat) : '\n' ∉ Nat.toDigits 10 n :=
  not_mem_toDigits (by decide) n

namespace Binary64

private theorem newline_not_mem_positional {digits : List Char} (h : '\n' ∉ digits) (lead : Int) :
    '\n' ∉ positional digits lead := by
  have htake := fun n => mt (List.mem_of_mem_take (i := n)) h
  have hdrop := fun n => mt (List.mem_of_mem_drop (i := n)) h
  simp only [positional]
  split_ifs
  · simp [h]
  · simp [h]
  · simp [htake, hdrop]

private theorem newline_not_mem_scientific (plusSign : Bool) {digits : List Char}
    (h : '\n' ∉ digits) (lead : Int) : '\n' ∉ scientific plusSign digits lead := by
  have htake := fun n => mt (List.mem_of_mem_take (i := n)) h
  have htail := mt List.mem_of_mem_tail h
  have hexponent := newline_not_mem_toDigits lead.natAbs
  unfold scientific
  split_ifs <;> simp [htake, htail, hexponent]

private theorem newline_not_mem_magnitude (layout : DecimalLayout) (units : Nat) :
    '\n' ∉ layout.magnitude units := by
  unfold DecimalLayout.magnitude
  split
  · decide
  · split
    next number exponent _ =>
      have hdigits := newline_not_mem_toDigits number
      simp only
      split_ifs
      · exact newline_not_mem_positional hdigits _
      · exact newline_not_mem_scientific _ hdigits _

private theorem newline_not_mem_toShortest (layout : DecimalLayout) (x : Binary64) :
    '\n' ∉ x.toShortest layout := by
  have hsigned {negative : Bool} {text : List Char} (h : '\n' ∉ text) :
      '\n' ∉ signed negative text := by
    cases negative <;> simp [signed, h]
  unfold toShortest
  split
  · decide
  · exact hsigned (by decide)
  · exact hsigned (newline_not_mem_magnitude layout _)

end Binary64

namespace Json

private theorem newline_not_mem_escapeChar (c : Char) : '\n' ∉ escapeChar c := by
  have hdigit (n : Nat) : '\n' ≠ hexDigit n := by
    have hall : ∀ k < 16, '\n' ≠ Nat.digitChar k := by decide
    exact hall (n % 16) (Nat.mod_lt n (by decide))
  unfold escapeChar
  split_ifs with _ _ hnewline
  all_goals first | decide | simp [hdigit, Ne.symm hnewline]

private theorem newline_not_mem_quoted (s : String) : '\n' ∉ quoted s := by
  simp [quoted, newline_not_mem_escapeChar]

private theorem newline_not_mem_leaf (value : Json) : '\n' ∉ leaf value := by
  have hint (n : Int) : '\n' ∉ n.repr.toList := by
    cases n with
    | ofNat n => simp [Int.repr, newline_not_mem_toDigits]
    | negSucc n => simp [Int.repr, newline_not_mem_toDigits]
  unfold leaf
  split
  · decide
  · decide
  · exact hint _
  · split_ifs
    · exact Binary64.newline_not_mem_toShortest _ _
    · decide
  · exact newline_not_mem_quoted _
  · decide

mutual

private theorem newline_not_mem_compactChars : (value : Json) → '\n' ∉ compactChars value
  | array items => by simp [compactChars, newline_not_mem_compactItems items]
  | object fields => by simp [compactChars, newline_not_mem_compactFields fields]
  | null | bool _ | int _ | number _ | text _ => by
    simpa only [compactChars] using newline_not_mem_leaf _

private theorem newline_not_mem_compactItems : (items : List Json) → '\n' ∉ compactItems items
  | [] => by simp [compactItems]
  | [item] => by simpa only [compactItems] using newline_not_mem_compactChars item
  | item :: next :: rest => by
    simp [compactItems, newline_not_mem_compactChars item,
      newline_not_mem_compactItems (next :: rest)]

private theorem newline_not_mem_compactFields :
    (fields : List (String × Json)) → '\n' ∉ compactFields fields
  | [] => by simp [compactFields]
  | [(key, value)] => by
    simp [compactFields, newline_not_mem_quoted, newline_not_mem_compactChars value]
  | (key, value) :: next :: rest => by
    simp [compactFields, newline_not_mem_quoted, newline_not_mem_compactChars value,
      newline_not_mem_compactFields (next :: rest)]

end

/-- The compact form of a value is one line. -/
theorem newline_not_mem_compact (value : Json) : '\n' ∉ value.compact.toList := by
  rw [compact, String.toList_ofList]
  exact newline_not_mem_compactChars value

end Json
end VideoEdit
