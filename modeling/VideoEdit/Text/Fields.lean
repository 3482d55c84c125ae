/-!
Cutting a text at each occurrence of a character.
-/
namespace VideoEdit

/-- The pieces of a text between the occurrences of a character; there is always at least one. -/
def fields (separator : Char) : List Char → List (List Char)
  | [] => [[]]
  | c :: rest =>
    if c = separator then [] :: fields separator rest
    else match fields separator rest with
      | [] => [[c]]
      | field :: more => (c :: field) :: more

theorem fields_ne_nil (separator : Char) (text : List Char) : fields separator text ≠ [] := by
  cases text with
  | nil => simp [fields]
  | cons c rest =>
    unfold fields
    split
    · simp
    · split <;> simp

end VideoEdit
