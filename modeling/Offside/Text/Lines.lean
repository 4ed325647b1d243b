/-!
# Physical lines

A text is the concatenation of its physical lines. Every line but the last ends in a line feed,
and the last may lack one.
-/
namespace Offside.Text

/-- The lines of a text as lists of characters, each with its line feed. -/
def splitLines : List Char → List (List Char)
  | [] => []
  | c :: rest =>
    if c = '\n' then [c] :: splitLines rest
    else match splitLines rest with
      | [] => [[c]]
      | line :: lines => (c :: line) :: lines

/-- The lines of a text, each with its line feed. -/
def physicalLines (text : String) : List String :=
  (splitLines text.toList).map String.ofList

/-- Cutting a text into lines loses nothing. -/
theorem flatten_splitLines (text : List Char) : (splitLines text).flatten = text := by
  induction text with
  | nil => rfl
  | cons c rest ih =>
    rw [splitLines]
    split
    · simp [ih]
    · split
      · rename_i empty
        rw [empty] at ih
        simp [← ih]
      · rename_i line lines found
        rw [found] at ih
        simp [← ih]

/-- A text without its trailing characters of a class. -/
def trimEnd (drop : Char → Bool) (text : List Char) : List Char :=
  (text.reverse.dropWhile drop).reverse

end Offside.Text
