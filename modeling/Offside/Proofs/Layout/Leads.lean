import Offside.Layout

/-!
# What a text starts with

What a step of a scan does is told by the text in front of it: a number, a name or the letters of a
string literal, the end of the line or of a part of it that is continued, a blank, a quotation mark,
a comment or an operator (`Lead`). There is one equation of `Cursor.step` for each of these.
-/
namespace Offside

open Text Lexeme

/-- A digit does not start a name. -/
theorem isNameStart_of_isDigit {c : Char} (digit : c.isDigit = true) : isNameStart c = false := by
  have range : 48 ≤ c.toNat ∧ c.toNat ≤ 57 := Char.isDigit_iff_toNat.1 digit
  rw [Bool.eq_false_iff]
  intro starts
  change (((decide (c.val ≥ 65 ∧ c.val ≤ 90) || (c.val ≥ 97 && c.val ≤ 122)) || c == '_') ||
    decide (0xaa ≤ c.toNat)) = true at starts
  simp only [Bool.or_eq_true, Bool.and_eq_true, decide_eq_true_eq, beq_iff_eq,
    UInt32.le_iff_toNat_le, ge_iff_le] at starts
  change (((65 ≤ c.toNat ∧ c.toNat ≤ 90) ∨ (97 ≤ c.toNat ∧ c.toNat ≤ 122)) ∨ c = '_') ∨
    0xaa ≤ c.toNat at starts
  rcases starts with ((upper | lower) | rfl) | far
  · omega
  · omega
  · exact absurd digit (by decide)
  · omega

/-- No number starts with a character that is neither a point nor a digit. -/
theorem startsNumber_eq_false {c : Char} {tail : List Char} (point : c ≠ '.')
    (digit : c.isDigit = false) : startsNumber (c :: tail) = false := by
  rw [startsNumber, digit]
  exact fun _ _ same _ => point same

/-- A digit starts a number. -/
theorem startsNumber_of_isDigit {c : Char} {tail : List Char} (digit : c.isDigit = true) :
    startsNumber (c :: tail) = true := by
  rw [startsNumber, digit]
  rintro _ _ rfl _
  exact absurd digit (by decide)

/-- No number starts where a name does. -/
theorem startsNumber_of_isNameStart {c : Char} {tail : List Char} (starts : isNameStart c = true) :
    startsNumber (c :: tail) = false := by
  refine startsNumber_eq_false ?_ ?_
  · rintro rfl
    exact absurd starts (by decide)
  · rw [Bool.eq_false_iff]
    intro digit
    rw [isNameStart_of_isDigit digit] at starts
    contradiction

/-- A number starts with a digit, or with a point before one. -/
theorem startsNumber_cases {text : List Char} (starts : startsNumber text = true) :
    (∃ c rest, text = '.' :: c :: rest ∧ c.isDigit = true) ∨
      ∃ c rest, text = c :: rest ∧ c.isDigit = true := by
  unfold startsNumber at starts
  split at starts
  · exact .inl ⟨_, _, rfl, starts⟩
  · exact .inr ⟨_, _, rfl, starts⟩
  · contradiction

/-- White space that starts no name and ends no line. -/
def blanks : List Char := ['\t', '\x0b', '\x0c', '\r', ' ', '\x85', '\xa0']

/-- The blanks are the white space that starts no name and ends no line. -/
theorem mem_blanks_iff {c : Char} :
    c ∈ blanks ↔ isWhiteSpace c = true ∧ isNameStart c = false ∧ c ≠ '\n' := by
  constructor
  · intro member
    have all : (blanks.all fun c => isWhiteSpace c && !isNameStart c && c != '\n') = true := rfl
    have here := List.all_eq_true.1 all c member
    simp only [Bool.and_eq_true, Bool.not_eq_true', bne_iff_ne] at here
    exact ⟨here.1.1, here.1.2, here.2⟩
  · rintro ⟨white, other, unbroken⟩
    have low : c.toNat < 0xaa := by
      simp only [isNameStart, Bool.or_eq_false_iff, decide_eq_false_iff_not] at other
      exact Nat.lt_of_not_le other.2
    have differs : c.toNat ≠ 10 := fun same =>
      unbroken (Char.ofNat_toNat c ▸ same ▸ rfl)
    simp only [isWhiteSpace, isWithin, whiteSpaceRanges, List.any_cons, List.any_nil,
      Bool.or_eq_true, Bool.and_eq_true, decide_eq_true_eq, Bool.or_false] at white
    have codes : c.toNat = 9 ∨ c.toNat = 11 ∨ c.toNat = 12 ∨ c.toNat = 13 ∨ c.toNat = 32 ∨
        c.toNat = 0x85 ∨ c.toNat = 0xa0 := by
      omega
    rw [← Char.ofNat_toNat c]
    rcases codes with code | code | code | code | code | code | code <;> rw [code] <;> decide

/-- Indentation is blank. -/
theorem mem_blanks_of_isIndent {c : Char} (indents : isIndent c = true) : c ∈ blanks := by
  simp only [isIndent, Bool.or_eq_true, beq_iff_eq] at indents
  rcases indents with rfl | rfl <;> decide

/-- A text that starts with an operator: with none of the lexemes that come before it, no blank and
no end of a line. -/
structure StartsOperator (c : Char) (tail : List Char) : Prop where
  /-- No number starts it. -/
  number : startsNumber (c :: tail) = false
  /-- No name starts it. -/
  name : isNameStart c = false
  /-- The line does not go on in the next one. -/
  whole : c :: tail ≠ ['\\', '\n']
  /-- The line does not end. -/
  feed : c ≠ '\n'
  /-- It does not start with white space. -/
  white : isWhiteSpace c = false
  /-- No string literal starts it. -/
  quote : isQuote c = false
  /-- No comment starts it. -/
  comment : c ≠ '#'

/-- What a text that is not empty starts with. -/
inductive Lead : List Char → Prop where
  /-- A number. -/
  | number {text : List Char} (starts : startsNumber text = true) : Lead text
  /-- The letters that mark a string literal, and the literal behind them. -/
  | marked {c : Char} {tail : List Char} (starts : isNameStart c = true)
      (opens : (Lexeme.name (c :: tail)).2.head?.any isQuote = true)
      (known : stringMarks.contains (Lexeme.name (c :: tail)).1 = true) : Lead (c :: tail)
  /-- A name. -/
  | name {c : Char} {tail : List Char} (starts : isNameStart c = true)
      (unmarked : ((Lexeme.name (c :: tail)).2.head?.any isQuote &&
        stringMarks.contains (Lexeme.name (c :: tail)).1) = false) : Lead (c :: tail)
  /-- A backslash in front of the end of the line. -/
  | continued : Lead ['\\', '\n']
  /-- The end of the line. -/
  | feed {tail : List Char} : Lead ('\n' :: tail)
  /-- A blank. -/
  | blank {c : Char} {tail : List Char} (member : c ∈ blanks) : Lead (c :: tail)
  /-- The mark of a string literal. -/
  | quote {c : Char} {tail : List Char} (mark : isQuote c = true) : Lead (c :: tail)
  /-- A comment. -/
  | comment {tail : List Char} : Lead ('#' :: tail)
  /-- An operator. -/
  | operator {c : Char} {tail : List Char} (starts : StartsOperator c tail) : Lead (c :: tail)

/-- Each text that is not empty starts with one of these. -/
theorem Lead.of (c : Char) (tail : List Char) : Lead (c :: tail) := by
  by_cases number : startsNumber (c :: tail) = true
  · exact .number number
  by_cases starts : isNameStart c = true
  · by_cases marked : ((Lexeme.name (c :: tail)).2.head?.any isQuote &&
        stringMarks.contains (Lexeme.name (c :: tail)).1) = true
    · rw [Bool.and_eq_true] at marked
      exact .marked starts marked.1 marked.2
    · exact .name starts (by simpa using marked)
  by_cases whole : c :: tail = ['\\', '\n']
  · rw [whole]
    exact .continued
  by_cases feed : c = '\n'
  · rw [feed]
    exact .feed
  by_cases white : isWhiteSpace c = true
  · exact .blank (mem_blanks_iff.2 ⟨white, by simpa using starts, feed⟩)
  by_cases quote : isQuote c = true
  · exact .quote quote
  by_cases comment : c = '#'
  · rw [comment]
    exact .comment
  · exact .operator ⟨by simpa using number, by simpa using starts, whole, feed, by simpa using white,
      by simpa using quote, comment⟩

section Steps

variable {line : Line} {below : List Line} {depth : Nat} {c : Char} {tail value rest : List Char}

/-- A number in front is a token. -/
theorem Cursor.step_number {text : List Char} (starts : startsNumber text = true)
    (taken : Lexeme.number text = (value, rest)) :
    Cursor.step ⟨line, text, below⟩ depth =
      .token (Cursor.token ⟨line, text, below⟩ .number value) ⟨line, rest, below⟩ depth := by
  cases text with
  | nil => contradiction
  | cons c tail =>
    rw [Cursor.step]
    dsimp only
    rw [starts, if_pos rfl, taken]

/-- The letters of a literal in front of a quotation mark belong to the literal. -/
theorem Cursor.step_letters (starts : isNameStart c = true)
    (taken : Lexeme.name (c :: tail) = (value, rest)) (opens : rest.head?.any isQuote = true)
    (known : stringMarks.contains value = true) :
    Cursor.step ⟨line, c :: tail, below⟩ depth =
      stringStep ⟨line, c :: tail, below⟩ value ⟨line, rest, below⟩ depth := by
  rw [Cursor.step]
  dsimp only
  rw [startsNumber_of_isNameStart starts, if_neg Bool.false_ne_true, if_pos starts, taken]
  dsimp only
  rw [opens, known, Bool.and_true, if_pos rfl]

/-- Any other name in front is a token. -/
theorem Cursor.step_word (starts : isNameStart c = true)
    (taken : Lexeme.name (c :: tail) = (value, rest))
    (unmarked : (rest.head?.any isQuote && stringMarks.contains value) = false) :
    Cursor.step ⟨line, c :: tail, below⟩ depth =
      .token (Cursor.token ⟨line, c :: tail, below⟩ .name value) ⟨line, rest, below⟩ depth := by
  rw [Cursor.step]
  dsimp only
  rw [startsNumber_of_isNameStart starts, if_neg Bool.false_ne_true, if_pos starts, taken]
  dsimp only
  rw [unmarked, if_neg Bool.false_ne_true]

/-- A continued line goes on in the next one. -/
theorem Cursor.step_continued {next : Line} :
    Cursor.step ⟨line, ['\\', '\n'], next :: below⟩ depth = .skip (.start next below) := rfl

/-- A line ends at its line feed. -/
theorem Cursor.step_feed :
    Cursor.step ⟨line, '\n' :: tail, below⟩ depth =
      .last (some (Cursor.token ⟨line, '\n' :: tail, below⟩
        (if depth = 0 then .newline else .softBreak) (if line.bare then [] else ['\n']))) := rfl

/-- A blank is passed over. -/
theorem Cursor.step_blank (member : c ∈ blanks) :
    Cursor.step ⟨line, c :: tail, below⟩ depth = .skip ⟨line, tail, below⟩ := by
  obtain ⟨white, letter, unbroken⟩ := mem_blanks_iff.1 member
  have plain : (blanks.all fun c => c != '.' && !c.isDigit && c != '\\') = true := rfl
  have here := List.all_eq_true.1 plain c member
  simp only [Bool.and_eq_true, bne_iff_ne, Bool.not_eq_true'] at here
  obtain ⟨⟨point, digit⟩, slash⟩ := here
  have whole : c :: tail ≠ ['\\', '\n'] := fun same => slash (List.cons.inj same).1
  rw [Cursor.step]
  dsimp only
  rw [startsNumber_eq_false point digit, if_neg Bool.false_ne_true, letter,
    if_neg Bool.false_ne_true, if_neg whole, if_neg unbroken, if_pos white]

/-- A quotation mark in front opens a literal. -/
theorem Cursor.step_quote (mark : isQuote c = true) :
    Cursor.step ⟨line, c :: tail, below⟩ depth =
      stringStep ⟨line, c :: tail, below⟩ [] ⟨line, c :: tail, below⟩ depth := by
  rw [isQuote, Bool.or_eq_true, beq_iff_eq, beq_iff_eq] at mark
  rcases mark with rfl | rfl <;> rfl

/-- A comment goes on to the end of its line. -/
theorem Cursor.step_hash :
    Cursor.step ⟨line, '#' :: tail, below⟩ depth =
      .token (Cursor.token ⟨line, '#' :: tail, below⟩ .comment (trimEnd (· == '\n') ('#' :: tail)))
        ⟨line, tail.drop (tail.length - 1), below⟩ depth := rfl

/-- An operator in front is a token, and it may open or close a bracket. -/
theorem Cursor.step_operator (starts : StartsOperator c tail)
    (taken : Lexeme.operator (c :: tail) = (value, rest)) :
    Cursor.step ⟨line, c :: tail, below⟩ depth =
      .token (Cursor.token ⟨line, c :: tail, below⟩ .operator value) ⟨line, rest, below⟩
        (bracketDepth depth value) := by
  rw [Cursor.step]
  dsimp only
  rw [starts.number, if_neg Bool.false_ne_true, starts.name, if_neg Bool.false_ne_true,
    if_neg starts.whole, if_neg starts.feed, starts.white, if_neg Bool.false_ne_true, starts.quote,
    if_neg Bool.false_ne_true, if_neg starts.comment, taken]

end Steps

end Offside
