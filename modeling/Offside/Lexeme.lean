import Offside.Text.Character

/-!
# Lexemes within a line

The scanners of the lexemes that stand on one physical line, and of the parts of a string
literal that do. A `Munch` takes characters from the front of a text and returns what it took
and what is left; each combinator keeps the law that the two together are the text
(`Munch.Lossless`).
-/
namespace Offside

open Text

/-- A scanner that takes some characters from the front and leaves the rest. -/
abbrev Munch := List Char → List Char × List Char

namespace Munch

/-- What a scanner takes, followed by what it leaves, is the text. -/
def Lossless (munch : Munch) : Prop :=
  ∀ text, (munch text).1 ++ (munch text).2 = text

/-- Take nothing. -/
def nothing : Munch := fun text => ([], text)

/-- Take all characters of a class. -/
def many (admits : Char → Bool) : Munch := fun text =>
  (text.takeWhile admits, text.dropWhile admits)

/-- Take one character of a class, if it stands in front. -/
def one (admits : Char → Bool) : Munch
  | [] => ([], [])
  | c :: rest => if admits c then ([c], rest) else ([], c :: rest)

/-- Take with one scanner and then with another. -/
def andThen (first second : Munch) : Munch := fun text =>
  let (head, middle) := first text
  let (tail, rest) := second middle
  (head ++ tail, rest)

/-- Take with the second scanner only where the first one took something. -/
def guardedBy (first second : Munch) : Munch := fun text =>
  if (first text).1 = [] then ([], text) else first.andThen second text

/-- Taking all characters of a class is lossless. -/
theorem many_lossless (admits : Char → Bool) : (many admits).Lossless := fun _ =>
  List.takeWhile_append_dropWhile

/-- Taking one character is lossless. -/
theorem one_lossless (admits : Char → Bool) : (one admits).Lossless := by
  intro text
  cases text with
  | nil => rfl
  | cons c rest => simp only [one]; split <;> rfl

/-- Two lossless scanners in order are lossless. -/
theorem andThen_lossless {first second : Munch} (head : first.Lossless)
    (tail : second.Lossless) : (first.andThen second).Lossless := by
  intro text
  simp only [andThen, List.append_assoc]
  rw [tail, head]

/-- A lossless scanner behind a lossless guard is lossless. -/
theorem guardedBy_lossless {first second : Munch} (head : first.Lossless)
    (tail : second.Lossless) : (first.guardedBy second).Lossless := by
  intro text
  simp only [guardedBy]
  split
  · rfl
  · exact andThen_lossless head tail text

/-- A lossless scanner that takes nothing leaves the text. -/
theorem Lossless.rest_eq {munch : Munch} (lossless : munch.Lossless) {text : List Char}
    (empty : (munch text).1 = []) : (munch text).2 = text := by
  have whole := lossless text
  rwa [empty, List.nil_append] at whole

/-- What a lossless scanner leaves is shorter than the text where it takes something. -/
theorem Lossless.length_rest_lt {munch : Munch} (lossless : munch.Lossless) {text : List Char}
    (taken : (munch text).1 ≠ []) : (munch text).2.length < text.length := by
  have whole := congrArg List.length (lossless text)
  have positive := List.length_pos_iff.2 taken
  rw [List.length_append] at whole
  omega

/-- Two scanners in order take something where the first one does, or where the second one would
if it stood in front. -/
theorem andThen_ne_nil {first second : Munch} (lossless : first.Lossless) {text : List Char}
    (taken : (first text).1 ≠ [] ∨ (second text).1 ≠ []) :
    (first.andThen second text).1 ≠ [] := by
  by_cases empty : (first text).1 = []
  · have rest := lossless.rest_eq empty
    simp only [andThen, empty, rest, List.nil_append]
    exact taken.resolve_left (not_not_intro empty)
  · simp [andThen, empty]

/-- A scanner behind a guard takes something where the guard does. -/
theorem guardedBy_ne_nil {first second : Munch} {text : List Char}
    (taken : (first text).1 ≠ []) : (first.guardedBy second text).1 ≠ [] := by
  simp [guardedBy, taken, andThen]

end Munch

namespace Lexeme

open Munch

/-- A decimal digit or an underscore. -/
def isNumberPart (c : Char) : Bool :=
  c.isDigit || c == '_'

/-- A hexadecimal digit or an underscore. -/
def isHexPart (c : Char) : Bool :=
  isDigitOf 16 c || c == '_'

/-- A zero and the letter of a radix, if both stand in front. -/
def radixMark (letters : List Char) : Munch
  | '0' :: c :: rest => if letters.contains c then (['0', c], rest) else ([], '0' :: c :: rest)
  | text => ([], text)

/-- A point and the digits behind it, if a point stands in front. -/
def fraction (isPart : Char → Bool) : Munch :=
  (one (· == '.')).guardedBy (many isPart)

/-- The letter of an exponent with its sign and digits, if the letter stands in front. -/
def exponent : Munch :=
  (one fun c => c == 'e' || c == 'E').guardedBy
    ((one fun c => c == '+' || c == '-').andThen (many isNumberPart))

/-- A number of radix sixteen. -/
def hexNumber : Munch :=
  (radixMark ['x', 'X']).guardedBy ((many isHexPart).andThen (fraction isHexPart))

/-- A number of another radix, with what decimal numbers may have behind their digits. -/
def plainNumber : Munch :=
  (radixMark ['o', 'O', 'b', 'B']).andThen
    ((many isNumberPart).andThen ((fraction isNumberPart).andThen exponent))

/-- A number literal: the longest text with the shape of one, whether or not it has a value. -/
def number : Munch := fun text =>
  let body := if (radixMark ['x', 'X'] text).1 = [] then plainNumber else hexNumber
  body.andThen (one (· == 'j')) text

/-- The mark of a radix is taken without loss. -/
theorem radixMark_lossless (letters : List Char) : (radixMark letters).Lossless := by
  intro text
  unfold radixMark
  split
  · split <;> rfl
  · rfl

/-- A fraction is taken without loss. -/
theorem fraction_lossless (isPart : Char → Bool) : (fraction isPart).Lossless :=
  guardedBy_lossless (one_lossless _) (many_lossless _)

/-- An exponent is taken without loss. -/
theorem exponent_lossless : exponent.Lossless :=
  guardedBy_lossless (one_lossless _) (andThen_lossless (one_lossless _) (many_lossless _))

/-- A number of radix sixteen is taken without loss. -/
theorem hexNumber_lossless : hexNumber.Lossless :=
  guardedBy_lossless (radixMark_lossless _)
    (andThen_lossless (many_lossless _) (fraction_lossless _))

/-- A number of another radix is taken without loss. -/
theorem plainNumber_lossless : plainNumber.Lossless :=
  andThen_lossless (radixMark_lossless _)
    (andThen_lossless (many_lossless _) (andThen_lossless (fraction_lossless _) exponent_lossless))

/-- A number literal is taken without loss. -/
theorem number_lossless : number.Lossless := by
  intro text
  unfold number
  split
  · exact andThen_lossless plainNumber_lossless (one_lossless _) text
  · exact andThen_lossless hexNumber_lossless (one_lossless _) text

/-- A number starts here: a digit, or a point before a digit. -/
def startsNumber : List Char → Bool
  | '.' :: c :: _ => c.isDigit
  | c :: _ => c.isDigit
  | [] => false

/-- Where a number starts, the scanner of a number without the radix sixteen takes something. -/
theorem plainNumber_ne_nil {text : List Char} (starts : startsNumber text = true) :
    (plainNumber text).1 ≠ [] := by
  refine andThen_ne_nil (radixMark_lossless _) (.inr (andThen_ne_nil (many_lossless _) ?_))
  unfold startsNumber at starts
  split at starts
  · exact .inr (andThen_ne_nil (fraction_lossless _) (.inl (guardedBy_ne_nil (by simp [one]))))
  · left
    simp [many, isNumberPart, starts]
  · simp at starts

/-- Where a number starts, the scanner of numbers takes something. -/
theorem number_ne_nil {text : List Char} (starts : startsNumber text = true) :
    (number text).1 ≠ [] := by
  unfold number
  split
  · exact andThen_ne_nil plainNumber_lossless (.inl (plainNumber_ne_nil starts))
  · rename_i marked
    exact andThen_ne_nil hexNumber_lossless (.inl (guardedBy_ne_nil marked))

/-- A name: all characters that may be part of one. -/
def name : Munch := many isNamePart

/-- Where a name starts, the scanner of names takes something. -/
theorem name_ne_nil {c : Char} {rest : List Char} (starts : isNameStart c = true) :
    (name (c :: rest)).1 ≠ [] := by
  simp [name, many, isNamePart, starts]

/-- The words that may stand directly before the quotation mark of a literal. -/
def stringMarks : List (List Char) :=
  [['b'], ['r'], ['r', 'b'], ['b', 'r'], ['u'], ['f']]

/-- The operators of more than one character, no later one longer than an earlier one. -/
def longOperators : List (List Char) :=
  ["**=", "//=", ">>=", "<<=", "...", "+=", "-=", "*=", "/=", "%=", "@=", "&=", "|=", "^=",
   "**", "//", "<<", ">>", "==", "!=", ">=", "<=", "->"].map String.toList

/-- An operator: the longest one that stands in front, and otherwise a single character. -/
def operator : Munch := fun text =>
  match longOperators.find? (·.isPrefixOf text) with
  | some found => (found, text.drop found.length)
  | none => (text.take 1, text.drop 1)

/-- No operator of the table is empty. -/
theorem longOperators_ne_nil : ∀ found ∈ longOperators, found ≠ [] := by
  decide

/-- An operator is taken without loss. -/
theorem operator_lossless : operator.Lossless := by
  intro text
  unfold operator
  split
  · rename_i found search
    have leads := List.find?_some search
    obtain ⟨rest, rfl⟩ := List.isPrefixOf_iff_prefix.1 leads
    simp
  · exact List.take_append_drop 1 text

/-- An operator is not empty. -/
theorem operator_ne_nil {c : Char} {rest : List Char} : (operator (c :: rest)).1 ≠ [] := by
  unfold operator
  split
  · rename_i found search
    exact longOperators_ne_nil found (List.mem_of_find?_eq_some search)
  · simp

/-- How a string literal goes on within a line. -/
inductive StringPart where
  /-- The literal ends. -/
  | closed (taken rest : List Char)
  /-- The literal goes on in the next line. -/
  | continued (taken : List Char)
  /-- The literal breaks off. -/
  | broken
  deriving DecidableEq, Inhabited

/-- A part with more characters taken before it. -/
def StringPart.after (more : List Char) : StringPart → StringPart
  | .closed taken rest => .closed (more ++ taken) rest
  | .continued taken => .continued (more ++ taken)
  | .broken => .broken

/-- The part of a literal between single marks, up to the closing mark. A backslash pairs with
the character after it, and goes on in the next line where that is a line feed. -/
def shortPart (quote : Char) : List Char → StringPart
  | [] => .broken
  | '\\' :: [] => .broken
  | '\\' :: '\n' :: _ => .continued ['\\', '\n']
  | '\\' :: c :: rest => (shortPart quote rest).after ['\\', c]
  | c :: rest =>
    if c = quote then .closed [c] rest
    else if c = '\n' then .broken
    else (shortPart quote rest).after [c]

/-- The part of a literal between triple marks, up to the closing marks. Marks directly behind a
backslash do not close. The first argument tells whether a backslash was taken last. -/
def longPart (quote : Char) : (escaped : Bool) → List Char → StringPart
  | _, [] => .continued []
  | escaped, c :: rest =>
    if !escaped && [quote, quote, quote].isPrefixOf (c :: rest) then
      .closed [quote, quote, quote] (rest.drop 2)
    else (longPart quote (c == '\\') rest).after [c]

/-- A part with more before it is closed exactly where the part is. -/
theorem StringPart.after_eq_closed {part : StringPart} {more taken rest : List Char}
    (closed : part.after more = .closed taken rest) :
    ∃ later, part = .closed later rest ∧ taken = more ++ later := by
  cases part <;> simp_all [StringPart.after]

/-- A literal between single marks that is closed leaves what stands behind it. -/
theorem shortPart_closed {quote : Char} {text taken rest : List Char}
    (closed : shortPart quote text = .closed taken rest) : taken ++ rest = text := by
  fun_induction shortPart quote text generalizing taken with
  | case1 => simp at closed
  | case2 => simp at closed
  | case3 => simp at closed
  | case4 c tail _ ih =>
    obtain ⟨later, found, rfl⟩ := StringPart.after_eq_closed closed
    simp [ih found]
  | case5 =>
    obtain ⟨rfl, rfl⟩ := StringPart.closed.inj closed
    rfl
  | case6 c tail => simp at closed
  | case7 c tail _ _ _ _ _ ih =>
    obtain ⟨later, found, rfl⟩ := StringPart.after_eq_closed closed
    simp [ih found]

/-- A literal between triple marks that is closed leaves what stands behind it. -/
theorem longPart_closed {quote : Char} {escaped : Bool} {text taken rest : List Char}
    (closed : longPart quote escaped text = .closed taken rest) : taken ++ rest = text := by
  induction text generalizing escaped taken with
  | nil => simp [longPart] at closed
  | cons c tail ih =>
    rw [longPart] at closed
    split at closed
    · rename_i marks
      simp only [Bool.and_eq_true] at marks
      obtain ⟨behind, whole⟩ := List.isPrefixOf_iff_prefix.1 marks.2
      simp only [StringPart.closed.injEq] at closed
      obtain ⟨rfl, rfl⟩ := closed
      simp only [List.cons_append, List.nil_append, List.cons.injEq] at whole
      obtain ⟨rfl, rfl⟩ := whole
      rfl
    · obtain ⟨later, found, rfl⟩ := StringPart.after_eq_closed closed
      simp [ih found]

end Lexeme

end Offside
