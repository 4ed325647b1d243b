import Offside.Fault
import Offside.Literal.Limbs

/-!
# Values of number literals

A number literal is an integer in one of four radixes, a floating-point number, or either of the
decimal kinds with the letter j behind it, which makes it imaginary. Underscores may stand
between digits. Letters count alike in both cases.
-/
namespace Offside.Literal

open Text

/-- The radix that the first two characters of a lower-case literal announce. -/
def radixOf : List Char → Nat
  | '0' :: 'x' :: _ => 16
  | '0' :: 'o' :: _ => 8
  | '0' :: 'b' :: _ => 2
  | _ => 10

/-- Every underscore stands between two digits of the radix, or directly behind the mark of the
radix and before a digit. The first argument tells whether an underscore may stand here. -/
def underscoresFit (radix : Nat) : (mayStand : Bool) → List Char → Bool
  | _, [] => true
  | mayStand, c :: rest =>
    if c = '_' then
      mayStand && rest.head?.any (isDigitOf radix) && underscoresFit radix false rest
    else underscoresFit radix (isDigitOf radix c) rest

/-- Underscores fit in a literal of a radix. They may follow the two characters that announce a
radix other than ten. -/
def underscoresFitIn (radix : Nat) (literal : List Char) : Bool :=
  if radix = 10 then underscoresFit radix false literal
  else underscoresFit radix true (literal.drop 2)

/-- A decimal number that has been read: its sign, its digits before and behind the point, and
its exponent. -/
structure Scientific where
  /-- A minus sign stands in front. -/
  negative : Bool
  /-- The digits before the point. -/
  whole : List Char
  /-- The digits behind the point. -/
  fraction : List Char
  /-- The power of ten. -/
  exponent : Int
  deriving DecidableEq, Inhabited

/-- A sign in front of a text, and what follows it. -/
def readSign : List Char → Bool × List Char
  | '-' :: rest => (true, rest)
  | '+' :: rest => (false, rest)
  | text => (false, text)

/-- The exponent that a text writes: nothing, or the letter e with an optional sign and at least
one digit. -/
def readExponent? : List Char → Option Int
  | [] => some 0
  | c :: rest =>
    let (negative, digits) := readSign rest
    if c = 'e' && !digits.isEmpty && digits.all Char.isDigit then
      let value : Int := readDigits 10 digits
      some (if negative then -value else value)
    else none

/-- The decimal number that an unsigned text writes: digits with at most one point among them, at
least one digit, and an optional exponent. -/
def readScientific? (negative : Bool) (text : List Char) : Option Scientific :=
  let whole := text.takeWhile Char.isDigit
  let behind := text.dropWhile Char.isDigit
  let (fraction, tail) := match behind with
    | '.' :: rest => (rest.takeWhile Char.isDigit, rest.dropWhile Char.isDigit)
    | rest => ([], rest)
  if whole.isEmpty && fraction.isEmpty then none
  else (readExponent? tail).map fun exponent => ⟨negative, whole, fraction, exponent⟩

/-- The double nearest to a decimal number. -/
def Scientific.toDouble (number : Scientific) : Double :=
  Double.ofDecimal number.negative (readDigits 10 (number.whole ++ number.fraction))
    (number.exponent - number.fraction.length)

/-- The double that a lower-case text writes: a decimal number, or a word for what is not finite,
with an optional sign. -/
def readDouble? (text : List Char) : Option Double :=
  let (negative, unsigned) := readSign text
  if unsigned = ['i', 'n', 'f'] || unsigned = ['i', 'n', 'f', 'i', 'n', 'i', 't', 'y'] then
    some (Double.infinity negative)
  else if unsigned = ['n', 'a', 'n'] then some Double.nan
  else (readScientific? negative unsigned).map Scientific.toDouble

/-- The decimal digits of a literal's digits, which decimal ones are themselves. -/
def bigDigits (radix : Nat) (digits : List Char) : List Char :=
  if radix = 10 then digits else toDecimal radix digits

/-- The integer of digits in a radix, of which there must be some: a word if it fits, and decimal
digits otherwise. -/
def readInteger? (radix : Nat) (digits : List Char) : Option Number :=
  if digits.isEmpty || !digits.all (isDigitOf radix) then none
  else match Narrow.ofInt? (readDigits radix digits) with
    | some word => some (.int word)
    | none => some (.big (String.ofList (bigDigits radix digits)))

/-- A decimal integer with zeros in front is zero. -/
def leadingZerosFit (digits : List Char) : Bool :=
  digits.length ≤ 1 || digits.head? != some '0' || digits.all (· == '0')

/-- The number of a lower-case decimal literal without underscores. -/
def readDecimal? (literal : List Char) : Option Number :=
  if literal.getLast? = some 'j' then (readDouble? literal.dropLast).map .imaginary
  else if literal.any fun c => c == '.' || c == 'e' then (readDouble? literal).map .float
  else if leadingZerosFit literal then readInteger? 10 literal
  else none

/-- The number of the characters of a literal, if it has one. -/
def readNumber? (literal : List Char) : Option Number :=
  let lower := literal.map Char.toLower
  let radix := radixOf lower
  let digits := lower.filter (· != '_')
  if !underscoresFitIn radix lower then none
  else if radix = 10 then readDecimal? digits
  else readInteger? radix (digits.drop 2)

/-- The value of a number literal, or what is wrong with it. -/
def decodeNumber (literal : String) : Except Cause Number :=
  match readNumber? literal.toList with
  | some number => .ok number
  | none => .error (.malformedNumber literal)

end Offside.Literal
