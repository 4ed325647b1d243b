import Offside.Number.Shortest

/-!
# Numbers of the language

A number literal stands for an integer, a floating-point number or an imaginary number. Integers
that fit in a signed word of 128 bits are kept as values and greater ones as their decimal
digits. `Number.text` writes a number as a literal writes it.
-/
namespace Offside

/-- The least integer that is too great for a signed word of 128 bits. -/
def wordLimit : Int := 0x80000000000000000000000000000000

/-- An integer that fits in a signed word of 128 bits. -/
structure Narrow where
  /-- The integer. -/
  value : Int
  /-- It is not below the least word. -/
  least_le : -wordLimit ≤ value
  /-- It is not above the greatest word. -/
  lt_limit : value < wordLimit
  deriving DecidableEq

/-- An integer as a word, if it fits. -/
def Narrow.ofInt? (value : Int) : Option Narrow :=
  if fits : -wordLimit ≤ value ∧ value < wordLimit then some ⟨value, fits.1, fits.2⟩ else none

instance : Inhabited Narrow := ⟨⟨0, by decide, by decide⟩⟩

/-- The value of a number literal. -/
inductive Number where
  /-- An integer that fits in a word. -/
  | int (value : Narrow)
  /-- The decimal digits of an integer that does not fit. -/
  | big (digits : String)
  /-- A floating-point number. -/
  | float (value : Double)
  /-- The imaginary part of an imaginary number. -/
  | imaginary (value : Double)
  deriving DecidableEq, Inhabited

/-- The decimal digits of a natural number. -/
def decimalDigits (value : Nat) : List Char :=
  Nat.toDigits 10 value

/-- The decimal text of an integer. -/
def decimalText (value : Int) : String :=
  let digits := decimalDigits value.natAbs
  String.ofList (if value < 0 then '-' :: digits else digits)

/-- The number of a natural value: a word if it fits, and digits otherwise. -/
def Number.ofNat (value : Nat) : Number :=
  match Narrow.ofInt? value with
  | some word => .int word
  | none => .big (String.ofList (decimalDigits value))

namespace Double

/-- The magnitude from which on the exponent form is used: 9999999999999980, the least double
whose decimal logarithm rounds to 16. -/
def exponentFrom : Nat := (ofDecimal false 999999999999998 1).magnitudeBits

/-- The magnitude from which on the positional form is used. -/
def positionalFrom : Nat := (ofDecimal false 1 (-4)).magnitudeBits

/-- The magnitude from which on a decimal logarithm rounds to -4 or more. Between it and
`positionalFrom` the exponent is written bare. -/
def bareExponentFrom : Nat := (ofDecimal false 999999999999999 (-19)).magnitudeBits

/-- Digits with the decimal point after the first one, and no point behind a single digit. -/
def pointed : List Char → List Char
  | [] => []
  | [digit] => [digit]
  | digit :: rest => digit :: '.' :: rest

/-- The positional form: all digits before and after a point, with at least one on each side. -/
def positionalText (decimal : Decimal) : List Char :=
  let digits := decimal.digits
  if 0 ≤ decimal.exponent then
    digits ++ List.replicate decimal.exponent.toNat '0' ++ ['.', '0']
  else
    let behind := (-decimal.exponent).toNat
    if behind < digits.length then
      digits.take (digits.length - behind) ++ '.' :: digits.drop (digits.length - behind)
    else ['0', '.'] ++ List.replicate (behind - digits.length) '0' ++ digits

/-- The exponent form with a bare exponent, of which only negative ones carry a sign. -/
def bareExponentText (decimal : Decimal) : List Char :=
  pointed decimal.digits ++ 'e' :: (decimalText decimal.leading).toList

/-- The exponent form with a sign and at least two digits in the exponent. -/
def exponentText (decimal : Decimal) : List Char :=
  let size := decimalDigits decimal.leading.natAbs
  pointed decimal.digits ++ 'e' :: (if decimal.leading < 0 then '-' else '+') ::
    (if size.length < 2 then '0' :: size else size)

/-- The characters of a double: its shortest decimal in positional form, in exponent form where
the magnitude is very great or small, and words for what is not finite. -/
def textChars (value : Double) : List Char :=
  if value.isNaN then ['n', 'a', 'n']
  else
    let magnitude := value.magnitudeBits
    let decimal := value.shortest
    let text :=
      if value.isInfinite then ['i', 'n', 'f']
      else if magnitude = 0 then ['0', '.', '0']
      else if positionalFrom ≤ magnitude && magnitude < exponentFrom then positionalText decimal
      else if bareExponentFrom ≤ magnitude && magnitude < positionalFrom then
        bareExponentText decimal
      else exponentText decimal
    if value.negative then '-' :: text else text

/-- The text of a double. -/
def text (value : Double) : String :=
  String.ofList value.textChars

end Double

/-- A text without a point and a single zero at its end. -/
def dropPointZero (text : List Char) : List Char :=
  if ['.', '0'].isSuffixOf text then text.take (text.length - 2) else text

/-- The text of a number. An imaginary number is written without a fraction that is zero. -/
def Number.text : Number → String
  | .int word => decimalText word.value
  | .big digits => digits
  | .float value => value.text
  | .imaginary value => String.ofList (dropPointZero value.textChars ++ ['j'])

end Offside
