/-!
# Character classes

The classes of characters that the written language distinguishes: what starts and continues a
name, what separates lexemes, what counts as indentation, and what an escape may hold. The
classes of names are open above ASCII: every character from U+00AA on may stand in a name.
-/
namespace Offside.Text

/-- A character lies in one of the given closed ranges of code points. -/
def isWithin (ranges : List (Nat × Nat)) (c : Char) : Bool :=
  ranges.any fun range => range.1 ≤ c.toNat && c.toNat ≤ range.2

/-- The first character of a name: an ASCII letter, an underscore, or any character from
U+00AA on. -/
def isNameStart (c : Char) : Bool :=
  c.isAlpha || c == '_' || 0xaa ≤ c.toNat

/-- A later character of a name: one that may start a name, or an ASCII digit. -/
def isNamePart (c : Char) : Bool :=
  isNameStart c || c.isDigit

/-- A character of indentation: a space or a tab. -/
def isIndent (c : Char) : Bool :=
  c == ' ' || c == '\t'

/-- A quotation mark that opens a string literal. -/
def isQuote (c : Char) : Bool :=
  c == '"' || c == '\''

/-- The ranges of the Unicode property White_Space. -/
def whiteSpaceRanges : List (Nat × Nat) :=
  [(0x9, 0xd), (0x20, 0x20), (0x85, 0x85), (0xa0, 0xa0), (0x1680, 0x1680), (0x2000, 0x200a),
   (0x2028, 0x2029), (0x202f, 0x202f), (0x205f, 0x205f), (0x3000, 0x3000)]

/-- A character with the Unicode property White_Space. -/
def isWhiteSpace (c : Char) : Bool :=
  isWithin whiteSpaceRanges c

/-- A control character: U+0000 to U+001F and U+007F to U+009F. -/
def isControl (c : Char) : Bool :=
  c.toNat < 0x20 || (0x7f ≤ c.toNat && c.toNat ≤ 0x9f)

/-- An octal digit. -/
def isOctalDigit (c : Char) : Bool :=
  '0' ≤ c && c ≤ '7'

/-- The value of a digit of a radix up to sixteen, in either case. -/
def digitValue? (radix : Nat) (c : Char) : Option Nat :=
  let value :=
    if c.isDigit then c.toNat - '0'.toNat
    else if 'a' ≤ c && c ≤ 'f' then c.toNat - 'a'.toNat + 10
    else if 'A' ≤ c && c ≤ 'F' then c.toNat - 'A'.toNat + 10
    else radix
  if value < radix then some value else none

/-- A digit of a radix up to sixteen. -/
def isDigitOf (radix : Nat) (c : Char) : Bool :=
  (digitValue? radix c).isSome

/-- The number that digits of a radix write, most significant first. A character that is no
digit of the radix counts as zero. -/
def readDigits (radix : Nat) (digits : List Char) : Nat :=
  digits.foldl (fun value c => value * radix + (digitValue? radix c).getD 0) 0

/-- The last hexadecimal digits of a number, as many as the width says, in lower case. -/
def hexDigits : Nat → Nat → List Char
  | 0, _ => []
  | width + 1, value => hexDigits width (value / 16) ++ [Nat.digitChar (value % 16)]

end Offside.Text
