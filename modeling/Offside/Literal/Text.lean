import Offside.Fault

/-!
# Values of string literals

A string literal consists of marking letters, a quotation mark written once or three times, a
body, and the quotation mark again. The letter b makes the value a byte list, and the letter r
keeps the body as it is written. Otherwise a backslash starts an escape, and what an escape may
write depends on the alphabet of the value.
-/
namespace Offside.Literal

open Text

/-- The value of a string literal. -/
inductive Quoted where
  /-- A text. -/
  | text (value : String)
  /-- A byte list. -/
  | bytes (value : List UInt8)
  deriving DecidableEq, Inhabited

/-- What a literal writes: how a character and a code point appear in its value. -/
structure Alphabet (α : Type) where
  /-- A character written as itself. -/
  character : Char → List α
  /-- The unit with a code, if there is one. -/
  code : Nat → Option α
  /-- The escapes of four and eight digits are known. -/
  wide : Bool

/-- The character with a code point, if the code point is one of a character. -/
def characterOfCode? (code : Nat) : Option Char :=
  if code.isValidChar then some (Char.ofNat code) else none

/-- The alphabet of texts: all characters. -/
def textAlphabet : Alphabet Char :=
  ⟨fun c => [c], characterOfCode?, true⟩

/-- The alphabet of byte lists: a character is written in UTF-8, and a code is a byte. -/
def byteAlphabet : Alphabet UInt8 :=
  ⟨String.utf8EncodeChar, fun code => if code < 256 then some (UInt8.ofNat code) else none, false⟩

/-- The character that an escape of one letter writes. -/
def simpleEscape? (letter : Char) : Option Char :=
  match letter with
  | 'a' => some '\x07'
  | 'b' => some '\x08'
  | 'f' => some '\x0c'
  | 'n' => some '\n'
  | 'r' => some '\r'
  | 't' => some '\t'
  | 'v' => some '\x0b'
  | '\\' | '\'' | '"' => some letter
  | _ => none

/-- The number of hexadecimal digits behind the letter of an escape. -/
def escapeWidth? (wide : Bool) (letter : Char) : Option Nat :=
  match letter with
  | 'x' => some 2
  | 'u' => if wide then some 4 else none
  | 'U' => if wide then some 8 else none
  | _ => none

/-- What an escape writes, and the number of characters behind the backslash that belong to
it. -/
abbrev Escape (α : Type) := List α × Nat

variable {α : Type}

/-- The escape that writes the unit with a code. The sequence is what a fault shows. -/
def codeEscape (alphabet : Alphabet α) (code size : Nat) (sequence : List Char) :
    Except Cause (Escape α) :=
  match alphabet.code code with
  | some unit => .ok ([unit], size)
  | none => .error (.invalidEscape (String.ofList sequence))

/-- An escape of hexadecimal digits. Exactly `width` digits must follow the letter. -/
def hexEscape (alphabet : Alphabet α) (width : Nat) (letter : Char) (rest : List Char) :
    Except Cause (Escape α) :=
  let digits := rest.take width
  let sequence := '\\' :: letter :: digits
  if digits.length = width && digits.all (isDigitOf 16) then
    codeEscape alphabet (readDigits 16 digits) (1 + width) sequence
  else .error (.invalidEscape (String.ofList sequence))

/-- The escape behind a backslash. A letter that starts no escape is written with its
backslash. -/
def readEscape (alphabet : Alphabet α) : List Char → Except Cause (Escape α)
  | [] => .ok (alphabet.character '\\', 0)
  | letter :: rest =>
    if isOctalDigit letter then
      let digits := ((letter :: rest).take 3).takeWhile isOctalDigit
      codeEscape alphabet (readDigits 8 digits) digits.length ('\\' :: digits)
    else match escapeWidth? alphabet.wide letter with
      | some width => hexEscape alphabet width letter rest
      | none =>
        if letter = '\n' then .ok ([], 1)
        else match simpleEscape? letter with
          | some c => .ok (alphabet.character c, 1)
          | none => .ok (alphabet.character '\\' ++ alphabet.character letter, 1)

/-- The units that a body writes. The first argument counts characters in front that belong to
an escape before them. -/
def readBody (alphabet : Alphabet α) : Nat → List Char → Except Cause (List α)
  | _, [] => .ok []
  | covered + 1, _ :: rest => readBody alphabet covered rest
  | 0, c :: rest =>
    if c = '\\' then do
      let (units, size) ← readEscape alphabet rest
      let later ← readBody alphabet size rest
      .ok (units ++ later)
    else do
      let later ← readBody alphabet 0 rest
      .ok (alphabet.character c ++ later)

/-- The number of bytes of characters in UTF-8. -/
def encodedSize : List Char → Nat
  | [] => 0
  | c :: rest => c.utf8Size + encodedSize rest

/-- The body between the quotation marks of a quoted text. The mark counts as written three
times where at least six bytes start with three of it. -/
def unquote? (quoted : List Char) : Option (List Char) :=
  match quoted with
  | [] => none
  | quote :: _ =>
    let triple := [quote, quote, quote]
    let mark := if 6 ≤ encodedSize quoted && triple.isPrefixOf quoted then triple else [quote]
    if encodedSize quoted < 2 * mark.length || !mark.isSuffixOf quoted then none
    else some ((quoted.drop mark.length).take (quoted.length - 2 * mark.length))

/-- The value of the characters of a string literal. -/
def readQuoted (literal : List Char) : Except Cause Quoted :=
  let marks := literal.takeWhile fun c => !isQuote c
  match unquote? (literal.dropWhile fun c => !isQuote c) with
  | none => .error .unterminatedString
  | some body =>
    let isBytes := marks.any fun c => c == 'b' || c == 'B'
    let isRaw := marks.any fun c => c == 'r' || c == 'R'
    if isRaw then
      if isBytes then .ok (.bytes (body.flatMap String.utf8EncodeChar))
      else .ok (.text (String.ofList body))
    else if isBytes then (readBody byteAlphabet 0 body).map .bytes
    else (readBody textAlphabet 0 body).map fun units => .text (String.ofList units)

/-- The value of a string literal, or what is wrong with it. -/
def decodeString (literal : String) : Except Cause Quoted :=
  readQuoted literal.toList

end Offside.Literal
