import Offside.Text.Printable

/-!
# Quoted text

The three written forms of a run of characters or bytes. `quoteText` and `quoteBytes` write a
value as a literal of the language that reads back as that value: the quotation mark is the
apostrophe unless the value holds an apostrophe and no double quote. `quoteMessage` shows a text
inside a message, always between double quotes.
-/
namespace Offside.Text

/-- The quotation mark of a literal: the apostrophe, unless only a double quote avoids an
escape. -/
def chooseQuote (hasSingle hasDouble : Bool) : Char :=
  if hasSingle && !hasDouble then '"' else '\''

/-- The escape of a character by its code point, in two, four or eight hexadecimal digits. -/
def escapeCode (c : Char) : List Char :=
  if c.toNat < 0x100 then '\\' :: 'x' :: hexDigits 2 c.toNat
  else if c.toNat < 0x10000 then '\\' :: 'u' :: hexDigits 4 c.toNat
  else '\\' :: 'U' :: hexDigits 8 c.toNat

/-- One character inside a text literal. -/
def escapeChar (quote c : Char) : List Char :=
  if c = '\\' then ['\\', '\\']
  else if c = '\n' then ['\\', 'n']
  else if c = '\r' then ['\\', 'r']
  else if c = '\t' then ['\\', 't']
  else if c = quote then ['\\', c]
  else if isPrintable c then [c]
  else escapeCode c

/-- The characters of the literal of a text. -/
def quoteChars (text : List Char) : List Char :=
  let quote := chooseQuote (text.contains '\'') (text.contains '"')
  quote :: text.flatMap (escapeChar quote) ++ [quote]

/-- The literal of a text. -/
def quoteText (text : String) : String :=
  String.ofList (quoteChars text.toList)

/-- One byte inside a bytes literal. -/
def escapeByte (quote : Char) (byte : UInt8) : List Char :=
  let c := Char.ofNat byte.toNat
  if c = '\\' then ['\\', '\\']
  else if c = '\n' then ['\\', 'n']
  else if c = '\r' then ['\\', 'r']
  else if c = '\t' then ['\\', 't']
  else if c = quote then ['\\', c]
  else if 0x20 ≤ byte && byte ≤ 0x7e then [c]
  else '\\' :: 'x' :: hexDigits 2 byte.toNat

/-- The characters of the literal of a byte list. -/
def quoteByteChars (bytes : List UInt8) : List Char :=
  let quote := chooseQuote (bytes.contains 0x27) (bytes.contains 0x22)
  'b' :: quote :: bytes.flatMap (escapeByte quote) ++ [quote]

/-- The literal of a byte list. -/
def quoteBytes (bytes : List UInt8) : String :=
  String.ofList (quoteByteChars bytes)

/-- One character inside a quoted text of a message. -/
def escapeMessageChar (c : Char) : List Char :=
  if c = '\\' then ['\\', '\\']
  else if c = '\n' then ['\\', 'n']
  else if c = '\r' then ['\\', 'r']
  else if c = '\t' then ['\\', 't']
  else if c = '"' then ['\\', '"']
  else if c = '\x00' then ['\\', '0']
  else if isPlain c then [c]
  else ['\\', 'u', '\x7b'] ++ Nat.toDigits 16 c.toNat ++ ['\x7d']

/-- A text as a message shows it, between double quotes. -/
def quoteMessage (text : String) : String :=
  String.ofList ('"' :: text.toList.flatMap escapeMessageChar ++ ['"'])

end Offside.Text
