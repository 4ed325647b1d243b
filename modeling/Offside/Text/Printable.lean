import Offside.Text.Mark
import Offside.Text.Unassigned

/-!
# Which characters are shown as they are

A quoted text shows a character as it is when the character is printable. There are two classes.
`isPrintable` is the one of values: it does not ask whether a code point is assigned, and a mark
or a filler is printable. `isPlain` is the narrower one of messages, which also escape these three.
-/
namespace Offside.Text

/-- The ranges of format characters, private use characters and noncharacters. -/
def formatRanges : List (Nat × Nat) :=
  [(0xad, 0xad), (0x600, 0x605), (0x61c, 0x61c), (0x6dd, 0x6dd), (0x70f, 0x70f),
   (0x890, 0x891), (0x8e2, 0x8e2), (0x180e, 0x180e), (0x200b, 0x200f), (0x202a, 0x202e),
   (0x2060, 0x2064), (0x2066, 0x206f), (0xe000, 0xf8ff), (0xfdd0, 0xfdef), (0xfeff, 0xfeff),
   (0xfff9, 0xfffb), (0xfffe, 0xffff), (0x110bd, 0x110bd), (0x110cd, 0x110cd),
   (0x13430, 0x1343f), (0x1bca0, 0x1bca3), (0x1d173, 0x1d17a), (0xe0001, 0xe0001),
   (0xe0020, 0xe007f), (0xf0000, 0x10ffff)]

/-- A character that a quoted value shows as it is: the space, and every character that is no
control, no white space, no format character, not private and no noncharacter. -/
def isPrintable (c : Char) : Bool :=
  c == ' ' || !(isControl c || isWhiteSpace c || isWithin formatRanges c)

/-- The ranges of the fillers: letters that take the place of a missing part of a Hangul syllable
and show nothing. -/
def fillerRanges : List (Nat × Nat) :=
  [(0x115f, 0x1160), (0x3164, 0x3164), (0xffa0, 0xffa0)]

/-- A character that a message shows as it is: a printable one that is no mark, no filler and
not unassigned. Every printable ASCII character is one. -/
def isPlain (c : Char) : Bool :=
  isPrintable c &&
    (c.toNat < 0x80 || !(isMark c || isWithin fillerRanges c || isUnassigned c))

end Offside.Text
