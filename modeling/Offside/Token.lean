import Offside.Text.Quoted

/-!
# Tokens

A token is a lexeme with its kind, its text and the line on which it starts. Layout is written
with tokens as well: the end of a logical line, and the places where a block opens and closes.
-/
namespace Offside

open Text

/-- The kind of a token. -/
inductive Kind where
  /-- A name or a reserved word. -/
  | name
  /-- A number literal. -/
  | number
  /-- A string or bytes literal. -/
  | string
  /-- An operator or another mark. -/
  | operator
  /-- The end of a logical line. -/
  | newline
  /-- A line break that ends no logical line. -/
  | softBreak
  /-- A block opens. -/
  | indent
  /-- A block closes. -/
  | dedent
  /-- A comment. -/
  | comment
  /-- The end of the input. -/
  | endMarker
  deriving DecidableEq, Inhabited, Repr

/-- The written name of a kind. -/
def Kind.text : Kind → String
  | .name => "NAME"
  | .number => "NUMBER"
  | .string => "STRING"
  | .operator => "OP"
  | .newline => "NEWLINE"
  | .softBreak => "NL"
  | .indent => "INDENT"
  | .dedent => "DEDENT"
  | .comment => "COMMENT"
  | .endMarker => "ENDMARKER"

/-- A lexeme of the source text, or a mark of its layout. -/
structure Token where
  /-- The kind. -/
  kind : Kind
  /-- The text of the lexeme. -/
  value : String
  /-- The line on which the lexeme starts, counted from one and below 2 ^ 32 in the program. -/
  line : Nat
  /-- The physical line on which the lexeme starts. -/
  rawLine : String
  deriving DecidableEq, Inhabited, Repr

/-- The words that are no identifiers. -/
def reservedWords : List String :=
  ["False", "None", "True", "and", "as", "assert", "async", "await", "break", "class",
   "continue", "def", "del", "elif", "else", "except", "finally", "for", "from", "global",
   "if", "import", "in", "is", "lambda", "nonlocal", "not", "or", "pass", "raise", "return",
   "try", "while", "with", "yield"]

/-- A word that is no identifier. -/
def isReserved (word : String) : Bool :=
  reservedWords.contains word

namespace Token

/-- The token is a reserved word. -/
def isKeyword (token : Token) : Bool :=
  token.kind == .name && isReserved token.value

/-- The token is the given name or operator. -/
def isText (token : Token) (text : String) : Bool :=
  (token.kind == .name || token.kind == .operator) && token.value == text

/-- The token as a message names it: its quoted text, or its kind where the text says
nothing. -/
def describe (token : Token) : String :=
  match token.kind with
  | .name | .number | .string | .operator => quoteMessage token.value
  | kind => kind.text

/-- The token in one line: its line number, its kind and its quoted text. -/
def display (token : Token) : String :=
  toString token.line ++ ": " ++ token.kind.text ++ " " ++ quoteMessage token.value

/-- The mark of the end of the input, on a line. -/
def endMarker (line : Nat) : Token :=
  ⟨.endMarker, "", line, ""⟩

/-- A token that the grammar looks at: comments and soft breaks are passed over. -/
def isSignificant (token : Token) : Bool :=
  token.kind != .comment && token.kind != .softBreak

end Token

end Offside
