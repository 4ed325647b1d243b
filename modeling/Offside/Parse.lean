import Offside.Grammar.Statement
import Offside.Tree.Dump

/-!
# Parsing

A text is parsed as a module, as one expression, or as one statement line of a dialogue. The
input is a source text, physical lines or tokens, and each of them becomes a stream of tokens
first.
-/
namespace Offside

open Parse

/-- What a text is parsed as. -/
inductive Mode where
  /-- A module. -/
  | exec
  /-- One expression. -/
  | eval
  /-- One statement line. -/
  | single
  deriving DecidableEq, Inhabited, Repr

namespace Mode

/-- The word for a mode. -/
def text : Mode → String
  | .exec => "exec"
  | .eval => "eval"
  | .single => "single"

/-- The mode that a word names, or a message that says that it names none. -/
def ofText (word : String) : Except String Mode :=
  if word = "exec" then .ok .exec
  else if word = "eval" then .ok .eval
  else if word = "single" then .ok .single
  else .error ("unknown parse mode " ++ Text.quoteMessage word)

end Mode

/-- The statements up to the end mark. -/
def moduleBody (scope : Scope) : Parse (List Stmt) :=
  loop (fun body => do
    if ← checkKind .endMarker then return .done body
    else return .again (body ++ (← scope.statementLine))) scope.inner.bound []

/-- One expression, with nothing but line ends between it and the end mark. -/
def wholeExpression (inner : Inner) : Parse Expr := do
  let body ← inner.expr Power.any
  loop (fun _ => do
    if ← eatKind .newline then return .again () else return .done ()) inner.bound ()
  let _ ← expectKind .endMarker
  return body

/-- Parse what is in front in a mode. -/
def parseRoot (mode : Mode) : Parse Root :=
  match mode with
  | .exec => do return .module (← Scope.run moduleBody)
  | .eval => do return .expression (← Inner.run wholeExpression)
  | .single => do return .interactive (← Scope.run Scope.statementLine)

/-- Parse a stream of tokens. -/
def parseStream (stream : Stream) (file : Option String) (mode : Mode) : Except Fault Root := do
  let state ← State.start stream (file.getD unknownFile)
  match (parseRoot mode).run state with
  | .ok root _ => return root
  | .error fault _ => throw fault

/-- Parse tokens. -/
def parseTokens (tokens : List Token) (file : Option String) (mode : Mode) : Except Fault Root :=
  parseStream (.ofTokens tokens) file mode

/-- Parse physical lines. -/
def parseLines (lines : List String) (file : Option String) (mode : Mode) : Except Fault Root :=
  parseStream (.ofLines lines file) file mode

/-- Parse a source text. -/
def parse (source : String) (file : Option String) (mode : Mode) : Except Fault Root :=
  parseStream (.ofSource source file) file mode

end Offside
