import Offside.Grammar.Rule
import Offside.Layout
import Offside.Tree.Target

/-!
# Reading tokens

A parser reads the tokens in front of it and may fail with a fault at the first of them. A fault
leaves the state as it was when it was met, so reading can go on. Behind the last token the end
mark repeats, and a fault of the scan that made the tokens arises once, when the token behind the
last one is asked for.
-/
namespace Offside

/-- The state of a parser. -/
structure State where
  /-- The tokens that have not been read, without comments and soft breaks. -/
  ahead : List Token
  /-- The line of the last token that was read. -/
  line : Nat
  /-- The fault behind the tokens. -/
  failure : Option Fault
  /-- The name of the file. -/
  file : String
  /-- The meanings of tokens. -/
  grammar : Grammar
  /-- The decorators that wait for a definition. -/
  decorators : List Expr
  deriving Inhabited

namespace State

/-- The state before the first token of a stream. -/
def start (stream : Stream) (file : String) : Except Fault State :=
  let ahead := stream.tokens.filter Token.isSignificant
  match ahead, stream.failure with
  | [], some fault => .error fault
  | _, failure => .ok ⟨ahead, 1, failure, file, .standard, []⟩

/-- The token in front, or the end mark. -/
def current (state : State) : Token :=
  state.ahead.headD (.endMarker state.line)

/-- The position of the token in front. -/
def position (state : State) : Position :=
  ⟨state.current.line, state.file⟩

/-- A bound on the depth of what is read and on the turns of each loop: greater than the number
of tokens left, as each level and each turn takes a token. -/
def bound (state : State) : Nat :=
  state.ahead.length + 2

end State

/-- A parser of a value. -/
abbrev Parse := EStateM Fault State

/-- What one turn of a loop leads to. -/
inductive Turn (α β : Type) where
  /-- A further turn. -/
  | again (state : α)
  /-- The end of the loop. -/
  | done (result : β)

namespace Parse

variable {α β : Type}

/-- The token in front. -/
def current : Parse Token :=
  return (← get).current

/-- Fail with a cause at the token in front. -/
def fail (cause : Cause) : Parse α := fun state =>
  .error ⟨cause, state.position⟩ state

/-- The value of a computation, or a failure with its cause at the token in front. -/
def lift (result : Except Cause α) : Parse α :=
  match result with
  | .ok value => return value
  | .error cause => fail cause

/-- Take the token in front. -/
def advance : Parse Token := fun state =>
  match state.ahead, state.failure with
  | [], _ => .ok state.current state
  | [_], some fault => .error fault { state with failure := none }
  | token :: ahead, _ => .ok token { state with ahead, line := token.line }

/-- The token in front is the given name or operator. -/
def check (text : String) : Parse Bool :=
  return (← current).isText text

/-- The token in front is of the given kind. -/
def checkKind (kind : Kind) : Parse Bool :=
  return (← current).kind = kind

/-- Take the given name or operator, if it is in front. -/
def eat (text : String) : Parse Bool := do
  if ← check text then
    let _ ← advance
    return true
  return false

/-- Take a token of the given kind, if it is in front. The end mark is never taken. -/
def eatKind (kind : Kind) : Parse Bool := do
  if (← checkKind kind) && kind ≠ .endMarker then
    let _ ← advance
    return true
  return false

/-- Fail because something else than what is in front is required. -/
def failExpected (expected : String) : Parse α := do
  fail (.expectedToken expected (← current).describe)

/-- Take the given name or operator, which must be in front. -/
def expect (text : String) : Parse Token := do
  if ← check text then advance else failExpected text

/-- Take a token of the given kind, which must be in front. -/
def expectKind (kind : Kind) : Parse Token := do
  if ← checkKind kind then advance else failExpected kind.text

/-- Take a name that is no reserved word, which must be in front. -/
def expectName : Parse String := do
  let token ← current
  if token.kind = .name && !token.isKeyword then return (← advance).value
  else failExpected Kind.name.text

/-- The texts of the operators that end an expression. -/
def delimiters : List String := [";", "]", "\x7d", ")", ":", "="]

/-- The token in front ends an expression. -/
def atDelimiter : Parse Bool := do
  let token ← current
  return token.kind = .newline || token.kind = .endMarker ||
    (token.kind = .operator && delimiters.contains token.value)

/-- What the token in front means in expressions. -/
def behavior? : Parse (Option Behavior) :=
  return (← get).grammar.behavior? (← current)

/-- The rule for compound statements that start with the token in front. -/
def compoundRule? : Parse (Option StatementRule) :=
  return Grammar.statementRule? (← get).grammar.compound (← current)

/-- The rule for simple statements that start with the token in front. -/
def simpleRule? : Parse (Option StatementRule) :=
  return Grammar.statementRule? (← get).grammar.simple (← current)

/-- Fail because an expression is missing. -/
def failExpression : Parse α := do
  let token ← current
  match token.kind with
  | .indent => fail .unexpectedIndent
  | .dedent => fail .unexpectedDedent
  | _ => fail (.expectedExpression token.describe)

/-- Fail because a statement is missing. -/
def failStatement : Parse α := do
  let token ← current
  match token.kind with
  | .indent => fail .unexpectedIndent
  | .dedent => fail .unexpectedDedent
  | _ => fail (.expectedStatement token.describe)

/-- Put an expression behind the decorators that wait. -/
def pushDecorator (decorator : Expr) : Parse Unit :=
  modify fun state => { state with decorators := state.decorators ++ [decorator] }

/-- Take the decorators that wait. -/
def takeDecorators : Parse (List Expr) :=
  modifyGet fun state => (state.decorators, { state with decorators := [] })

/-- Decorators wait. -/
def hasDecorators : Parse Bool :=
  return !(← get).decorators.isEmpty

/-- Repeat a turn until it is done. The first argument bounds the number of turns. -/
def loop (turn : α → Parse (Turn α β)) : Nat → α → Parse β
  | 0, _ => failExpression
  | bound + 1, state => do
    match ← turn state with
    | .again next => loop turn bound next
    | .done result => return result

end Parse

end Offside
