import Offside.Grammar.Simple

/-!
# Statements

A statement is a line of simple statements, or a compound statement: a header, a colon, and a
block that is indented or stands on the rest of the line. A rule of a compound statement gets a
`Scope`, which reads the statements inside. `statementAt` reads statements that are nested to a
bounded depth; each level of nesting takes a token.
-/
namespace Offside

open Parse

/-- How a rule reads the expressions and the statements that are inside. -/
structure Scope where
  /-- Reads expressions. -/
  inner : Inner
  /-- Reads a line of simple statements or a compound statement. -/
  statement : Parse (List Stmt)
  /-- Reads a line of simple statements. -/
  line : Parse (List Stmt)

namespace Scope

/-- An indented block, up to the token that closes it, which is taken. -/
def indented (scope : Scope) : Parse (List Stmt) := do
  let _ ← expectKind .indent
  loop (fun body => do
    if ← eatKind .dedent then return .done body
    else return .again (body ++ (← scope.statement))) scope.inner.bound []

/-- The block behind a colon: an indented block, or the rest of the line. -/
def suite (scope : Scope) : Parse (List Stmt) := do
  if ← eatKind .newline then scope.indented else scope.line

/-- A colon and the block behind it. -/
def colonSuite (scope : Scope) : Parse (List Stmt) := do
  let _ ← expect ":"
  scope.suite

/-- The block behind a word, if the word is in front, and no statements otherwise. -/
def optionalSuite (scope : Scope) (word : String) : Parse (List Stmt) := do
  if ← eat word then scope.colonSuite else return []

/-- The definition of a function, from the word def on. The decorators that wait are its own. -/
def functionDef (scope : Scope) (isAsync : Bool) (line : Nat) : Parse Stmt := do
  let _ ← expect "def"
  let name ← expectName
  let _ ← expect "("
  let parameters ← scope.inner.parameters .definition
  let _ ← expect ")"
  let returns ← if ← eat "->" then pure (some (← scope.inner.expr Power.any)) else pure none
  let _ ← expect ":"
  let decorators ← takeDecorators
  let body ← scope.suite
  return .functionDef isAsync name parameters body decorators returns line

/-- The definition of a class. The decorators that wait are its own. -/
def classDef (scope : Scope) : Parse Stmt := do
  let word ← advance
  let name ← expectName
  let found ← if ← eat "(" then scope.inner.callArguments else pure ⟨[], []⟩
  let _ ← expect ":"
  let decorators ← takeDecorators
  let body ← scope.suite
  return .classDef name found.positional found.keywords body decorators word.line

/-- A loop over a sequence, from the word for on. -/
def forLoop (scope : Scope) (isAsync : Bool) : Parse Stmt := do
  let _ ← expect "for"
  let (target, iter) ← scope.inner.forIn Power.any
  let body ← scope.colonSuite
  return .forLoop isAsync target iter body (← scope.optionalSuite "else")

/-- A context, with a target behind the word as. -/
def withItem (scope : Scope) : Parse WithItem := do
  let context ← scope.inner.expr Power.untilComma
  if ← eat "as" then
    match ← scope.inner.optionalTarget .store Power.untilComma with
    | some target => return ⟨context, some target⟩
    | none => fail (.expectedExpression (← current).describe)
  else return ⟨context, none⟩

/-- Contexts and the block inside them, from the word with on. -/
def withItems (scope : Scope) (isAsync : Bool) : Parse Stmt := do
  let _ ← expect "with"
  let items ← loop (fun items => do
    let items := items ++ [← scope.withItem]
    if ← eat "," then return .again items else return .done items) scope.inner.bound []
  return .withItems isAsync items (← scope.colonSuite)

/-- The word async, and the definition, the loop or the contexts behind it. -/
def async (scope : Scope) : Parse Stmt := do
  let word ← advance
  if ← check "def" then scope.functionDef true word.line
  else if ← hasDecorators then fail .unexpectedDecorator
  else if ← check "for" then scope.forLoop true
  else if ← check "with" then scope.withItems true
  else fail .unexpectedAsync

/-- A condition behind a word that is taken, and its block. -/
def condition (scope : Scope) : Parse (Expr × List Stmt) := do
  let _ ← advance
  let test ← scope.inner.expr Power.any
  return (test, ← scope.colonSuite)

/-- A choice. Each further condition is a choice of its own where the one before it does not
hold. -/
def ifElse (scope : Scope) : Parse Stmt := do
  let (test, body) ← scope.condition
  let others ← loop (fun others => do
    if ← check "elif" then return .again (others ++ [← scope.condition])
    else return .done others) scope.inner.bound []
  let last ← scope.optionalSuite "else"
  let nested := others.foldr (fun (test, body) orelse => [.ifElse test body orelse]) last
  return .ifElse test body nested

/-- A loop under a condition. -/
def whileLoop (scope : Scope) : Parse Stmt := do
  let (test, body) ← scope.condition
  return .whileLoop test body (← scope.optionalSuite "else")

/-- A handler, behind the word except. -/
def handler (scope : Scope) : Parse ExceptHandler := do
  if ← check ":" then return ⟨none, none, ← scope.colonSuite⟩
  else
    let type ← scope.inner.expr Power.any
    let name ← Inner.asName
    return ⟨some type, name, ← scope.colonSuite⟩

/-- Handled exceptions: a block, and handlers or a final block behind it. -/
def tryExcept (scope : Scope) : Parse Stmt := do
  let _ ← advance
  let body ← scope.colonSuite
  let handlers ← loop (fun handlers => do
    if ← eat "except" then return .again (handlers ++ [← scope.handler])
    else return .done handlers) scope.inner.bound []
  let orelse ← scope.optionalSuite "else"
  if ← eat "finally" then return .tryExcept body handlers orelse (← scope.colonSuite)
  else if handlers.isEmpty then fail .missingExceptOrFinally
  else return .tryExcept body handlers orelse []

end Scope

/-- Read a statement by a rule. -/
def StatementRule.parse (scope : Scope) : StatementRule → Parse Stmt
  | .functionDef => do scope.functionDef false (← current).line
  | .async => scope.async
  | .classDef => scope.classDef
  | .ifElse => scope.ifElse
  | .forLoop => scope.forLoop false
  | .whileLoop => scope.whileLoop
  | .withItems => scope.withItems false
  | .tryExcept => scope.tryExcept
  | .importModules => scope.inner.importStatement
  | .importFrom => scope.inner.importFromStatement
  | .breakLoop => Inner.wordStatement .breakLoop
  | .continueLoop => Inner.wordStatement .continueLoop
  | .pass => Inner.wordStatement .pass
  | .returnValue => scope.inner.returnStatement
  | .raise => scope.inner.raiseStatement
  | .assert => scope.inner.assertStatement
  | .delete => scope.inner.deleteStatement
  | .globals => return .globals (← scope.inner.nameList)
  | .nonlocals => return .nonlocals (← scope.inner.nameList)

namespace Scope

/-- A simple statement: by the rule of its first word, or one that starts with an expression. -/
def small (scope : Scope) : Parse Stmt := do
  match ← simpleRule? with
  | some rule => rule.parse scope
  | none => scope.inner.expressionStatement

/-- A line of simple statements between semicolons. The last one may have a semicolon too. -/
def simpleLine (scope : Scope) : Parse (List Stmt) := do
  let first ← scope.small
  let body ← loop (fun body => do
    if ← eat ";" then
      if (← checkKind .newline) || (← checkKind .endMarker) then return .done body
      else return .again (body ++ [← scope.small])
    else return .done body) scope.inner.bound [first]
  let _ ← expectKind .newline
  return body

/-- Decorators, each on a line of its own, which wait for the definition behind them. -/
def decorators (scope : Scope) : Parse Unit :=
  loop (fun _ => do
    if ← eat "@" then
      let decorator ← scope.inner.expr Power.target
      let _ ← expectKind .newline
      pushDecorator decorator
      return .again ()
    else return .done ()) scope.inner.bound ()

/-- The words before which decorators may stand. -/
def decorated : List String := ["def", "class", "async"]

/-- A line of simple statements or a compound statement, with the decorators before it. -/
def statementLine (scope : Scope) : Parse (List Stmt) := do
  scope.decorators
  let waiting ← hasDecorators
  match ← compoundRule? with
  | some rule =>
    let token ← current
    if waiting && !decorated.any token.isText then fail .unexpectedDecorator
    else return [← rule.parse scope]
  | none => if waiting then fail .unexpectedDecorator else scope.simpleLine

end Scope

mutual

/-- A statement that is nested at most as deep as the argument says. -/
def statementAt : Nat → Parse (List Stmt)
  | 0 => failStatement
  | depth + 1 =>
    Scope.statementLine ⟨.upTo (depth + 1), statementAt depth, lineAt depth⟩

/-- A line of simple statements that is nested at most as deep as the argument says. -/
def lineAt : Nat → Parse (List Stmt)
  | 0 => failStatement
  | depth + 1 =>
    Scope.simpleLine ⟨.upTo (depth + 1), statementAt depth, lineAt depth⟩

end

/-- What reads expressions and statements of any depth up to a bound. -/
def Scope.upTo (bound : Nat) : Scope := ⟨.upTo bound, statementAt bound, lineAt bound⟩

/-- Run a parser with what reads the statements in front. -/
def Scope.run {α : Type} (parser : Scope → Parse α) : Parse α := do
  parser (.upTo (← get).bound)

end Offside
