import Offside.Grammar.Operand

/-!
# Simple statements

The statements that stand on one line: expressions and the forms of assignment, and the
statements that a word starts. None of them holds other statements.
-/
namespace Offside

open Parse

namespace Inner

/-- An annotated target. A tuple or a list cannot be annotated, and a name is simple only without
parentheses. -/
def annotated (target annotation : Expr) (value : Option Expr) (grouped : Bool) : Parse Stmt :=
  match target with
  | .tuple .. | .list .. => fail .multipleAnnotationTargets
  | .name .. => return .annAssign target annotation value (!grouped).toUInt8
  | _ => return .annAssign target annotation value 0

/-- The targets and the value of an assignment, from the first target on, behind which an equals
sign stands. -/
def assignment (inner : Inner) (first : Expr) : Parse (List Expr × Expr) :=
  loop (fun (targets, value) => do
    if ← eat "=" then
      let target ← lift (value.withContext .store)
      return .again (targets ++ [target], ← inner.expr Power.any)
    else return .done (targets, value)) inner.bound ([], first)

/-- The operator that the token in front applies in place, if it is one that does. -/
def augmentedOperator? : Parse (Option BinaryOperator) := do
  let token ← current
  return if token.kind = .operator then BinaryOperator.ofAugmented? token.value else none

/-- The statement that starts with an expression and perhaps an annotation: an assignment, an
annotated target, an augmented assignment, or the expression alone. -/
def statementFrom (inner : Inner) (value : Expr) (declared : Option Expr) (grouped : Bool) :
    Parse Stmt := do
  if ← check "=" then
    match declared, ← inner.assignment value with
    | none, (targets, value) => return .assign targets value
    | some annotation, ([target], value) => annotated target annotation (some value) grouped
    | some _, _ => fail .multipleAnnotationTargets
  else
    match declared, ← augmentedOperator? with
    | some annotation, _ =>
      annotated (← lift (value.withContext .store)) annotation none grouped
    | none, some operator =>
      let _ ← advance
      let target ← lift (value.withContext .store)
      return .augAssign target operator (← inner.expr Power.any)
    | none, none => return .expr value

/-- No statement can start with the token in front: it opens or closes a block, or it is a
reserved word that starts no operand. -/
def atNoStatement : Parse Bool := do
  let token ← current
  let starts := ((← behavior?).bind Behavior.prefixRule).isSome
  return token.kind = .indent || token.kind = .dedent || (token.isKeyword && !starts)

/-- A statement that starts with an expression. -/
def expressionStatement (inner : Inner) : Parse Stmt := do
  if ← atNoStatement then failStatement
  else
    match ← inner.optionalOperand Power.any with
    | none => failStatement
    | some first =>
      let value ← first.finish
      let annotation ← if ← eat ":" then pure (some (← inner.expr Power.any)) else pure none
      inner.statementFrom value annotation (first.form = .grouped)

/-- A statement of one word. -/
def wordStatement (stmt : Stmt) : Parse Stmt := do
  let _ ← advance
  return stmt

/-- The word return, with a value or without. -/
def returnStatement (inner : Inner) : Parse Stmt := do
  let _ ← advance
  return .returnValue (← inner.optionalExpr Power.any)

/-- The word raise, alone, with an exception, or with an exception and its cause. -/
def raiseStatement (inner : Inner) : Parse Stmt := do
  let _ ← advance
  match ← inner.optionalExpr Power.any with
  | none => return .raise none none
  | some exception =>
    if ← eat "from" then return .raise (some exception) (some (← inner.expr Power.any))
    else return .raise (some exception) none

/-- The word assert, with a condition and perhaps a message. -/
def assertStatement (inner : Inner) : Parse Stmt := do
  let _ ← advance
  let test ← inner.expr Power.untilComma
  if ← eat "," then return .assert test (some (← inner.expr Power.untilComma))
  else return .assert test none

/-- The targets of a deletion. A trailing comma is allowed. -/
def deleteTargets (inner : Inner) : Parse (List Expr) :=
  loop (fun targets => do
    match ← inner.optionalTarget .del Power.untilComma with
    | none => return .done targets
    | some target =>
      let targets := targets ++ [target]
      if ← eat "," then return .again targets else return .done targets) inner.bound []

/-- The word del, with at least one target. -/
def deleteStatement (inner : Inner) : Parse Stmt := do
  let _ ← advance
  let targets ← inner.deleteTargets
  if targets.isEmpty then fail (.expectedExpression (← current).describe)
  else return .delete targets

/-- Names between commas, behind a word. -/
def nameList (inner : Inner) : Parse (List String) := do
  let _ ← advance
  let first ← expectName
  loop (fun names => do
    if ← eat "," then return .again (names ++ [← expectName]) else return .done names)
    inner.bound [first]

/-- The name of a module: names between points. -/
def dottedName (inner : Inner) : Parse String := do
  let first ← expectName
  loop (fun (name : String) => do
    if ← eat "." then return .again (name ++ "." ++ (← expectName)) else return .done name)
    inner.bound first

/-- The name behind the word as, if the word is in front. -/
def asName : Parse (Option String) := do
  if ← eat "as" then return some (← expectName) else return none

/-- The import of modules. -/
def importStatement (inner : Inner) : Parse Stmt := do
  let _ ← advance
  let names ← loop (fun names => do
    let name ← inner.dottedName
    let names := names ++ [(⟨name, ← asName⟩ : Alias)]
    if ← eat "," then return .again names else return .done names) inner.bound []
  return .importModules names

/-- The number of points before the name of a module. Three of them may stand as one token. -/
def leadingPoints (inner : Inner) : Parse Nat :=
  loop (fun level => do
    if ← eat "." then return .again (level + 1)
    else if ← eat "..." then return .again (level + 3)
    else return .done level) inner.bound 0

/-- The names of an import between commas. Only in parentheses may a comma be the last. -/
def importedNames (inner : Inner) (parenthesized : Bool) : Parse (List Alias) :=
  loop (fun names => do
    let name ← expectName
    let names := names ++ [(⟨name, ← asName⟩ : Alias)]
    if ← eat "," then
      if parenthesized && (← check ")") then return .done names else return .again names
    else return .done names) inner.bound []

/-- What is imported from a module: a star, or names with parentheses around them or without. -/
def importedList (inner : Inner) : Parse (List Alias) := do
  if ← eat "*" then return [⟨"*", none⟩]
  else if ← eat "(" then
    let names ← inner.importedNames true
    let _ ← expect ")"
    return names
  else inner.importedNames false

/-- The import of names from a module. Points alone name a package. -/
def importFromStatement (inner : Inner) : Parse Stmt := do
  let _ ← advance
  let level ← inner.leadingPoints
  let module ← if 0 < level && (← check "import") then pure none
    else pure (some (← inner.dottedName))
  let _ ← expect "import"
  return .importFrom module (← inner.importedList) level

end Inner

end Offside
