import Offside.Proofs.Grammar.Modules
import Offside.Proofs.Grammar.Outline
import Offside.Proofs.Grammar.Parameters
import Offside.Proofs.Grammar.Statements

/-!
# The turns of the loops

Each loop of the parser repeats a turn. The turns that have no name yet get one here, with the
equation that says whose turn it is, and `IsTurn` lists the turns of all loops.
-/
namespace Offside

open Parse

namespace Inner

variable (inner : Inner)

/-- An operand is read by the rule of its first token, and then in turns. -/
theorem operandWith_eq (turns : Nat) (power : Power) :
    operandWith inner turns power = (do
      let first ← (← prefixRule).parse inner
      loop (inner.climb power) turns first) :=
  rfl

/-- One turn of reading the further targets of a loop or a clause. -/
def targetTurn (targets : List Expr) : Parse (Turn (List Expr) (List Expr)) := do
  if !(← eat ",") then return .done targets
  if ← check "in" then return .done targets
  return .again (targets ++ [← inner.loopTarget])

/-- Further targets are read in turns. -/
theorem moreTargets_eq (first : Expr) :
    inner.moreTargets first = loop inner.targetTurn inner.bound [first] :=
  rfl

/-- One turn of reading the conditions of a clause. -/
def conditionTurn (conditions : List Expr) : Parse (Turn (List Expr) (List Expr)) := do
  if ← eat "if" then return .again (conditions ++ [← inner.expr Power.conditional])
  else return .done conditions

/-- Conditions are read in turns. -/
theorem conditions_eq : inner.conditions = loop inner.conditionTurn inner.bound [] :=
  rfl

/-- One turn of reading braces. -/
def braceTurn (entries : Entries) : Parse (Turn Entries Parsed) := do
  if ← eat "\x7d" then return .done (.plain entries.display)
  match ← inner.entry entries with
  | .done expr => return .done (.plain expr)
  | .again entries =>
    if ← eat "," then return .again entries
    let _ ← expect "\x7d"
    return .done (.plain entries.display)

/-- Braces are read in turns. -/
theorem braceRule_eq :
    inner.braceRule = (do let _ ← advance; loop inner.braceTurn inner.bound ⟨none, [], []⟩) :=
  rfl

/-- One turn of reading the dimensions of a subscript. -/
def dimensionTurn (found : List Slice × Bool) :
    Parse (Turn (List Slice × Bool) (List Slice × Bool)) := do
  let slices := found.1 ++ [← inner.dimension]
  if ← eat "," then
    if ← check "]" then return .done (slices, true) else return .again (slices, true)
  else return .done (slices, found.2)

/-- Dimensions are read in turns. -/
theorem dimensions_eq : inner.dimensions = loop inner.dimensionTurn inner.bound ([], false) :=
  rfl

/-- One turn of reading an assignment. -/
def assignmentTurn (found : List Expr × Expr) :
    Parse (Turn (List Expr × Expr) (List Expr × Expr)) := do
  if ← eat "=" then
    let target ← lift (found.2.withContext .store)
    return .again (found.1 ++ [target], ← inner.expr Power.any)
  else return .done (found.1, found.2)

/-- An assignment is read in turns. -/
theorem assignment_eq (first : Expr) :
    inner.assignment first = loop inner.assignmentTurn inner.bound ([], first) :=
  rfl

/-- One turn of reading the targets of a deletion. -/
def deletionTurn (targets : List Expr) : Parse (Turn (List Expr) (List Expr)) := do
  match ← inner.optionalTarget .del Power.untilComma with
  | none => return .done targets
  | some target =>
    let targets := targets ++ [target]
    if ← eat "," then return .again targets else return .done targets

/-- The targets of a deletion are read in turns. -/
theorem deleteTargets_eq : inner.deleteTargets = loop inner.deletionTurn inner.bound [] :=
  rfl

/-- One turn of reading names between commas. -/
def nameTurn (names : List String) : Parse (Turn (List String) (List String)) := do
  if ← eat "," then return .again (names ++ [← expectName]) else return .done names

/-- Names are read in turns. -/
theorem nameList_eq :
    inner.nameList = (do
      let _ ← advance
      let first ← expectName
      loop nameTurn inner.bound [first]) :=
  rfl

/-- One turn of reading the name of a module. -/
def partTurn (name : String) : Parse (Turn String String) := do
  if ← eat "." then return .again (name ++ "." ++ (← expectName)) else return .done name

/-- The name of a module is read in turns. -/
theorem dottedName_eq :
    inner.dottedName = (do
      let first ← expectName
      loop partTurn inner.bound first) :=
  rfl

/-- One turn of reading the modules of an import. -/
def importTurn (names : List Alias) : Parse (Turn (List Alias) (List Alias)) := do
  let name ← inner.dottedName
  let names := names ++ [(⟨name, ← asName⟩ : Alias)]
  if ← eat "," then return .again names else return .done names

/-- The modules of an import are read in turns. -/
theorem importStatement_eq :
    inner.importStatement = (do
      let _ ← advance
      let names ← loop inner.importTurn inner.bound []
      return .importModules names) :=
  rfl

/-- One turn of reading the points before the name of a module. -/
def pointTurn (level : Nat) : Parse (Turn Nat Nat) := do
  if ← eat "." then return .again (level + 1)
  else if ← eat "..." then return .again (level + 3)
  else return .done level

/-- Points are read in turns. -/
theorem leadingPoints_eq : inner.leadingPoints = loop pointTurn inner.bound 0 :=
  rfl

/-- One turn of reading the names of an import. -/
def importedTurn (parenthesized : Bool) (names : List Alias) :
    Parse (Turn (List Alias) (List Alias)) := do
  let name ← expectName
  let names := names ++ [(⟨name, ← asName⟩ : Alias)]
  if ← eat "," then
    if parenthesized && (← check ")") then return .done names else return .again names
  else return .done names

/-- The names of an import are read in turns. -/
theorem importedNames_eq (parenthesized : Bool) :
    inner.importedNames parenthesized = loop (importedTurn parenthesized) inner.bound [] :=
  rfl

end Inner

namespace Scope

variable (scope : Scope)

/-- A block is read in turns. -/
theorem indented_eq :
    scope.indented = (do let _ ← expectKind .indent; loop scope.blockTurn scope.inner.bound []) :=
  rfl

/-- One turn of reading contexts. -/
def contextTurn (items : List WithItem) : Parse (Turn (List WithItem) (List WithItem)) := do
  let items := items ++ [← scope.withItem]
  if ← eat "," then return .again items else return .done items

/-- Contexts are read in turns. -/
theorem withItems_eq (isAsync : Bool) :
    scope.withItems isAsync = (do
      let _ ← expect "with"
      let items ← loop scope.contextTurn scope.inner.bound []
      return .withItems isAsync items (← scope.colonSuite)) :=
  rfl

/-- One turn of reading the further conditions of a choice. -/
def branchTurn (others : List (Expr × List Stmt)) :
    Parse (Turn (List (Expr × List Stmt)) (List (Expr × List Stmt))) := do
  if ← check "elif" then return .again (others ++ [← scope.condition])
  else return .done others

/-- A choice is read in turns. -/
theorem ifElse_eq :
    scope.ifElse = (do
      let (test, body) ← scope.condition
      let others ← loop scope.branchTurn scope.inner.bound []
      let last ← scope.optionalSuite "else"
      let nested := others.foldr (fun (test, body) orelse => [.ifElse test body orelse]) last
      return .ifElse test body nested) :=
  rfl

/-- One turn of reading handlers. -/
def handlerTurn (handlers : List ExceptHandler) :
    Parse (Turn (List ExceptHandler) (List ExceptHandler)) := do
  if ← eat "except" then return .again (handlers ++ [← scope.handler])
  else return .done handlers

/-- Handlers are read in turns. -/
theorem tryExcept_eq :
    scope.tryExcept = (do
      let _ ← advance
      let body ← scope.colonSuite
      let handlers ← loop scope.handlerTurn scope.inner.bound []
      let orelse ← scope.optionalSuite "else"
      if ← eat "finally" then return .tryExcept body handlers orelse (← scope.colonSuite)
      else if handlers.isEmpty then fail .missingExceptOrFinally
      else return .tryExcept body handlers orelse []) :=
  rfl

/-- One turn of reading a line of simple statements. -/
def smallTurn (body : List Stmt) : Parse (Turn (List Stmt) (List Stmt)) := do
  if ← eat ";" then
    if (← checkKind .newline) || (← checkKind .endMarker) then return .done body
    else return .again (body ++ [← scope.small])
  else return .done body

/-- A line of simple statements is read in turns. -/
theorem simpleLine_eq :
    scope.simpleLine = (do
      let first ← scope.small
      let body ← loop scope.smallTurn scope.inner.bound [first]
      let _ ← expectKind .newline
      return body) :=
  rfl

/-- Decorators are read in turns. -/
theorem decorators_eq :
    scope.decorators = loop (fun _ => scope.nextDecorator) scope.inner.bound () :=
  rfl

end Scope

/-- The turns of the loops of the parser. -/
inductive IsTurn : {α β : Type} → (Scope → α → Parse (Turn α β)) → Prop where
  /-- The statement lines of a module. -/
  | moduleLine : IsTurn moduleTurn
  /-- The line ends behind one expression. -/
  | lineEnd : IsTurn fun _ => lineEndTurn
  /-- The statements of a block. -/
  | block : IsTurn Scope.blockTurn
  /-- The simple statements of a line. -/
  | small : IsTurn Scope.smallTurn
  /-- The decorators before a definition. -/
  | decorator : IsTurn fun scope (_ : Unit) => scope.nextDecorator
  /-- The contexts of a statement. -/
  | context : IsTurn Scope.contextTurn
  /-- The further conditions of a choice. -/
  | branch : IsTurn Scope.branchTurn
  /-- The handlers of exceptions. -/
  | handler : IsTurn Scope.handlerTurn
  /-- The targets and the value of an assignment. -/
  | assignment : IsTurn fun scope => scope.inner.assignmentTurn
  /-- The targets of a deletion. -/
  | deletion : IsTurn fun scope => scope.inner.deletionTurn
  /-- The names of the module, or of an enclosing function. -/
  | name : IsTurn fun _ => Inner.nameTurn
  /-- The parts of the name of a module. -/
  | part : IsTurn fun _ => Inner.partTurn
  /-- The modules of an import. -/
  | importModule : IsTurn fun scope => scope.inner.importTurn
  /-- The points before the name of a module. -/
  | point : IsTurn fun _ => Inner.pointTurn
  /-- The names of an import. -/
  | imported (parenthesized : Bool) : IsTurn fun _ => Inner.importedTurn parenthesized
  /-- What is read on behind an operand. -/
  | climb (power : Power) : IsTurn fun scope => scope.inner.climb power
  /-- The elements of a tuple. -/
  | tuple (power : Power) : IsTurn fun scope => Expr.tupleTurn scope.inner power
  /-- The elements of a list. -/
  | list : IsTurn fun scope => Expr.listTurn scope.inner
  /-- The entries in braces. -/
  | brace : IsTurn fun scope => scope.inner.braceTurn
  /-- The arguments of a call. -/
  | argument : IsTurn fun scope => Expr.argumentTurn scope.inner
  /-- The parameters of a signature. -/
  | parameter (signature : Signature) : IsTurn fun scope => parametersTurn scope.inner signature
  /-- The dimensions of a subscript. -/
  | dimension : IsTurn fun scope => scope.inner.dimensionTurn
  /-- The targets of a loop or a clause. -/
  | target : IsTurn fun scope => scope.inner.targetTurn
  /-- The conditions of a clause. -/
  | condition : IsTurn fun scope => scope.inner.conditionTurn

end Offside
