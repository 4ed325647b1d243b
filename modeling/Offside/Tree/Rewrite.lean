import Offside.Tree

/-!
# Rewriting trees

A rewriting replaces expressions and statements bottom up or top down, as its hooks decide. Each
hook gets the old node and an action that makes the new one from it: the hook may run that action
or not, and the effects of the actions happen in the order of the fields. An expression that is
an item of a list may become several or none, and so may a statement.
-/
namespace Offside

universe u

/-- The hooks of a rewriting with effects in `m`. -/
structure Rewrite (m : Type → Type u) where
  /-- The new expression, from the old one and the action that rebuilds it from new parts. -/
  expr : Expr → m Expr → m Expr
  /-- The new items for an item of a list, from the old one and the action that makes one new
  expression of it. -/
  item : Expr → m Expr → m (List Expr)
  /-- The new statements, from the old one and the action that rebuilds it from new parts. -/
  stmt : Stmt → m Stmt → m (List Stmt)

namespace Rewrite

variable {m : Type → Type u} [Monad m]

/-- The rewriting that changes nothing. -/
def identity : Rewrite m where
  expr _ rebuild := rebuild
  item _ rewritten := do return [← rewritten]
  stmt _ rebuild := do return [← rebuild]

end Rewrite

variable {m : Type → Type u} [Monad m]

mutual

/-- An expression with new parts. -/
def Expr.rebuild (rules : Rewrite m) : Expr → m Expr
  | .boolOp operator values => do return .boolOp operator (← rewriteItems rules values)
  | .binOp left operator right => do
    let left ← rules.expr left (left.rebuild rules)
    return .binOp left operator (← rules.expr right (right.rebuild rules))
  | .unaryOp operator operand => do
    return .unaryOp operator (← rules.expr operand (operand.rebuild rules))
  | .lambda parameters body => do
    let parameters ← parameters.rebuild rules
    return .lambda parameters (← rules.expr body (body.rebuild rules))
  | .ifExp test body orelse => do
    let test ← rules.expr test (test.rebuild rules)
    let body ← rules.expr body (body.rebuild rules)
    return .ifExp test body (← rules.expr orelse (orelse.rebuild rules))
  | .dict keys values => do
    let keys ← rewriteOptionals rules keys
    return .dict keys (← rewriteEach rules values)
  | .set elements => do return .set (← rewriteItems rules elements)
  | .listComp element clauses => do
    let element ← rules.expr element (element.rebuild rules)
    return .listComp element (← rewriteClauses rules clauses)
  | .setComp element clauses => do
    let element ← rules.expr element (element.rebuild rules)
    return .setComp element (← rewriteClauses rules clauses)
  | .dictComp key value clauses => do
    let key ← rules.expr key (key.rebuild rules)
    let value ← rules.expr value (value.rebuild rules)
    return .dictComp key value (← rewriteClauses rules clauses)
  | .generator element clauses => do
    let element ← rules.expr element (element.rebuild rules)
    return .generator element (← rewriteClauses rules clauses)
  | .await value => do return .await (← rules.expr value (value.rebuild rules))
  | .yield value => do return .yield (← rewriteOptional rules value)
  | .yieldFrom value => do return .yieldFrom (← rules.expr value (value.rebuild rules))
  | .compare left operators comparators => do
    let left ← rules.expr left (left.rebuild rules)
    return .compare left operators (← rewriteEach rules comparators)
  | .call function arguments keywords => do
    let function ← rules.expr function (function.rebuild rules)
    let arguments ← rewriteItems rules arguments
    return .call function arguments (← rewriteKeywords rules keywords)
  | .num value => return .num value
  | .str value => return .str value
  | .bytes value => return .bytes value
  | .constant value => return .constant value
  | .ellipsis => return .ellipsis
  | .attribute value name context => do
    return .attribute (← rules.expr value (value.rebuild rules)) name context
  | .subscript value slice context => do
    let value ← rules.expr value (value.rebuild rules)
    return .subscript value (← slice.rebuild rules) context
  | .starred value context => do
    return .starred (← rules.expr value (value.rebuild rules)) context
  | .name id context => return .name id context
  | .list elements context => do return .list (← rewriteItems rules elements) context
  | .tuple elements context => do return .tuple (← rewriteItems rules elements) context

/-- A slice with new parts. -/
def Slice.rebuild (rules : Rewrite m) : Slice → m Slice
  | .range lower upper step => do
    let lower ← rewriteOptional rules lower
    let upper ← rewriteOptional rules upper
    return .range lower upper (← rewriteOptional rules step)
  | .dimensions slices => do return .dimensions (← rewriteSlices rules slices)
  | .index value => do return .index (← rules.expr value (value.rebuild rules))

/-- Parameters with new parts. -/
def Arguments.rebuild (rules : Rewrite m) : Arguments → m Arguments
  | ⟨args, vararg, kwonlyargs, kwDefaults, kwarg, defaults⟩ => do
    let args ← rewriteArgs rules args
    let vararg ← rewriteOptionalArg rules vararg
    let kwonlyargs ← rewriteArgs rules kwonlyargs
    let kwDefaults ← rewriteOptionals rules kwDefaults
    let kwarg ← rewriteOptionalArg rules kwarg
    return ⟨args, vararg, kwonlyargs, kwDefaults, kwarg, ← rewriteEach rules defaults⟩

/-- A parameter with a new annotation. -/
def Arg.rebuild (rules : Rewrite m) : Arg → m Arg
  | ⟨name, annotation⟩ => do return ⟨name, ← rewriteOptional rules annotation⟩

/-- A named argument with a new value. -/
def Keyword.rebuild (rules : Rewrite m) : Keyword → m Keyword
  | ⟨name, value⟩ => do return ⟨name, ← rules.expr value (value.rebuild rules)⟩

/-- A clause with new parts. -/
def Comprehension.rebuild (rules : Rewrite m) : Comprehension → m Comprehension
  | ⟨target, iter, conditions, isAsync⟩ => do
    let target ← rules.expr target (target.rebuild rules)
    let iter ← rules.expr iter (iter.rebuild rules)
    return ⟨target, iter, ← rewriteItems rules conditions, isAsync⟩

/-- The new items of a list. -/
def rewriteItems (rules : Rewrite m) : List Expr → m (List Expr)
  | [] => return []
  | value :: rest => do
    let items ← rules.item value (rules.expr value (value.rebuild rules))
    return items ++ (← rewriteItems rules rest)

/-- New expressions, one for each. -/
def rewriteEach (rules : Rewrite m) : List Expr → m (List Expr)
  | [] => return []
  | value :: rest => do
    let value ← rules.expr value (value.rebuild rules)
    return value :: (← rewriteEach rules rest)

/-- A new expression for one that may be missing. -/
def rewriteOptional (rules : Rewrite m) : Option Expr → m (Option Expr)
  | none => return none
  | some value => do return some (← rules.expr value (value.rebuild rules))

/-- New expressions for ones that may be missing. -/
def rewriteOptionals (rules : Rewrite m) : List (Option Expr) → m (List (Option Expr))
  | [] => return []
  | value :: rest => do
    let value ← rewriteOptional rules value
    return value :: (← rewriteOptionals rules rest)

/-- New slices, one for each. -/
def rewriteSlices (rules : Rewrite m) : List Slice → m (List Slice)
  | [] => return []
  | slice :: rest => do
    let slice ← slice.rebuild rules
    return slice :: (← rewriteSlices rules rest)

/-- New parameters, one for each. -/
def rewriteArgs (rules : Rewrite m) : List Arg → m (List Arg)
  | [] => return []
  | arg :: rest => do
    let arg ← arg.rebuild rules
    return arg :: (← rewriteArgs rules rest)

/-- A new parameter for one that may be missing. -/
def rewriteOptionalArg (rules : Rewrite m) : Option Arg → m (Option Arg)
  | none => return none
  | some arg => do return some (← arg.rebuild rules)

/-- New named arguments, one for each. -/
def rewriteKeywords (rules : Rewrite m) : List Keyword → m (List Keyword)
  | [] => return []
  | keyword :: rest => do
    let keyword ← keyword.rebuild rules
    return keyword :: (← rewriteKeywords rules rest)

/-- New clauses, one for each. -/
def rewriteClauses (rules : Rewrite m) : List Comprehension → m (List Comprehension)
  | [] => return []
  | clause :: rest => do
    let clause ← clause.rebuild rules
    return clause :: (← rewriteClauses rules rest)

end

/-- The new expression for an expression. -/
def Expr.rewrite (rules : Rewrite m) (expr : Expr) : m Expr :=
  rules.expr expr (expr.rebuild rules)

/-- A context of a with statement with new parts. -/
def WithItem.rebuild (rules : Rewrite m) (item : WithItem) : m WithItem := do
  let context ← item.context.rewrite rules
  return ⟨context, ← rewriteOptional rules item.target⟩

mutual

/-- A statement with new parts. -/
def Stmt.rebuild (rules : Rewrite m) : Stmt → m Stmt
  | .functionDef isAsync name parameters body decorators returns line => do
    let parameters ← parameters.rebuild rules
    let body ← rewriteBody rules body
    let decorators ← rewriteItems rules decorators
    let returns ← rewriteOptional rules returns
    return .functionDef isAsync name parameters body decorators returns line
  | .classDef name bases keywords body decorators line => do
    let bases ← rewriteItems rules bases
    let keywords ← rewriteKeywords rules keywords
    let body ← rewriteBody rules body
    let decorators ← rewriteItems rules decorators
    return .classDef name bases keywords body decorators line
  | .returnValue value => do return .returnValue (← rewriteOptional rules value)
  | .delete targets => do return .delete (← rewriteItems rules targets)
  | .assign targets value => do
    let targets ← rewriteItems rules targets
    return .assign targets (← value.rewrite rules)
  | .augAssign target operator value => do
    let target ← target.rewrite rules
    return .augAssign target operator (← value.rewrite rules)
  | .annAssign target annotation value simple => do
    let target ← target.rewrite rules
    let annotation ← annotation.rewrite rules
    return .annAssign target annotation (← rewriteOptional rules value) simple
  | .forLoop isAsync target iter body orelse => do
    let target ← target.rewrite rules
    let iter ← iter.rewrite rules
    let body ← rewriteBody rules body
    return .forLoop isAsync target iter body (← rewriteBody rules orelse)
  | .whileLoop test body orelse => do
    let test ← test.rewrite rules
    let body ← rewriteBody rules body
    return .whileLoop test body (← rewriteBody rules orelse)
  | .ifElse test body orelse => do
    let test ← test.rewrite rules
    let body ← rewriteBody rules body
    return .ifElse test body (← rewriteBody rules orelse)
  | .withItems isAsync items body => do
    let items ← items.mapM (WithItem.rebuild rules)
    return .withItems isAsync items (← rewriteBody rules body)
  | .raise exception cause => do
    let exception ← rewriteOptional rules exception
    return .raise exception (← rewriteOptional rules cause)
  | .tryExcept body handlers orelse final => do
    let body ← rewriteBody rules body
    let handlers ← rewriteHandlers rules handlers
    let orelse ← rewriteBody rules orelse
    return .tryExcept body handlers orelse (← rewriteBody rules final)
  | .assert test message => do
    let test ← test.rewrite rules
    return .assert test (← rewriteOptional rules message)
  | .importModules names => return .importModules names
  | .importFrom module names level => return .importFrom module names level
  | .globals names => return .globals names
  | .nonlocals names => return .nonlocals names
  | .expr value => do return .expr (← value.rewrite rules)
  | .pass => return .pass
  | .breakLoop => return .breakLoop
  | .continueLoop => return .continueLoop

/-- A handler with new parts. -/
def ExceptHandler.rebuild (rules : Rewrite m) : ExceptHandler → m ExceptHandler
  | ⟨type, name, body⟩ => do
    let type ← rewriteOptional rules type
    return ⟨type, name, ← rewriteBody rules body⟩

/-- The new statements of a block. -/
def rewriteBody (rules : Rewrite m) : List Stmt → m (List Stmt)
  | [] => return []
  | stmt :: rest => do
    let stmts ← rules.stmt stmt (stmt.rebuild rules)
    return stmts ++ (← rewriteBody rules rest)

/-- New handlers, one for each. -/
def rewriteHandlers (rules : Rewrite m) : List ExceptHandler → m (List ExceptHandler)
  | [] => return []
  | handler :: rest => do
    let handler ← handler.rebuild rules
    return handler :: (← rewriteHandlers rules rest)

end

/-- The new tree for a tree. -/
def Root.rewrite (rules : Rewrite m) : Root → m Root
  | .module body => do return .module (← rewriteBody rules body)
  | .interactive body => do return .interactive (← rewriteBody rules body)
  | .expression body => do return .expression (← body.rewrite rules)

end Offside
