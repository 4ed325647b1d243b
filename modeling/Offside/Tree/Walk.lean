import Offside.Tree

/-!
# Walks through a tree

A walk lists the parts of a tree in order, each part before what is below it. It enters a part
only where it is asked to. Operators and contexts are no parts of a walk.
-/
namespace Offside

/-- A part of a tree, with its type. -/
inductive Part where
  /-- The root. -/
  | root (value : Root)
  /-- A statement. -/
  | stmt (value : Stmt)
  /-- An expression. -/
  | expr (value : Expr)
  /-- A slice. -/
  | slice (value : Slice)
  /-- Parameters. -/
  | arguments (value : Arguments)
  /-- A parameter. -/
  | arg (value : Arg)
  /-- A named argument. -/
  | keyword (value : Keyword)
  /-- An imported name. -/
  | imported (value : Alias)
  /-- A context of a with statement. -/
  | withItem (value : WithItem)
  /-- A clause. -/
  | comprehension (value : Comprehension)
  /-- A handler. -/
  | handler (value : ExceptHandler)

/-- A part, and what is below it if it is entered. -/
def Part.over (enter : Part → Bool) (part : Part) (parts : List Part) : List Part :=
  part :: if enter part then parts else []

mutual

/-- The parts below an expression. -/
def Expr.parts (enter : Part → Bool) : Expr → List Part
  | .boolOp _ values => walkExprs enter values
  | .binOp left _ right =>
    (Part.expr left).over enter (left.parts enter) ++
      (Part.expr right).over enter (right.parts enter)
  | .unaryOp _ operand => (Part.expr operand).over enter (operand.parts enter)
  | .lambda parameters body =>
    (Part.arguments parameters).over enter (parameters.parts enter) ++
      (Part.expr body).over enter (body.parts enter)
  | .ifExp test body orelse =>
    (Part.expr test).over enter (test.parts enter) ++
      (Part.expr body).over enter (body.parts enter) ++
      (Part.expr orelse).over enter (orelse.parts enter)
  | .dict keys values => walkOptionals enter keys ++ walkExprs enter values
  | .set elements => walkExprs enter elements
  | .listComp element clauses | .setComp element clauses | .generator element clauses =>
    (Part.expr element).over enter (element.parts enter) ++ walkClauses enter clauses
  | .dictComp key value clauses =>
    (Part.expr key).over enter (key.parts enter) ++
      (Part.expr value).over enter (value.parts enter) ++ walkClauses enter clauses
  | .await value => (Part.expr value).over enter (value.parts enter)
  | .yield value => walkOptional enter value
  | .yieldFrom value => (Part.expr value).over enter (value.parts enter)
  | .compare left _ comparators =>
    (Part.expr left).over enter (left.parts enter) ++ walkExprs enter comparators
  | .call function arguments keywords =>
    (Part.expr function).over enter (function.parts enter) ++ walkExprs enter arguments ++
      walkKeywords enter keywords
  | .num _ | .str _ | .bytes _ | .constant _ | .ellipsis => []
  | .attribute value _ _ => (Part.expr value).over enter (value.parts enter)
  | .subscript value slice _ =>
    (Part.expr value).over enter (value.parts enter) ++
      (Part.slice slice).over enter (slice.parts enter)
  | .starred value _ => (Part.expr value).over enter (value.parts enter)
  | .name _ _ => []
  | .list elements _ => walkExprs enter elements
  | .tuple elements _ => walkExprs enter elements

/-- The parts below a slice. -/
def Slice.parts (enter : Part → Bool) : Slice → List Part
  | .range lower upper step =>
    walkOptional enter lower ++ walkOptional enter upper ++ walkOptional enter step
  | .dimensions slices => walkSlices enter slices
  | .index value => (Part.expr value).over enter (value.parts enter)

/-- The parts below parameters. -/
def Arguments.parts (enter : Part → Bool) : Arguments → List Part
  | ⟨args, vararg, kwonlyargs, kwDefaults, kwarg, defaults⟩ =>
    walkArgs enter args ++ walkOptionalArg enter vararg ++ walkArgs enter kwonlyargs ++
      walkOptionals enter kwDefaults ++ walkOptionalArg enter kwarg ++ walkExprs enter defaults

/-- The parts below a parameter. -/
def Arg.parts (enter : Part → Bool) : Arg → List Part
  | ⟨_, annotation⟩ => walkOptional enter annotation

/-- The parts below a named argument. -/
def Keyword.parts (enter : Part → Bool) : Keyword → List Part
  | ⟨_, value⟩ => (Part.expr value).over enter (value.parts enter)

/-- The parts below a clause. -/
def Comprehension.parts (enter : Part → Bool) : Comprehension → List Part
  | ⟨target, iter, conditions, _⟩ =>
    (Part.expr target).over enter (target.parts enter) ++
      (Part.expr iter).over enter (iter.parts enter) ++ walkExprs enter conditions

/-- A walk through expressions. -/
def walkExprs (enter : Part → Bool) : List Expr → List Part
  | [] => []
  | value :: rest => (Part.expr value).over enter (value.parts enter) ++ walkExprs enter rest

/-- A walk through an expression that may be missing. -/
def walkOptional (enter : Part → Bool) : Option Expr → List Part
  | none => []
  | some value => (Part.expr value).over enter (value.parts enter)

/-- A walk through expressions that may be missing. -/
def walkOptionals (enter : Part → Bool) : List (Option Expr) → List Part
  | [] => []
  | value :: rest => walkOptional enter value ++ walkOptionals enter rest

/-- A walk through slices. -/
def walkSlices (enter : Part → Bool) : List Slice → List Part
  | [] => []
  | slice :: rest => (Part.slice slice).over enter (slice.parts enter) ++ walkSlices enter rest

/-- A walk through parameters. -/
def walkArgs (enter : Part → Bool) : List Arg → List Part
  | [] => []
  | arg :: rest => (Part.arg arg).over enter (arg.parts enter) ++ walkArgs enter rest

/-- A walk through a parameter that may be missing. -/
def walkOptionalArg (enter : Part → Bool) : Option Arg → List Part
  | none => []
  | some arg => (Part.arg arg).over enter (arg.parts enter)

/-- A walk through named arguments. -/
def walkKeywords (enter : Part → Bool) : List Keyword → List Part
  | [] => []
  | keyword :: rest =>
    (Part.keyword keyword).over enter (keyword.parts enter) ++ walkKeywords enter rest

/-- A walk through clauses. -/
def walkClauses (enter : Part → Bool) : List Comprehension → List Part
  | [] => []
  | clause :: rest =>
    (Part.comprehension clause).over enter (clause.parts enter) ++ walkClauses enter rest

end

/-- A walk through an expression. -/
def Expr.walk (enter : Part → Bool) (expr : Expr) : List Part :=
  (Part.expr expr).over enter (expr.parts enter)

/-- A walk through imported names. -/
def walkAliases (enter : Part → Bool) (names : List Alias) : List Part :=
  names.flatMap fun name => (Part.imported name).over enter []

/-- A walk through a context of a with statement. -/
def WithItem.walk (enter : Part → Bool) (item : WithItem) : List Part :=
  (Part.withItem item).over enter (item.context.walk enter ++ walkOptional enter item.target)

mutual

/-- The parts below a statement. -/
def Stmt.parts (enter : Part → Bool) : Stmt → List Part
  | .functionDef _ _ parameters body decorators returns _ =>
    (Part.arguments parameters).over enter (parameters.parts enter) ++ walkBody enter body ++
      walkExprs enter decorators ++ walkOptional enter returns
  | .classDef _ bases keywords body decorators _ =>
    walkExprs enter bases ++ walkKeywords enter keywords ++ walkBody enter body ++
      walkExprs enter decorators
  | .returnValue value => walkOptional enter value
  | .delete targets => walkExprs enter targets
  | .assign targets value => walkExprs enter targets ++ value.walk enter
  | .augAssign target _ value => target.walk enter ++ value.walk enter
  | .annAssign target annotation value _ =>
    target.walk enter ++ annotation.walk enter ++ walkOptional enter value
  | .forLoop _ target iter body orelse =>
    target.walk enter ++ iter.walk enter ++ walkBody enter body ++ walkBody enter orelse
  | .whileLoop test body orelse =>
    test.walk enter ++ walkBody enter body ++ walkBody enter orelse
  | .ifElse test body orelse =>
    test.walk enter ++ walkBody enter body ++ walkBody enter orelse
  | .withItems _ items body => items.flatMap (WithItem.walk enter) ++ walkBody enter body
  | .raise exception cause => walkOptional enter exception ++ walkOptional enter cause
  | .tryExcept body handlers orelse final =>
    walkBody enter body ++ walkHandlers enter handlers ++ walkBody enter orelse ++
      walkBody enter final
  | .assert test message => test.walk enter ++ walkOptional enter message
  | .importModules names => walkAliases enter names
  | .importFrom _ names _ => walkAliases enter names
  | .globals _ | .nonlocals _ => []
  | .expr value => value.walk enter
  | .pass | .breakLoop | .continueLoop => []

/-- The parts below a handler. -/
def ExceptHandler.parts (enter : Part → Bool) : ExceptHandler → List Part
  | ⟨type, _, body⟩ => walkOptional enter type ++ walkBody enter body

/-- A walk through statements. -/
def walkBody (enter : Part → Bool) : List Stmt → List Part
  | [] => []
  | stmt :: rest => (Part.stmt stmt).over enter (stmt.parts enter) ++ walkBody enter rest

/-- A walk through handlers. -/
def walkHandlers (enter : Part → Bool) : List ExceptHandler → List Part
  | [] => []
  | handler :: rest =>
    (Part.handler handler).over enter (handler.parts enter) ++ walkHandlers enter rest

end

/-- A walk through a tree. -/
def Root.walk (enter : Part → Bool) (root : Root) : List Part :=
  (Part.root root).over enter <|
    match root with
    | .module body => walkBody enter body
    | .interactive body => walkBody enter body
    | .expression body => body.walk enter

/-- A definition in a tree: its kind, its name and the line of its first word. -/
structure Definition where
  /-- The kind. -/
  kind : String
  /-- The name. -/
  name : String
  /-- The line. -/
  line : Nat
  deriving DecidableEq, Inhabited

/-- The definition that a statement is, if it is one. -/
def Stmt.definition? (stmt : Stmt) : Option Definition :=
  match stmt with
  | .functionDef _ name _ _ _ _ line => some ⟨stmt.kind, name, line⟩
  | .classDef name _ _ _ _ line => some ⟨stmt.kind, name, line⟩
  | _ => none

/-- The definitions of a tree, each before those inside it. -/
def Root.definitions (root : Root) : List Definition :=
  (root.walk fun _ => true).filterMap fun
    | .stmt stmt => stmt.definition?
    | _ => none

end Offside
