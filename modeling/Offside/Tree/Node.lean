import Offside.Tree

/-!
# Trees as nodes with fields

Every part of a tree is a node with a kind and named fields in a fixed order. `Node` is that one
shape for all parts, for what looks at a tree without regard to its types: writing it out,
counting its leaves, listing its children.
-/
namespace Offside

mutual

/-- A part of a tree: its kind, and its fields in order. -/
structure Node where
  /-- The kind. -/
  kind : String
  /-- The fields. -/
  fields : List Field

/-- A named value of a node. -/
structure Field where
  /-- The name. -/
  name : String
  /-- The value. -/
  value : Value

/-- The value of a field. -/
inductive Value where
  /-- A part of the tree. -/
  | node (value : Node)
  /-- Several values. -/
  | list (items : List Value)
  /-- An identifier. -/
  | identifier (text : String)
  /-- A text. -/
  | text (value : String)
  /-- A byte list. -/
  | bytes (value : List UInt8)
  /-- A number. -/
  | number (value : Number)
  /-- A constant that is written as a word. -/
  | constant (value : Constant)
  /-- A count, or a flag as zero or one. -/
  | count (value : Nat)
  /-- A part that is not there. -/
  | absent

end

instance : Inhabited Node := ⟨⟨"", []⟩⟩

namespace Value

/-- A node with the given kind and fields, as a value. -/
def child (kind : String) (fields : List Field) : Value :=
  .node ⟨kind, fields⟩

/-- A node without fields, as a value. -/
def leaf (kind : String) : Value :=
  child kind []

/-- An identifier that may be missing. -/
def optionalIdentifier : Option String → Value
  | some word => .identifier word
  | none => .absent

/-- A flag, which is zero or one, as a count. -/
def flag (value : UInt8) : Value :=
  .count value.toNat

/-- Identifiers in order. -/
def identifiers (words : List String) : Value :=
  .list (words.map .identifier)

end Value

mutual

/-- The fields of an expression. -/
def Expr.fields : Expr → List Field
  | .boolOp operator values =>
    [⟨"op", .leaf operator.kind⟩, ⟨"values", .list (exprValues values)⟩]
  | .binOp left operator right =>
    [⟨"left", .child left.kind left.fields⟩, ⟨"op", .leaf operator.kind⟩,
     ⟨"right", .child right.kind right.fields⟩]
  | .unaryOp operator operand =>
    [⟨"op", .leaf operator.kind⟩, ⟨"operand", .child operand.kind operand.fields⟩]
  | .lambda parameters body =>
    [⟨"args", .child "arguments" parameters.fields⟩, ⟨"body", .child body.kind body.fields⟩]
  | .ifExp test body orelse =>
    [⟨"test", .child test.kind test.fields⟩, ⟨"body", .child body.kind body.fields⟩,
     ⟨"orelse", .child orelse.kind orelse.fields⟩]
  | .dict keys values =>
    [⟨"keys", .list (optionalValues keys)⟩, ⟨"values", .list (exprValues values)⟩]
  | .set elements => [⟨"elts", .list (exprValues elements)⟩]
  | .listComp element clauses | .setComp element clauses | .generator element clauses =>
    [⟨"elt", .child element.kind element.fields⟩,
     ⟨"generators", .list (clauseValues clauses)⟩]
  | .dictComp key value clauses =>
    [⟨"key", .child key.kind key.fields⟩, ⟨"value", .child value.kind value.fields⟩,
     ⟨"generators", .list (clauseValues clauses)⟩]
  | .await value => [⟨"value", .child value.kind value.fields⟩]
  | .yield value => [⟨"value", optionalValue value⟩]
  | .yieldFrom value => [⟨"value", .child value.kind value.fields⟩]
  | .compare left operators comparators =>
    [⟨"left", .child left.kind left.fields⟩,
     ⟨"ops", .list (operators.map fun operator => .leaf operator.kind)⟩,
     ⟨"comparators", .list (exprValues comparators)⟩]
  | .call function arguments keywords =>
    [⟨"func", .child function.kind function.fields⟩, ⟨"args", .list (exprValues arguments)⟩,
     ⟨"keywords", .list (keywordValues keywords)⟩]
  | .num value => [⟨"n", .number value⟩]
  | .str value => [⟨"s", .text value⟩]
  | .bytes value => [⟨"s", .bytes value⟩]
  | .constant value => [⟨"value", .constant value⟩]
  | .ellipsis => []
  | .attribute value name context =>
    [⟨"value", .child value.kind value.fields⟩, ⟨"attr", .identifier name⟩,
     ⟨"ctx", .leaf context.kind⟩]
  | .subscript value slice context =>
    [⟨"value", .child value.kind value.fields⟩, ⟨"slice", .child slice.kind slice.fields⟩,
     ⟨"ctx", .leaf context.kind⟩]
  | .starred value context =>
    [⟨"value", .child value.kind value.fields⟩, ⟨"ctx", .leaf context.kind⟩]
  | .name id context => [⟨"id", .identifier id⟩, ⟨"ctx", .leaf context.kind⟩]
  | .list elements context =>
    [⟨"elts", .list (exprValues elements)⟩, ⟨"ctx", .leaf context.kind⟩]
  | .tuple elements context =>
    [⟨"elts", .list (exprValues elements)⟩, ⟨"ctx", .leaf context.kind⟩]

/-- The fields of a slice. -/
def Slice.fields : Slice → List Field
  | .range lower upper step =>
    [⟨"lower", optionalValue lower⟩, ⟨"upper", optionalValue upper⟩, ⟨"step", optionalValue step⟩]
  | .dimensions slices => [⟨"dims", .list (sliceValues slices)⟩]
  | .index value => [⟨"value", .child value.kind value.fields⟩]

/-- The fields of parameters. -/
def Arguments.fields : Arguments → List Field
  | ⟨args, vararg, kwonlyargs, kwDefaults, kwarg, defaults⟩ =>
    [⟨"args", .list (argValues args)⟩, ⟨"vararg", optionalArgValue vararg⟩,
     ⟨"kwonlyargs", .list (argValues kwonlyargs)⟩,
     ⟨"kw_defaults", .list (optionalValues kwDefaults)⟩, ⟨"kwarg", optionalArgValue kwarg⟩,
     ⟨"defaults", .list (exprValues defaults)⟩]

/-- The fields of a parameter. -/
def Arg.fields : Arg → List Field
  | ⟨name, annotation⟩ => [⟨"arg", .identifier name⟩, ⟨"annotation", optionalValue annotation⟩]

/-- The fields of a named argument. -/
def Keyword.fields : Keyword → List Field
  | ⟨name, value⟩ =>
    [⟨"arg", .optionalIdentifier name⟩, ⟨"value", .child value.kind value.fields⟩]

/-- The fields of a clause. -/
def Comprehension.fields : Comprehension → List Field
  | ⟨target, iter, conditions, isAsync⟩ =>
    [⟨"target", .child target.kind target.fields⟩, ⟨"iter", .child iter.kind iter.fields⟩,
     ⟨"ifs", .list (exprValues conditions)⟩, ⟨"is_async", .flag isAsync⟩]

/-- Expressions as values. -/
def exprValues : List Expr → List Value
  | [] => []
  | value :: rest => .child value.kind value.fields :: exprValues rest

/-- An expression that may be missing, as a value. -/
def optionalValue : Option Expr → Value
  | none => .absent
  | some value => .child value.kind value.fields

/-- Expressions that may be missing, as values. -/
def optionalValues : List (Option Expr) → List Value
  | [] => []
  | value :: rest => optionalValue value :: optionalValues rest

/-- Slices as values. -/
def sliceValues : List Slice → List Value
  | [] => []
  | slice :: rest => .child slice.kind slice.fields :: sliceValues rest

/-- Parameters as values. -/
def argValues : List Arg → List Value
  | [] => []
  | arg :: rest => .child "arg" arg.fields :: argValues rest

/-- A parameter that may be missing, as a value. -/
def optionalArgValue : Option Arg → Value
  | none => .absent
  | some arg => .child "arg" arg.fields

/-- Named arguments as values. -/
def keywordValues : List Keyword → List Value
  | [] => []
  | keyword :: rest => .child "keyword" keyword.fields :: keywordValues rest

/-- Clauses as values. -/
def clauseValues : List Comprehension → List Value
  | [] => []
  | clause :: rest => .child "comprehension" clause.fields :: clauseValues rest

end

/-- An expression as a node. -/
def Expr.node (expr : Expr) : Node := ⟨expr.kind, expr.fields⟩

/-- A slice as a node. -/
def Slice.node (slice : Slice) : Node := ⟨slice.kind, slice.fields⟩

/-- Parameters as a node. -/
def Arguments.node (parameters : Arguments) : Node := ⟨"arguments", parameters.fields⟩

/-- A parameter as a node. -/
def Arg.node (arg : Arg) : Node := ⟨"arg", arg.fields⟩

/-- A named argument as a node. -/
def Keyword.node (keyword : Keyword) : Node := ⟨"keyword", keyword.fields⟩

/-- A clause as a node. -/
def Comprehension.node (clause : Comprehension) : Node := ⟨"comprehension", clause.fields⟩

/-- An imported name as a node. -/
def Alias.node (imported : Alias) : Node :=
  ⟨"alias", [⟨"name", .identifier imported.name⟩,
    ⟨"asname", .optionalIdentifier imported.asname⟩]⟩

/-- A context of a with statement as a node. -/
def WithItem.node (item : WithItem) : Node :=
  ⟨"withitem", [⟨"context_expr", .node item.context.node⟩,
    ⟨"optional_vars", optionalValue item.target⟩]⟩

/-- Imported names as a value. -/
def aliasList (names : List Alias) : Value :=
  .list (names.map fun name => .node name.node)

mutual

/-- The fields of a statement. -/
def Stmt.fields : Stmt → List Field
  | .functionDef _ name parameters body decorators returns _ =>
    [⟨"name", .identifier name⟩, ⟨"args", .node parameters.node⟩,
     ⟨"body", .list (stmtValues body)⟩, ⟨"decorator_list", .list (exprValues decorators)⟩,
     ⟨"returns", optionalValue returns⟩]
  | .classDef name bases keywords body decorators _ =>
    [⟨"name", .identifier name⟩, ⟨"bases", .list (exprValues bases)⟩,
     ⟨"keywords", .list (keywordValues keywords)⟩, ⟨"body", .list (stmtValues body)⟩,
     ⟨"decorator_list", .list (exprValues decorators)⟩]
  | .returnValue value => [⟨"value", optionalValue value⟩]
  | .delete targets => [⟨"targets", .list (exprValues targets)⟩]
  | .assign targets value =>
    [⟨"targets", .list (exprValues targets)⟩, ⟨"value", .node value.node⟩]
  | .augAssign target operator value =>
    [⟨"target", .node target.node⟩, ⟨"op", .leaf operator.kind⟩, ⟨"value", .node value.node⟩]
  | .annAssign target annotation value simple =>
    [⟨"target", .node target.node⟩, ⟨"annotation", .node annotation.node⟩,
     ⟨"value", optionalValue value⟩, ⟨"simple", .flag simple⟩]
  | .forLoop _ target iter body orelse =>
    [⟨"target", .node target.node⟩, ⟨"iter", .node iter.node⟩, ⟨"body", .list (stmtValues body)⟩,
     ⟨"orelse", .list (stmtValues orelse)⟩]
  | .whileLoop test body orelse | .ifElse test body orelse =>
    [⟨"test", .node test.node⟩, ⟨"body", .list (stmtValues body)⟩,
     ⟨"orelse", .list (stmtValues orelse)⟩]
  | .withItems _ items body =>
    [⟨"items", .list (items.map fun item => .node item.node)⟩,
     ⟨"body", .list (stmtValues body)⟩]
  | .raise exception cause =>
    [⟨"exc", optionalValue exception⟩, ⟨"cause", optionalValue cause⟩]
  | .tryExcept body handlers orelse final =>
    [⟨"body", .list (stmtValues body)⟩, ⟨"handlers", .list (handlerValues handlers)⟩,
     ⟨"orelse", .list (stmtValues orelse)⟩, ⟨"finalbody", .list (stmtValues final)⟩]
  | .assert test message => [⟨"test", .node test.node⟩, ⟨"msg", optionalValue message⟩]
  | .importModules names => [⟨"names", aliasList names⟩]
  | .importFrom module names level =>
    [⟨"module", .optionalIdentifier module⟩, ⟨"names", aliasList names⟩,
     ⟨"level", .count level⟩]
  | .globals names => [⟨"names", .identifiers names⟩]
  | .nonlocals names => [⟨"names", .identifiers names⟩]
  | .expr value => [⟨"value", .node value.node⟩]
  | .pass | .breakLoop | .continueLoop => []

/-- The fields of a handler. -/
def ExceptHandler.fields : ExceptHandler → List Field
  | ⟨type, name, body⟩ =>
    [⟨"type", optionalValue type⟩, ⟨"name", .optionalIdentifier name⟩,
     ⟨"body", .list (stmtValues body)⟩]

/-- Statements as values. -/
def stmtValues : List Stmt → List Value
  | [] => []
  | stmt :: rest => .child stmt.kind stmt.fields :: stmtValues rest

/-- Handlers as values. -/
def handlerValues : List ExceptHandler → List Value
  | [] => []
  | handler :: rest => .child "ExceptHandler" handler.fields :: handlerValues rest

end

/-- A statement as a node. -/
def Stmt.node (stmt : Stmt) : Node := ⟨stmt.kind, stmt.fields⟩

/-- A handler as a node. -/
def ExceptHandler.node (handler : ExceptHandler) : Node := ⟨"ExceptHandler", handler.fields⟩

/-- A root as a node. -/
def Root.node : Root → Node
  | .module body => ⟨"Module", [⟨"body", .list (stmtValues body)⟩]⟩
  | .interactive body => ⟨"Interactive", [⟨"body", .list (stmtValues body)⟩]⟩
  | .expression body => ⟨"Expression", [⟨"body", .node body.node⟩]⟩

mutual

/-- The nodes of a value: itself, or those in a list. -/
def Value.nodes : Value → List Node
  | .node value => [value]
  | .list items => itemNodes items
  | .identifier _ | .text _ | .bytes _ | .number _ | .constant _ | .count _ | .absent => []

/-- The nodes of values, in order. -/
def itemNodes : List Value → List Node
  | [] => []
  | item :: rest => item.nodes ++ itemNodes rest

end

/-- The nodes directly below a node, in the order of its fields. -/
def Node.children (node : Node) : List Node :=
  node.fields.flatMap fun field => field.value.nodes

mutual

/-- The number of nodes at or below a node that have no children. A node with children has at
least one leaf below it, so a sum of zero means that the node is itself a leaf. -/
def Node.leaves : Node → Nat
  | ⟨_, fields⟩ =>
    let below := fieldLeaves fields
    if below = 0 then 1 else below

/-- The leaves in fields. -/
def fieldLeaves : List Field → Nat
  | [] => 0
  | ⟨_, value⟩ :: rest => value.leaves + fieldLeaves rest

/-- The leaves in a value. -/
def Value.leaves : Value → Nat
  | .node value => value.leaves
  | .list items => itemLeaves items
  | .identifier _ | .text _ | .bytes _ | .number _ | .constant _ | .count _ | .absent => 0

/-- The leaves in values. -/
def itemLeaves : List Value → Nat
  | [] => 0
  | item :: rest => item.leaves + itemLeaves rest

end

mutual

/-- A node and all nodes below it with their depths, each before what is below it. -/
def Node.outline (depth : Nat) : Node → List (Nat × Node)
  | ⟨kind, fields⟩ => (depth, ⟨kind, fields⟩) :: fieldOutline (depth + 1) fields

/-- The nodes in fields with their depths. -/
def fieldOutline (depth : Nat) : List Field → List (Nat × Node)
  | [] => []
  | ⟨_, value⟩ :: rest => value.outline depth ++ fieldOutline depth rest

/-- The nodes in a value with their depths. -/
def Value.outline (depth : Nat) : Value → List (Nat × Node)
  | .node value => value.outline depth
  | .list items => itemOutline depth items
  | .identifier _ | .text _ | .bytes _ | .number _ | .constant _ | .count _ | .absent => []

/-- The nodes in values with their depths. -/
def itemOutline (depth : Nat) : List Value → List (Nat × Node)
  | [] => []
  | item :: rest => item.outline depth ++ itemOutline depth rest

end

end Offside
