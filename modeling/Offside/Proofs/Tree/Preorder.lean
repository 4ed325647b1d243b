import Offside.Proofs.Tree.Everywhere
import Offside.Tree.Node

/-!
# Walks and nodes

A tree can be gone through in two ways: by a walk, which knows the type of each part, and by the
nodes, which know their fields alone. A walk that enters every part lists the nodes that are reached
from the root through `Node.children`, each of them before its children, but for the operators and
the contexts (`Root.walk_nodes`).
-/
namespace Offside

/-- A part as a node. -/
@[simp] def Part.node : Part → Node
  | .root value => value.node
  | .stmt value => value.node
  | .expr value => value.node
  | .slice value => value.node
  | .arguments value => value.node
  | .arg value => value.node
  | .keyword value => value.node
  | .imported value => value.node
  | .withItem value => value.node
  | .comprehension value => value.node
  | .handler value => value.node

mutual

/-- A node among those of a value is smaller than the value. -/
theorem Value.sizeOf_lt {value : Value} {node : Node} (member : node ∈ value.nodes) :
    sizeOf node < sizeOf value := by
  cases value with
  | node found =>
    rw [Value.nodes, List.mem_singleton] at member
    subst member
    simp only [Value.node.sizeOf_spec]
    omega
  | list items =>
    have smaller : sizeOf node < sizeOf items := itemNodes_sizeOf_lt member
    simp only [Value.list.sizeOf_spec]
    omega
  | identifier | text | bytes | number | constant | count | absent =>
    simp [Value.nodes] at member

/-- A node among those of values is smaller than the values. -/
theorem itemNodes_sizeOf_lt {items : List Value} {node : Node} (member : node ∈ itemNodes items) :
    sizeOf node < sizeOf items := by
  cases items with
  | nil => simp [itemNodes] at member
  | cons item rest =>
    rw [itemNodes, List.mem_append] at member
    rcases member with here | later
    · have smaller := Value.sizeOf_lt here
      simp only [List.cons.sizeOf_spec]
      omega
    · have smaller := itemNodes_sizeOf_lt later
      simp only [List.cons.sizeOf_spec]
      omega

end

/-- A child is smaller than its node. -/
theorem Node.sizeOf_lt {node child : Node} (member : child ∈ node.children) :
    sizeOf child < sizeOf node := by
  obtain ⟨kind, fields⟩ := node
  obtain ⟨field, within, found⟩ := List.mem_flatMap.1 member
  obtain ⟨name, value⟩ := field
  have inField : sizeOf child < sizeOf value := Value.sizeOf_lt found
  have inFields := List.sizeOf_lt_of_mem within
  simp only [Node.mk.sizeOf_spec]
  simp only [Field.mk.sizeOf_spec] at inFields
  omega

/-- A node and all nodes that are reached from it through children, each before its own children
and these in the order of the fields. -/
def Node.preorder (node : Node) : List Node :=
  node :: node.children.attach.flatMap fun child => child.1.preorder
termination_by sizeOf node
decreasing_by exact Node.sizeOf_lt child.2

/-- The nodes from a node on are the node and those from each of its children on. -/
theorem Node.preorder_eq (node : Node) :
    node.preorder = node :: node.children.flatMap Node.preorder := by
  rw [Node.preorder, List.flatMap_subtype (g := Node.preorder) (fun _ _ => rfl),
    List.unattach_attach]

mutual

/-- The outline of a node lists the nodes from it on. -/
theorem Node.outline_nodes (depth : Nat) : ∀ node : Node,
    (node.outline depth).map Prod.snd = node.preorder
  | ⟨kind, fields⟩ => by
    rw [Node.outline, List.map_cons, fieldOutline_nodes (depth + 1) fields, Node.preorder_eq]
    rfl

/-- The outline of fields lists the nodes in each of them. -/
theorem fieldOutline_nodes (depth : Nat) : ∀ fields : List Field,
    (fieldOutline depth fields).map Prod.snd =
      (fields.flatMap fun field => field.value.nodes).flatMap Node.preorder
  | [] => rfl
  | ⟨_, value⟩ :: rest => by
    rw [fieldOutline, List.map_append, value.outline_nodes depth, fieldOutline_nodes depth rest,
      List.flatMap_cons, List.flatMap_append]

/-- The outline of a value lists the nodes in it. -/
theorem Value.outline_nodes (depth : Nat) : ∀ value : Value,
    (value.outline depth).map Prod.snd = value.nodes.flatMap Node.preorder
  | .node value => by
    rw [Value.outline, value.outline_nodes depth, Value.nodes, List.flatMap_singleton]
  | .list items => by rw [Value.outline, itemOutline_nodes depth items, Value.nodes]
  | .identifier _ | .text _ | .bytes _ | .number _ | .constant _ | .count _ | .absent => rfl

/-- The outline of values lists the nodes in each of them. -/
theorem itemOutline_nodes (depth : Nat) : ∀ items : List Value,
    (itemOutline depth items).map Prod.snd = (itemNodes items).flatMap Node.preorder
  | [] => rfl
  | item :: rest => by
    rw [itemOutline, List.map_append, item.outline_nodes depth, itemOutline_nodes depth rest,
      itemNodes, List.flatMap_append]

end

/-- The kinds of the operators and the contexts. -/
def markKinds : List String :=
  BinaryOperator.table.map (fun entry => entry.2.kind) ++
    [.invert, .not, .plus, .minus].map UnaryOperator.kind ++
    [.eq, .notEq, .lt, .ltE, .gt, .gtE, .is, .isNot, .isIn, .notIn].map Comparison.kind ++
    [.and, .or].map BooleanOperator.kind ++
    [.load, .store, .del, .augLoad, .augStore, .param].map Context.kind

/-- The node is an operator or a context. -/
def Node.isMark (node : Node) : Bool := markKinds.contains node.kind

/-- The nodes in a value without operators and contexts, each before its children. -/
def Value.inOrder (value : Value) : List Node :=
  (value.nodes.flatMap Node.preorder).filter fun node => !node.isMark

/-- The nodes in fields without operators and contexts, each before its children. -/
def fieldsInOrder (fields : List Field) : List Node :=
  fields.flatMap fun field => field.value.inOrder

/-- No fields. -/
@[simp] theorem fieldsInOrder_nil : fieldsInOrder [] = [] := rfl

/-- Fields one after the other. -/
@[simp] theorem fieldsInOrder_cons (name : String) (value : Value) (rest : List Field) :
    fieldsInOrder (⟨name, value⟩ :: rest) = value.inOrder ++ fieldsInOrder rest :=
  List.flatMap_cons

/-- The nodes from a node on, in its fields. -/
theorem Node.preorder_filter (node : Node) :
    node.preorder.filter (fun node => !node.isMark) =
      (if node.isMark then [] else [node]) ++ fieldsInOrder node.fields := by
  have below (fields : List Field) :
      ((fields.flatMap fun field => field.value.nodes).flatMap Node.preorder).filter
        (fun node => !node.isMark) = fieldsInOrder fields := by
    induction fields with
    | nil => rfl
    | cons field rest ih =>
      rw [List.flatMap_cons, List.flatMap_append, List.filter_append, ih]
      rfl
  rw [Node.preorder_eq, List.filter_cons, Node.children, below]
  cases node.isMark <;> rfl

namespace Value

/-- A node that is no mark comes before the nodes in its fields. -/
theorem inOrder_child {kind : String} (plain : markKinds.contains kind = false)
    (fields : List Field) :
    (child kind fields).inOrder = ⟨kind, fields⟩ :: fieldsInOrder fields := by
  have unmarked : Node.isMark ⟨kind, fields⟩ = false := plain
  rw [child, inOrder, nodes, List.flatMap_singleton, Node.preorder_filter, unmarked]
  rfl

/-- A mark is left out. -/
theorem inOrder_leaf {kind : String} (mark : kind ∈ markKinds) : (leaf kind).inOrder = [] := by
  have isMark : Node.isMark ⟨kind, []⟩ = true := List.contains_iff_mem.2 mark
  rw [leaf, child, inOrder, nodes, List.flatMap_singleton, Node.preorder_filter, isMark]
  rfl

/-- The nodes in no values. -/
@[simp] theorem inOrder_nil : (list []).inOrder = [] := rfl

/-- The nodes in values are those in each of them. -/
@[simp] theorem inOrder_cons (item : Value) (rest : List Value) :
    (list (item :: rest)).inOrder = item.inOrder ++ (list rest).inOrder := by
  rw [inOrder, nodes, itemNodes, List.flatMap_append, List.filter_append]
  rfl

/-- An identifier holds no nodes. -/
@[simp] theorem inOrder_identifier (word : String) : (identifier word).inOrder = [] := rfl

/-- A count holds no nodes. -/
@[simp] theorem inOrder_count (value : Nat) : (count value).inOrder = [] := rfl

/-- A flag holds no nodes. -/
@[simp] theorem inOrder_flag (value : UInt8) : (flag value).inOrder = [] := rfl

/-- An identifier that may be missing holds no nodes. -/
@[simp] theorem inOrder_optionalIdentifier (word : Option String) :
    (optionalIdentifier word).inOrder = [] := by
  cases word <;> rfl

/-- Identifiers hold no nodes. -/
@[simp] theorem inOrder_identifiers (words : List String) : (identifiers words).inOrder = [] := by
  induction words with
  | nil => rfl
  | cons word rest ih =>
    rw [identifiers] at ih
    rw [identifiers, List.map_cons, inOrder_cons, ih]
    rfl

/-- Comparisons are left out. -/
@[simp] theorem inOrder_comparisons (operators : List Comparison) :
    (list (operators.map fun operator => leaf operator.kind)).inOrder = [] := by
  induction operators with
  | nil => rfl
  | cons operator rest ih =>
    rw [List.map_cons, inOrder_cons, ih, List.append_nil]
    exact inOrder_leaf (by cases operator <;> decide)

end Value

section Marks

/-- A binary operator is left out. -/
@[simp] theorem BinaryOperator.inOrder (operator : BinaryOperator) :
    (Value.leaf operator.kind).inOrder = [] :=
  Value.inOrder_leaf (by cases operator <;> decide)

/-- A unary operator is left out. -/
@[simp] theorem UnaryOperator.inOrder (operator : UnaryOperator) :
    (Value.leaf operator.kind).inOrder = [] :=
  Value.inOrder_leaf (by cases operator <;> decide)

/-- A boolean operator is left out. -/
@[simp] theorem BooleanOperator.inOrder (operator : BooleanOperator) :
    (Value.leaf operator.kind).inOrder = [] :=
  Value.inOrder_leaf (by cases operator <;> decide)

/-- A context is left out. -/
@[simp] theorem Context.inOrder (context : Context) :
    (Value.leaf context.kind).inOrder = [] :=
  Value.inOrder_leaf (by cases context <;> decide)

end Marks

/-- An expression comes before the nodes in its fields. -/
@[simp] theorem Expr.inOrder_child (value : Expr) :
    (Value.child value.kind value.fields).inOrder = value.node :: fieldsInOrder value.fields :=
  Value.inOrder_child (by cases value <;> rfl) value.fields

/-- An expression comes before the nodes in its fields. -/
@[simp] theorem Expr.inOrder_node (value : Expr) :
    (Value.node value.node).inOrder = value.node :: fieldsInOrder value.fields :=
  value.inOrder_child

/-- A slice comes before the nodes in its fields. -/
@[simp] theorem Slice.inOrder_child (slice : Slice) :
    (Value.child slice.kind slice.fields).inOrder = slice.node :: fieldsInOrder slice.fields :=
  Value.inOrder_child (by cases slice <;> rfl) slice.fields

/-- Parameters come before the nodes in their fields. -/
@[simp] theorem Arguments.inOrder_child (parameters : Arguments) :
    (Value.child "arguments" parameters.fields).inOrder =
      parameters.node :: fieldsInOrder parameters.fields :=
  Value.inOrder_child rfl parameters.fields

/-- A statement comes before the nodes in its fields. -/
@[simp] theorem Stmt.inOrder_child (stmt : Stmt) :
    (Value.child stmt.kind stmt.fields).inOrder = stmt.node :: fieldsInOrder stmt.fields := by
  refine Value.inOrder_child ?_ stmt.fields
  cases stmt with
  | functionDef isAsync | forLoop isAsync | withItems isAsync => cases isAsync <;> rfl
  | _ => rfl

/-- A part that is entered comes before the parts below it. -/
@[simp] theorem Part.map_over (part : Part) (parts : List Part) :
    (part.over everyPart parts).map Part.node = part.node :: parts.map Part.node := rfl

mutual

/-- The parts below an expression are the nodes in its fields. -/
theorem Expr.parts_inOrder : ∀ value : Expr,
    (value.parts everyPart).map Part.node = fieldsInOrder value.fields
  | .boolOp _ values => by simp [Expr.parts, Expr.fields, exprs_inOrder values]
  | .binOp left _ right => by
    simp [Expr.parts, Expr.fields, left.parts_inOrder, right.parts_inOrder]
  | .unaryOp _ operand => by simp [Expr.parts, Expr.fields, operand.parts_inOrder]
  | .lambda parameters body => by
    simp [Expr.parts, Expr.fields, parameters.parts_inOrder, body.parts_inOrder]
  | .ifExp test body orelse => by
    simp [Expr.parts, Expr.fields, test.parts_inOrder, body.parts_inOrder, orelse.parts_inOrder]
  | .dict keys values => by
    simp [Expr.parts, Expr.fields, optionals_inOrder keys, exprs_inOrder values]
  | .set elements => by simp [Expr.parts, Expr.fields, exprs_inOrder elements]
  | .listComp element clauses | .setComp element clauses | .generator element clauses => by
    simp [Expr.parts, Expr.fields, element.parts_inOrder, clauses_inOrder clauses]
  | .dictComp key value clauses => by
    simp [Expr.parts, Expr.fields, key.parts_inOrder, value.parts_inOrder, clauses_inOrder clauses]
  | .await value => by simp [Expr.parts, Expr.fields, value.parts_inOrder]
  | .yield value => by simp [Expr.parts, Expr.fields, optional_inOrder value]
  | .yieldFrom value => by simp [Expr.parts, Expr.fields, value.parts_inOrder]
  | .compare left _ comparators => by
    simp [Expr.parts, Expr.fields, left.parts_inOrder, exprs_inOrder comparators]
  | .call function arguments keywords => by
    simp [Expr.parts, Expr.fields, function.parts_inOrder, exprs_inOrder arguments,
      keywords_inOrder keywords]
  | .num _ | .str _ | .bytes _ | .constant _ | .ellipsis => rfl
  | .attribute value _ _ => by
    simp [Expr.parts, Expr.fields, value.parts_inOrder]
  | .subscript value slice _ => by
    simp [Expr.parts, Expr.fields, value.parts_inOrder, slice.parts_inOrder]
  | .starred value _ => by simp [Expr.parts, Expr.fields, value.parts_inOrder]
  | .name _ _ => by simp [Expr.parts, Expr.fields]
  | .list elements _ => by simp [Expr.parts, Expr.fields, exprs_inOrder elements]
  | .tuple elements _ => by simp [Expr.parts, Expr.fields, exprs_inOrder elements]

/-- The parts below a slice are the nodes in its fields. -/
theorem Slice.parts_inOrder : ∀ slice : Slice,
    (slice.parts everyPart).map Part.node = fieldsInOrder slice.fields
  | .range lower upper step => by
    simp [Slice.parts, Slice.fields, optional_inOrder lower, optional_inOrder upper,
      optional_inOrder step]
  | .dimensions slices => by simp [Slice.parts, Slice.fields, slices_inOrder slices]
  | .index value => by simp [Slice.parts, Slice.fields, value.parts_inOrder]

/-- The parts below parameters are the nodes in their fields. -/
theorem Arguments.parts_inOrder : ∀ parameters : Arguments,
    (parameters.parts everyPart).map Part.node = fieldsInOrder parameters.fields
  | ⟨args, vararg, kwonlyargs, kwDefaults, kwarg, defaults⟩ => by
    simp [Arguments.parts, Arguments.fields, args_inOrder args, optionalArg_inOrder vararg,
      args_inOrder kwonlyargs, optionals_inOrder kwDefaults, optionalArg_inOrder kwarg,
      exprs_inOrder defaults]

/-- A parameter and the parts below it are the nodes from it on. -/
theorem Arg.walk_inOrder : ∀ arg : Arg,
    ((Part.arg arg).over everyPart (arg.parts everyPart)).map Part.node =
      (Value.child "arg" arg.fields).inOrder
  | ⟨name, annotation⟩ => by
    rw [Value.inOrder_child rfl]
    simp [Arg.parts, Arg.fields, Arg.node, optional_inOrder annotation]

/-- A named argument and the parts below it are the nodes from it on. -/
theorem Keyword.walk_inOrder : ∀ keyword : Keyword,
    ((Part.keyword keyword).over everyPart (keyword.parts everyPart)).map Part.node =
      (Value.child "keyword" keyword.fields).inOrder
  | ⟨name, value⟩ => by
    rw [Value.inOrder_child rfl]
    simp [Keyword.parts, Keyword.fields, Keyword.node, value.parts_inOrder]

/-- A clause and the parts below it are the nodes from it on. -/
theorem Comprehension.walk_inOrder : ∀ clause : Comprehension,
    ((Part.comprehension clause).over everyPart (clause.parts everyPart)).map Part.node =
      (Value.child "comprehension" clause.fields).inOrder
  | ⟨target, iter, conditions, isAsync⟩ => by
    rw [Value.inOrder_child rfl]
    simp [Comprehension.parts, Comprehension.fields, Comprehension.node, target.parts_inOrder,
      iter.parts_inOrder, exprs_inOrder conditions]

/-- A walk through expressions lists the nodes in them. -/
theorem exprs_inOrder : ∀ values : List Expr,
    (walkExprs everyPart values).map Part.node = (Value.list (exprValues values)).inOrder
  | [] => rfl
  | value :: rest => by
    simp [walkExprs, exprValues, value.parts_inOrder, exprs_inOrder rest]

/-- A walk through an expression that may be missing lists the nodes in it. -/
theorem optional_inOrder : ∀ value : Option Expr,
    (walkOptional everyPart value).map Part.node = (optionalValue value).inOrder
  | none => rfl
  | some value => by simp [walkOptional, optionalValue, value.parts_inOrder]

/-- A walk through expressions that may be missing lists the nodes in them. -/
theorem optionals_inOrder : ∀ values : List (Option Expr),
    (walkOptionals everyPart values).map Part.node = (Value.list (optionalValues values)).inOrder
  | [] => rfl
  | value :: rest => by
    simp [walkOptionals, optionalValues, optional_inOrder value, optionals_inOrder rest]

/-- A walk through slices lists the nodes in them. -/
theorem slices_inOrder : ∀ slices : List Slice,
    (walkSlices everyPart slices).map Part.node = (Value.list (sliceValues slices)).inOrder
  | [] => rfl
  | slice :: rest => by
    simp [walkSlices, sliceValues, slice.parts_inOrder, slices_inOrder rest]

/-- A walk through parameters lists the nodes in them. -/
theorem args_inOrder : ∀ args : List Arg,
    (walkArgs everyPart args).map Part.node = (Value.list (argValues args)).inOrder
  | [] => rfl
  | arg :: rest => by
    rw [walkArgs, List.map_append, arg.walk_inOrder, args_inOrder rest, argValues,
      Value.inOrder_cons]

/-- A walk through a parameter that may be missing lists the nodes in it. -/
theorem optionalArg_inOrder : ∀ arg : Option Arg,
    (walkOptionalArg everyPart arg).map Part.node = (optionalArgValue arg).inOrder
  | none => rfl
  | some arg => arg.walk_inOrder

/-- A walk through named arguments lists the nodes in them. -/
theorem keywords_inOrder : ∀ keywords : List Keyword,
    (walkKeywords everyPart keywords).map Part.node = (Value.list (keywordValues keywords)).inOrder
  | [] => rfl
  | keyword :: rest => by
    rw [walkKeywords, List.map_append, keyword.walk_inOrder, keywords_inOrder rest, keywordValues,
      Value.inOrder_cons]

/-- A walk through clauses lists the nodes in them. -/
theorem clauses_inOrder : ∀ clauses : List Comprehension,
    (walkClauses everyPart clauses).map Part.node = (Value.list (clauseValues clauses)).inOrder
  | [] => rfl
  | clause :: rest => by
    rw [walkClauses, List.map_append, clause.walk_inOrder, clauses_inOrder rest, clauseValues,
      Value.inOrder_cons]

end

/-- A walk through imported names lists them. -/
theorem aliases_inOrder (names : List Alias) :
    (walkAliases everyPart names).map Part.node = (aliasList names).inOrder := by
  induction names with
  | nil => rfl
  | cons name rest ih =>
    have first : (Value.node name.node).inOrder = [name.node] := by
      rw [Alias.node, ← Value.child, Value.inOrder_child rfl]
      simp
    rw [walkAliases, aliasList] at ih
    rw [walkAliases, aliasList, List.flatMap_cons, List.map_append, ih, List.map_cons,
      Value.inOrder_cons, first]
    rfl

/-- A walk through contexts lists the nodes in them. -/
theorem items_inOrder (items : List WithItem) :
    (items.flatMap (WithItem.walk everyPart)).map Part.node =
      (Value.list (items.map fun item => .node item.node)).inOrder := by
  induction items with
  | nil => rfl
  | cons item rest ih =>
    have first : (item.walk everyPart).map Part.node = (Value.node item.node).inOrder := by
      rw [WithItem.node, ← Value.child, Value.inOrder_child rfl]
      simp [WithItem.walk, WithItem.node, Expr.walk, item.context.parts_inOrder, optional_inOrder]
    rw [List.flatMap_cons, List.map_append, first, ih, List.map_cons, Value.inOrder_cons]

mutual

/-- The parts below a statement are the nodes in its fields. -/
theorem Stmt.parts_inOrder : ∀ stmt : Stmt,
    (stmt.parts everyPart).map Part.node = fieldsInOrder stmt.fields
  | .functionDef _ _ parameters body decorators returns _ => by
    have below := parameters.inOrder_child
    rw [Value.child, ← Arguments.node] at below
    simp [Stmt.parts, Stmt.fields, below, parameters.parts_inOrder, body_inOrder body,
      exprs_inOrder decorators, optional_inOrder returns]
  | .classDef _ bases keywords body decorators _ => by
    simp [Stmt.parts, Stmt.fields, exprs_inOrder bases, keywords_inOrder keywords,
      body_inOrder body, exprs_inOrder decorators]
  | .returnValue value => by simp [Stmt.parts, Stmt.fields, optional_inOrder value]
  | .delete targets => by simp [Stmt.parts, Stmt.fields, exprs_inOrder targets]
  | .assign targets value => by
    simp [Stmt.parts, Stmt.fields, Expr.walk, exprs_inOrder targets, value.parts_inOrder]
  | .augAssign target _ value => by
    simp [Stmt.parts, Stmt.fields, Expr.walk, target.parts_inOrder, value.parts_inOrder]
  | .annAssign target annotation value _ => by
    simp [Stmt.parts, Stmt.fields, Expr.walk, target.parts_inOrder,
      annotation.parts_inOrder, optional_inOrder value]
  | .forLoop _ target iter body orelse => by
    simp [Stmt.parts, Stmt.fields, Expr.walk, target.parts_inOrder, iter.parts_inOrder,
      body_inOrder body, body_inOrder orelse]
  | .whileLoop test body orelse | .ifElse test body orelse => by
    simp [Stmt.parts, Stmt.fields, Expr.walk, test.parts_inOrder, body_inOrder body,
      body_inOrder orelse]
  | .withItems _ items body => by
    simp [Stmt.parts, Stmt.fields, items_inOrder items, body_inOrder body]
  | .raise exception cause => by
    simp [Stmt.parts, Stmt.fields, optional_inOrder exception, optional_inOrder cause]
  | .tryExcept body handlers orelse final => by
    simp [Stmt.parts, Stmt.fields, body_inOrder body, handlers_inOrder handlers,
      body_inOrder orelse, body_inOrder final]
  | .assert test message => by
    simp [Stmt.parts, Stmt.fields, Expr.walk, test.parts_inOrder, optional_inOrder message]
  | .importModules names => by simp [Stmt.parts, Stmt.fields, aliases_inOrder names]
  | .importFrom _ names _ => by
    simp [Stmt.parts, Stmt.fields, aliases_inOrder names]
  | .globals _ | .nonlocals _ => by simp [Stmt.parts, Stmt.fields]
  | .expr value => by simp [Stmt.parts, Stmt.fields, Expr.walk, value.parts_inOrder]
  | .pass | .breakLoop | .continueLoop => rfl

/-- A handler and the parts below it are the nodes from it on. -/
theorem ExceptHandler.walk_inOrder : ∀ handler : ExceptHandler,
    ((Part.handler handler).over everyPart (handler.parts everyPart)).map Part.node =
      (Value.child "ExceptHandler" handler.fields).inOrder
  | ⟨type, name, body⟩ => by
    rw [Value.inOrder_child rfl]
    simp [ExceptHandler.parts, ExceptHandler.fields, ExceptHandler.node, optional_inOrder type,
      body_inOrder body]

/-- A walk through statements lists the nodes in them. -/
theorem body_inOrder : ∀ body : List Stmt,
    (walkBody everyPart body).map Part.node = (Value.list (stmtValues body)).inOrder
  | [] => rfl
  | stmt :: rest => by simp [walkBody, stmtValues, stmt.parts_inOrder, body_inOrder rest]

/-- A walk through handlers lists the nodes in them. -/
theorem handlers_inOrder : ∀ handlers : List ExceptHandler,
    (walkHandlers everyPart handlers).map Part.node = (Value.list (handlerValues handlers)).inOrder
  | [] => rfl
  | handler :: rest => by
    rw [walkHandlers, List.map_append, handler.walk_inOrder, handlers_inOrder rest, handlerValues,
      Value.inOrder_cons]

end

/-- A walk through a tree lists the nodes from the root on. -/
theorem Root.walk_inOrder (root : Root) :
    (root.walk everyPart).map Part.node = (Value.node root.node).inOrder := by
  cases root with
  | module body | interactive body =>
    rw [Root.node, ← Value.child, Value.inOrder_child rfl]
    simp [Root.walk, Root.node, body_inOrder body]
  | expression body =>
    rw [Root.node, ← Value.child, Value.inOrder_child rfl]
    simp [Root.walk, Root.node, Expr.walk, body.parts_inOrder]

/-- A walk that enters every part of a tree lists the nodes that are reached from the root through
children, each of them once and before its own children, but for operators and contexts. -/
theorem Root.walk_nodes (root : Root) :
    (root.walk everyPart).map Part.node =
      root.node.preorder.filter fun node => !node.isMark := by
  rw [root.walk_inOrder, Value.inOrder, Value.nodes, List.flatMap_singleton]

end Offside
