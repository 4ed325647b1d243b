import Mathlib.Logic.Basic
import Offside.Proofs.Tree.Everywhere
import Offside.Proofs.Tree.Lines
import Offside.Proofs.Tree.Telling

/-!
# Written trees tell the trees

Trees that are written alike are equal but for the lines of definitions, if all numbers in them are
integers (`Root.dump_injective`). The kind of a node tells its form, and each field of a form tells
its value.
-/
namespace Offside

open Value

/-- Numbers in a part are integers. -/
def Part.Integral : Part → Prop
  | .expr (.num value) => value.IsInteger
  | _ => True

section Marks

/-- Equal binary operators are told. -/
theorem BinaryOperator.tells (operator operator' : BinaryOperator) :
    (leaf operator.kind).Tells (leaf operator'.kind) (operator = operator') := by
  have plain (operator : BinaryOperator) : Unseparated operator.kind.toList :=
    unseparated_of_all (by cases operator <;> decide)
  refine tells_leaf (plain operator) (plain operator') fun same => ?_
  cases operator <;> cases operator' <;> first | rfl | exact absurd same (by decide)

/-- Equal unary operators are told. -/
theorem UnaryOperator.tells (operator operator' : UnaryOperator) :
    (leaf operator.kind).Tells (leaf operator'.kind) (operator = operator') := by
  have plain (operator : UnaryOperator) : Unseparated operator.kind.toList :=
    unseparated_of_all (by cases operator <;> decide)
  refine tells_leaf (plain operator) (plain operator') fun same => ?_
  cases operator <;> cases operator' <;> first | rfl | exact absurd same (by decide)

/-- Equal comparisons are told. -/
theorem Comparison.tells (operator operator' : Comparison) :
    (leaf operator.kind).Tells (leaf operator'.kind) (operator = operator') := by
  have plain (operator : Comparison) : Unseparated operator.kind.toList :=
    unseparated_of_all (by cases operator <;> decide)
  refine tells_leaf (plain operator) (plain operator') fun same => ?_
  cases operator <;> cases operator' <;> first | rfl | exact absurd same (by decide)

/-- Equal comparisons in order are told. -/
theorem comparisons_tell (operators operators' : List Comparison) :
    ItemsTell (operators.map fun operator => leaf operator.kind)
      (operators'.map fun operator => leaf operator.kind) (operators = operators') :=
  .map (fun operator => opens_child (unseparated_of_all (by cases operator <;> decide)) [])
    Comparison.tells operators operators'

/-- Equal boolean operators are told. -/
theorem BooleanOperator.tells (operator operator' : BooleanOperator) :
    (leaf operator.kind).Tells (leaf operator'.kind) (operator = operator') := by
  have plain (operator : BooleanOperator) : Unseparated operator.kind.toList :=
    unseparated_of_all (by cases operator <;> decide)
  refine tells_leaf (plain operator) (plain operator') fun same => ?_
  cases operator <;> cases operator' <;> first | rfl | exact absurd same (by decide)

/-- Equal contexts are told. -/
theorem Context.tells (context context' : Context) :
    (leaf context.kind).Tells (leaf context'.kind) (context = context') := by
  have plain (context : Context) : Unseparated context.kind.toList :=
    unseparated_of_all (by cases context <;> decide)
  refine tells_leaf (plain context) (plain context') fun same => ?_
  cases context <;> cases context' <;> first | rfl | exact absurd same (by decide)

end Marks

section Kinds

/-- The kind of an expression is a word. -/
theorem Expr.unseparated_kind (value : Expr) : Unseparated value.kind.toList :=
  unseparated_of_all (by cases value <;> (simp only [Expr.kind]; rfl))

/-- The kind of a slice is a word. -/
theorem Slice.unseparated_kind (slice : Slice) : Unseparated slice.kind.toList :=
  unseparated_of_all (by cases slice <;> (simp only [Slice.kind]; rfl))

/-- An expression that may be missing does not start with a closing bracket. -/
theorem opens_optionalValue (value : Option Expr) : (optionalValue value).Opens := by
  cases value with
  | none => exact opens_absent
  | some value => exact opens_child value.unseparated_kind value.fields

end Kinds

mutual

/-- Equal expressions are told. -/
theorem Expr.tells (value value' : Expr) (integral : value.All Part.Integral)
    (integral' : value'.All Part.Integral) :
    (child value.kind value.fields).Tells (child value'.kind value'.fields) (value = value') := by
  refine .ofKind value.unseparated_kind value'.unseparated_kind fun same => ?_
  -- The kinds of different forms differ, so two expressions of one form are left.
  cases value <;> cases value' <;> simp only [Expr.kind, String.reduceEq] at same
  case boolOp.boolOp operator values operator' values' =>
    refine .node (.cons (operator.tells operator') <|
      .cons (exprs_tell values values' integral.2 integral'.2).list .nil) ?_
    rintro ⟨rfl, rfl, -⟩
    rfl
  case binOp.binOp left operator right left' operator' right' =>
    refine .node (.cons (left.tells left' integral.2.1 integral'.2.1) <|
      .cons (operator.tells operator') <|
      .cons (right.tells right' integral.2.2 integral'.2.2) .nil) ?_
    rintro ⟨rfl, rfl, rfl, -⟩
    rfl
  case unaryOp.unaryOp operator operand operator' operand' =>
    refine .node (.cons (operator.tells operator') <|
      .cons (operand.tells operand' integral.2 integral'.2) .nil) ?_
    rintro ⟨rfl, rfl, -⟩
    rfl
  case lambda.lambda parameters body parameters' body' =>
    refine .node (.cons (parameters.tells parameters' integral.2.1 integral'.2.1) <|
      .cons (body.tells body' integral.2.2 integral'.2.2) .nil) ?_
    rintro ⟨rfl, rfl, -⟩
    rfl
  case ifExp.ifExp test body orelse test' body' orelse' =>
    refine .node (.cons (test.tells test' integral.2.1 integral'.2.1) <|
      .cons (body.tells body' integral.2.2.1 integral'.2.2.1) <|
      .cons (orelse.tells orelse' integral.2.2.2 integral'.2.2.2) .nil) ?_
    rintro ⟨rfl, rfl, rfl, -⟩
    rfl
  case dict.dict keys values keys' values' =>
    refine .node (.cons (keys_tell keys keys' integral.2.1 integral'.2.1).list <|
      .cons (exprs_tell values values' integral.2.2 integral'.2.2).list .nil) ?_
    rintro ⟨rfl, rfl, -⟩
    rfl
  case set.set elements elements' =>
    refine .node (.cons (exprs_tell elements elements' integral.2 integral'.2).list .nil) ?_
    rintro ⟨rfl, -⟩
    rfl
  case listComp.listComp element clauses element' clauses' =>
    refine .node (.cons (element.tells element' integral.2.1 integral'.2.1) <|
      .cons (clauses_tell clauses clauses' integral.2.2 integral'.2.2).list .nil) ?_
    rintro ⟨rfl, rfl, -⟩
    rfl
  case setComp.setComp element clauses element' clauses' =>
    refine .node (.cons (element.tells element' integral.2.1 integral'.2.1) <|
      .cons (clauses_tell clauses clauses' integral.2.2 integral'.2.2).list .nil) ?_
    rintro ⟨rfl, rfl, -⟩
    rfl
  case dictComp.dictComp key value clauses key' value' clauses' =>
    refine .node (.cons (key.tells key' integral.2.1 integral'.2.1) <|
      .cons (value.tells value' integral.2.2.1 integral'.2.2.1) <|
      .cons (clauses_tell clauses clauses' integral.2.2.2 integral'.2.2.2).list .nil) ?_
    rintro ⟨rfl, rfl, rfl, -⟩
    rfl
  case generator.generator element clauses element' clauses' =>
    refine .node (.cons (element.tells element' integral.2.1 integral'.2.1) <|
      .cons (clauses_tell clauses clauses' integral.2.2 integral'.2.2).list .nil) ?_
    rintro ⟨rfl, rfl, -⟩
    rfl
  case await.await value value' =>
    refine .node (.cons (value.tells value' integral.2 integral'.2) .nil) ?_
    rintro ⟨rfl, -⟩
    rfl
  case yield.yield value value' =>
    refine .node (.cons (optional_tells value value' integral.2 integral'.2) .nil) ?_
    rintro ⟨rfl, -⟩
    rfl
  case yieldFrom.yieldFrom value value' =>
    refine .node (.cons (value.tells value' integral.2 integral'.2) .nil) ?_
    rintro ⟨rfl, -⟩
    rfl
  case compare.compare left operators comparators left' operators' comparators' =>
    refine .node (.cons (left.tells left' integral.2.1 integral'.2.1) <|
      .cons (comparisons_tell operators operators').list <|
      .cons (exprs_tell comparators comparators' integral.2.2 integral'.2.2).list .nil) ?_
    rintro ⟨rfl, rfl, rfl, -⟩
    rfl
  case call.call function arguments keywords function' arguments' keywords' =>
    refine .node (.cons (function.tells function' integral.2.1 integral'.2.1) <|
      .cons (exprs_tell arguments arguments' integral.2.2.1 integral'.2.2.1).list <|
      .cons (keywords_tell keywords keywords' integral.2.2.2 integral'.2.2.2).list .nil) ?_
    rintro ⟨rfl, rfl, rfl, -⟩
    rfl
  case num.num value value' =>
    refine .node (.cons (tells_number integral integral') .nil) ?_
    rintro ⟨rfl, -⟩
    rfl
  case str.str value value' =>
    refine .node (.cons (tells_text value value') .nil) ?_
    rintro ⟨rfl, -⟩
    rfl
  case bytes.bytes value value' =>
    refine .node (.cons (tells_bytes value value') .nil) ?_
    rintro ⟨rfl, -⟩
    rfl
  case constant.constant value value' =>
    refine .node (.cons (tells_constant value value') .nil) ?_
    rintro ⟨rfl, -⟩
    rfl
  case ellipsis.ellipsis =>
    exact .node .nil fun _ => rfl
  case attribute.attribute value name context value' name' context' =>
    refine .node (.cons (value.tells value' integral.2 integral'.2) <|
      .cons (tells_identifier name name') <|
      .cons (context.tells context') .nil) ?_
    rintro ⟨rfl, rfl, rfl, -⟩
    rfl
  case subscript.subscript value slice context value' slice' context' =>
    refine .node (.cons (value.tells value' integral.2.1 integral'.2.1) <|
      .cons (slice.tells slice' integral.2.2 integral'.2.2) <|
      .cons (context.tells context') .nil) ?_
    rintro ⟨rfl, rfl, rfl, -⟩
    rfl
  case starred.starred value context value' context' =>
    refine .node (.cons (value.tells value' integral.2 integral'.2) <|
      .cons (context.tells context') .nil) ?_
    rintro ⟨rfl, rfl, -⟩
    rfl
  case name.name id context id' context' =>
    refine .node (.cons (tells_identifier id id') <|
      .cons (context.tells context') .nil) ?_
    rintro ⟨rfl, rfl, -⟩
    rfl
  case list.list elements context elements' context' =>
    refine .node (.cons (exprs_tell elements elements' integral.2 integral'.2).list <|
      .cons (context.tells context') .nil) ?_
    rintro ⟨rfl, rfl, -⟩
    rfl
  case tuple.tuple elements context elements' context' =>
    refine .node (.cons (exprs_tell elements elements' integral.2 integral'.2).list <|
      .cons (context.tells context') .nil) ?_
    rintro ⟨rfl, rfl, -⟩
    rfl
termination_by structural value

/-- Equal slices are told. -/
theorem Slice.tells (slice slice' : Slice) (integral : slice.All Part.Integral)
    (integral' : slice'.All Part.Integral) :
    (child slice.kind slice.fields).Tells (child slice'.kind slice'.fields) (slice = slice') := by
  refine .ofKind slice.unseparated_kind slice'.unseparated_kind fun same => ?_
  cases slice <;> cases slice' <;> simp only [Slice.kind, String.reduceEq] at same
  case range.range lower upper step lower' upper' step' =>
    refine .node (.cons (optional_tells lower lower' integral.2.1 integral'.2.1) <|
      .cons (optional_tells upper upper' integral.2.2.1 integral'.2.2.1) <|
      .cons (optional_tells step step' integral.2.2.2 integral'.2.2.2) .nil) ?_
    rintro ⟨rfl, rfl, rfl, -⟩
    rfl
  case dimensions.dimensions slices slices' =>
    refine .node (.cons (slices_tell slices slices' integral.2 integral'.2).list .nil) ?_
    rintro ⟨rfl, -⟩
    rfl
  case index.index value value' =>
    refine .node (.cons (value.tells value' integral.2 integral'.2) .nil) ?_
    rintro ⟨rfl, -⟩
    rfl
termination_by structural slice

/-- Equal parameters of a function are told. -/
theorem Arguments.tells : ∀ (parameters parameters' : Arguments),
    parameters.All Part.Integral → parameters'.All Part.Integral →
    (child "arguments" parameters.fields).Tells (child "arguments" parameters'.fields)
      (parameters = parameters')
  | ⟨args, vararg, kwonlyargs, kwDefaults, kwarg, defaults⟩,
    ⟨args', vararg', kwonlyargs', kwDefaults', kwarg', defaults'⟩, integral, integral' => by
    obtain ⟨-, first, second, third, fourth, fifth, sixth⟩ := integral
    obtain ⟨-, first', second', third', fourth', fifth', sixth'⟩ := integral'
    refine .node (.cons (args_tell args args' first first').list <|
      .cons (optionalArg_tells vararg vararg' second second') <|
      .cons (args_tell kwonlyargs kwonlyargs' third third').list <|
      .cons (keys_tell kwDefaults kwDefaults' fourth fourth').list <|
      .cons (optionalArg_tells kwarg kwarg' fifth fifth') <|
      .cons (exprs_tell defaults defaults' sixth sixth').list .nil) ?_
    rintro ⟨rfl, rfl, rfl, rfl, rfl, rfl, -⟩
    rfl
termination_by structural parameters => parameters

/-- Equal parameters are told. -/
theorem Arg.tells : ∀ (arg arg' : Arg), arg.All Part.Integral → arg'.All Part.Integral →
    (child "arg" arg.fields).Tells (child "arg" arg'.fields) (arg = arg')
  | ⟨name, annotation⟩, ⟨name', annotation'⟩, integral, integral' => by
    refine .node (.cons (tells_identifier name name') <|
      .cons (optional_tells annotation annotation' integral.2 integral'.2) .nil) ?_
    rintro ⟨rfl, rfl, -⟩
    rfl
termination_by structural arg => arg

/-- Equal named arguments are told. -/
theorem Keyword.tells : ∀ (keyword keyword' : Keyword), keyword.All Part.Integral →
    keyword'.All Part.Integral →
    (child "keyword" keyword.fields).Tells (child "keyword" keyword'.fields) (keyword = keyword')
  | ⟨name, value⟩, ⟨name', value'⟩, integral, integral' => by
    refine .node (.cons (tells_optionalIdentifier name name') <|
      .cons (value.tells value' integral.2 integral'.2) .nil) ?_
    rintro ⟨rfl, rfl, -⟩
    rfl
termination_by structural keyword => keyword

/-- Equal clauses are told. -/
theorem Comprehension.tells : ∀ (clause clause' : Comprehension), clause.All Part.Integral →
    clause'.All Part.Integral →
    (child "comprehension" clause.fields).Tells (child "comprehension" clause'.fields)
      (clause = clause')
  | ⟨target, iter, conditions, isAsync⟩, ⟨target', iter', conditions', isAsync'⟩, integral,
    integral' => by
    refine .node (.cons (target.tells target' integral.2.1 integral'.2.1) <|
      .cons (iter.tells iter' integral.2.2.1 integral'.2.2.1) <|
      .cons (exprs_tell conditions conditions' integral.2.2.2 integral'.2.2.2).list <|
      .cons (tells_flag isAsync isAsync') .nil) ?_
    rintro ⟨rfl, rfl, rfl, rfl, -⟩
    rfl
termination_by structural clause => clause

/-- Equal expressions in order are told. -/
theorem exprs_tell : ∀ (values values' : List Expr), exprsAll Part.Integral values →
    exprsAll Part.Integral values' →
    ItemsTell (exprValues values) (exprValues values') (values = values')
  | [], [], _, _ => .nil rfl
  | [], value' :: _, _, _ => .nil_cons (opens_child value'.unseparated_kind _)
  | value :: _, [], _, _ => (ItemsTell.nil_cons (opens_child value.unseparated_kind _)).symm
  | value :: rest, value' :: rest', integral, integral' =>
    .cons_cons (value.tells value' integral.1 integral'.1)
      (exprs_tell rest rest' integral.2 integral'.2)
termination_by structural values => values

/-- Equal expressions that may be missing are told. -/
theorem optional_tells : ∀ (value value' : Option Expr), optionalAll Part.Integral value →
    optionalAll Part.Integral value' →
    (optionalValue value).Tells (optionalValue value') (value = value')
  | none, none, _, _ => tells_absent rfl
  | none, some value', _, _ => tells_absent_child value'.unseparated_kind
  | some value, none, _, _ => (tells_absent_child value.unseparated_kind).symm
  | some value, some value', integral, integral' =>
    (value.tells value' integral integral').imp (congrArg some)
termination_by structural value => value

/-- Equal expressions in order that may be missing are told. -/
theorem keys_tell : ∀ (values values' : List (Option Expr)), keysAll Part.Integral values →
    keysAll Part.Integral values' →
    ItemsTell (optionalValues values) (optionalValues values') (values = values')
  | [], [], _, _ => .nil rfl
  | [], value' :: _, _, _ => .nil_cons (opens_optionalValue value')
  | value :: _, [], _, _ => (ItemsTell.nil_cons (opens_optionalValue value)).symm
  | value :: rest, value' :: rest', integral, integral' =>
    .cons_cons (optional_tells value value' integral.1 integral'.1)
      (keys_tell rest rest' integral.2 integral'.2)
termination_by structural values => values

/-- Equal slices in order are told. -/
theorem slices_tell : ∀ (slices slices' : List Slice), slicesAll Part.Integral slices →
    slicesAll Part.Integral slices' →
    ItemsTell (sliceValues slices) (sliceValues slices') (slices = slices')
  | [], [], _, _ => .nil rfl
  | [], slice' :: _, _, _ => .nil_cons (opens_child slice'.unseparated_kind _)
  | slice :: _, [], _, _ => (ItemsTell.nil_cons (opens_child slice.unseparated_kind _)).symm
  | slice :: rest, slice' :: rest', integral, integral' =>
    .cons_cons (slice.tells slice' integral.1 integral'.1)
      (slices_tell rest rest' integral.2 integral'.2)
termination_by structural slices => slices

/-- Equal parameters in order are told. -/
theorem args_tell : ∀ (args args' : List Arg), argsAll Part.Integral args →
    argsAll Part.Integral args' → ItemsTell (argValues args) (argValues args') (args = args')
  | [], [], _, _ => .nil rfl
  | [], _ :: _, _, _ => .nil_cons (opens_child (unseparated_of_all rfl) _)
  | _ :: _, [], _, _ => (ItemsTell.nil_cons (opens_child (unseparated_of_all rfl) _)).symm
  | arg :: rest, arg' :: rest', integral, integral' =>
    .cons_cons (arg.tells arg' integral.1 integral'.1)
      (args_tell rest rest' integral.2 integral'.2)
termination_by structural args => args

/-- Equal parameters that may be missing are told. -/
theorem optionalArg_tells : ∀ (arg arg' : Option Arg), optionalArgAll Part.Integral arg →
    optionalArgAll Part.Integral arg' →
    (optionalArgValue arg).Tells (optionalArgValue arg') (arg = arg')
  | none, none, _, _ => tells_absent rfl
  | none, some _, _, _ => tells_absent_child (unseparated_of_all rfl)
  | some _, none, _, _ => (tells_absent_child (unseparated_of_all rfl)).symm
  | some arg, some arg', integral, integral' =>
    (arg.tells arg' integral integral').imp (congrArg some)
termination_by structural arg => arg

/-- Equal named arguments in order are told. -/
theorem keywords_tell : ∀ (keywords keywords' : List Keyword),
    keywordsAll Part.Integral keywords → keywordsAll Part.Integral keywords' →
    ItemsTell (keywordValues keywords) (keywordValues keywords') (keywords = keywords')
  | [], [], _, _ => .nil rfl
  | [], _ :: _, _, _ => .nil_cons (opens_child (unseparated_of_all rfl) _)
  | _ :: _, [], _, _ => (ItemsTell.nil_cons (opens_child (unseparated_of_all rfl) _)).symm
  | keyword :: rest, keyword' :: rest', integral, integral' =>
    .cons_cons (keyword.tells keyword' integral.1 integral'.1)
      (keywords_tell rest rest' integral.2 integral'.2)
termination_by structural keywords => keywords

/-- Equal clauses in order are told. -/
theorem clauses_tell : ∀ (clauses clauses' : List Comprehension),
    clausesAll Part.Integral clauses → clausesAll Part.Integral clauses' →
    ItemsTell (clauseValues clauses) (clauseValues clauses') (clauses = clauses')
  | [], [], _, _ => .nil rfl
  | [], _ :: _, _, _ => .nil_cons (opens_child (unseparated_of_all rfl) _)
  | _ :: _, [], _, _ => (ItemsTell.nil_cons (opens_child (unseparated_of_all rfl) _)).symm
  | clause :: rest, clause' :: rest', integral, integral' =>
    .cons_cons (clause.tells clause' integral.1 integral'.1)
      (clauses_tell rest rest' integral.2 integral'.2)
termination_by structural clauses => clauses

end

section Names

/-- An imported name is told. -/
theorem Alias.tells (name name' : Alias) :
    (Value.node name.node).Tells (.node name'.node) (name = name') := by
  obtain ⟨word, asname⟩ := name
  obtain ⟨word', asname'⟩ := name'
  refine .node (.cons (tells_identifier word word') <|
    .cons (tells_optionalIdentifier asname asname') .nil) ?_
  rintro ⟨rfl, rfl, -⟩
  rfl

/-- Imported names in order are told. -/
theorem aliases_tell (names names' : List Alias) :
    ItemsTell (names.map fun name => .node name.node) (names'.map fun name => .node name.node)
      (names = names') :=
  .map (fun _ => opens_child (unseparated_of_all rfl) _) Alias.tells names names'

/-- A context of a with statement is told. -/
theorem WithItem.tells (item item' : WithItem) (integral : item.All Part.Integral)
    (integral' : item'.All Part.Integral) :
    (Value.node item.node).Tells (.node item'.node) (item = item') := by
  obtain ⟨context, target⟩ := item
  obtain ⟨context', target'⟩ := item'
  refine .node (.cons (context.tells context' integral.2.1 integral'.2.1) <|
    .cons (optional_tells target target' integral.2.2 integral'.2.2) .nil) ?_
  rintro ⟨rfl, rfl, -⟩
  rfl

/-- Contexts of a with statement are told in order. -/
theorem items_tell : ∀ (items items' : List WithItem), (∀ item ∈ items, item.All Part.Integral) →
    (∀ item ∈ items', item.All Part.Integral) →
    ItemsTell (items.map fun item => .node item.node) (items'.map fun item => .node item.node)
      (items = items')
  | [], [], _, _ => .nil rfl
  | [], _ :: _, _, _ => .nil_cons (opens_child (unseparated_of_all rfl) _)
  | _ :: _, [], _, _ => (ItemsTell.nil_cons (opens_child (unseparated_of_all rfl) _)).symm
  | item :: rest, item' :: rest', integral, integral' => by
    obtain ⟨here, below⟩ := List.forall_mem_cons.1 integral
    obtain ⟨here', below'⟩ := List.forall_mem_cons.1 integral'
    exact .cons_cons (item.tells item' here here') (items_tell rest rest' below below')

end Names

/-- The line zero for every line. -/
def eraseLine (_ : Nat) : Nat := 0

/-- The kind of a statement is a word. -/
theorem Stmt.unseparated_kind (stmt : Stmt) : Unseparated stmt.kind.toList := by
  refine unseparated_of_all ?_
  cases stmt with
  | functionDef isAsync | forLoop isAsync | withItems isAsync =>
    rw [Stmt.kind]
    cases isAsync <;> rfl
  | _ => simp only [Stmt.kind]; rfl

/-- Flags that are set together are equal. -/
theorem async_eq {isAsync isAsync' : Bool}
    (same : isAsync' = true ∧ isAsync = true ∨ ¬isAsync' = true ∧ ¬isAsync = true) :
    isAsync = isAsync' := by
  cases isAsync <;> cases isAsync' <;> simp at same ⊢

mutual

/-- Statements that are equal but for lines are told. -/
theorem Stmt.tells (stmt stmt' : Stmt) (integral : stmt.All Part.Integral)
    (integral' : stmt'.All Part.Integral) :
    (child stmt.kind stmt.fields).Tells (child stmt'.kind stmt'.fields)
      (stmt.moveLines eraseLine = stmt'.moveLines eraseLine) := by
  refine .ofKind stmt.unseparated_kind stmt'.unseparated_kind fun same => ?_
  -- The kinds of different forms differ, so two statements of one form are left.
  cases stmt <;> cases stmt' <;>
    simp only [Stmt.kind, ite_eq_iff, eq_ite_iff, String.reduceEq, and_false, and_true, or_self,
      or_false, false_or] at same
  case functionDef.functionDef isAsync name parameters body decorators returns line
      isAsync' name' parameters' body' decorators' returns' line' =>
    obtain rfl : isAsync = isAsync' := async_eq same
    refine .node (.cons (tells_identifier name name') <|
      .cons (parameters.tells parameters' integral.2.1 integral'.2.1) <|
      .cons (body_tells body body' integral.2.2.1 integral'.2.2.1).list <|
      .cons (exprs_tell decorators decorators' integral.2.2.2.1 integral'.2.2.2.1).list <|
      .cons (optional_tells returns returns' integral.2.2.2.2 integral'.2.2.2.2) .nil) ?_
    rintro ⟨rfl, rfl, body, rfl, rfl, -⟩
    simp only [Stmt.moveLines, body, eraseLine]
  case classDef.classDef name bases keywords body decorators line
      name' bases' keywords' body' decorators' line' =>
    refine .node (.cons (tells_identifier name name') <|
      .cons (exprs_tell bases bases' integral.2.1 integral'.2.1).list <|
      .cons (keywords_tell keywords keywords' integral.2.2.1 integral'.2.2.1).list <|
      .cons (body_tells body body' integral.2.2.2.1 integral'.2.2.2.1).list <|
      .cons (exprs_tell decorators decorators' integral.2.2.2.2 integral'.2.2.2.2).list .nil) ?_
    rintro ⟨rfl, rfl, rfl, body, rfl, -⟩
    simp only [Stmt.moveLines, body, eraseLine]
  case returnValue.returnValue value value' =>
    refine .node (.cons (optional_tells value value' integral.2 integral'.2) .nil) ?_
    rintro ⟨rfl, -⟩
    rfl
  case delete.delete targets targets' =>
    refine .node (.cons (exprs_tell targets targets' integral.2 integral'.2).list .nil) ?_
    rintro ⟨rfl, -⟩
    rfl
  case assign.assign targets value targets' value' =>
    refine .node (.cons (exprs_tell targets targets' integral.2.1 integral'.2.1).list <|
      .cons (value.tells value' integral.2.2 integral'.2.2) .nil) ?_
    rintro ⟨rfl, rfl, -⟩
    rfl
  case augAssign.augAssign target operator value target' operator' value' =>
    refine .node (.cons (target.tells target' integral.2.1 integral'.2.1) <|
      .cons (operator.tells operator') <|
      .cons (value.tells value' integral.2.2 integral'.2.2) .nil) ?_
    rintro ⟨rfl, rfl, rfl, -⟩
    rfl
  case annAssign.annAssign target annotation value simple target' annotation' value' simple' =>
    refine .node (.cons (target.tells target' integral.2.1 integral'.2.1) <|
      .cons (Expr.tells annotation annotation' integral.2.2.1 integral'.2.2.1) <|
      .cons (optional_tells value value' integral.2.2.2 integral'.2.2.2) <|
      .cons (tells_flag simple simple') .nil) ?_
    rintro ⟨rfl, rfl, rfl, rfl, -⟩
    rfl
  case forLoop.forLoop isAsync target iter body orelse isAsync' target' iter' body' orelse' =>
    obtain rfl : isAsync = isAsync' := async_eq same
    refine .node (.cons (target.tells target' integral.2.1 integral'.2.1) <|
      .cons (iter.tells iter' integral.2.2.1 integral'.2.2.1) <|
      .cons (body_tells body body' integral.2.2.2.1 integral'.2.2.2.1).list <|
      .cons (body_tells orelse orelse' integral.2.2.2.2 integral'.2.2.2.2).list .nil) ?_
    rintro ⟨rfl, rfl, body, orelse, -⟩
    simp only [Stmt.moveLines, body, orelse]
  case whileLoop.whileLoop test body orelse test' body' orelse' =>
    refine .node (.cons (test.tells test' integral.2.1 integral'.2.1) <|
      .cons (body_tells body body' integral.2.2.1 integral'.2.2.1).list <|
      .cons (body_tells orelse orelse' integral.2.2.2 integral'.2.2.2).list .nil) ?_
    rintro ⟨rfl, body, orelse, -⟩
    simp only [Stmt.moveLines, body, orelse]
  case ifElse.ifElse test body orelse test' body' orelse' =>
    refine .node (.cons (test.tells test' integral.2.1 integral'.2.1) <|
      .cons (body_tells body body' integral.2.2.1 integral'.2.2.1).list <|
      .cons (body_tells orelse orelse' integral.2.2.2 integral'.2.2.2).list .nil) ?_
    rintro ⟨rfl, body, orelse, -⟩
    simp only [Stmt.moveLines, body, orelse]
  case withItems.withItems isAsync items body isAsync' items' body' =>
    obtain rfl : isAsync = isAsync' := async_eq same
    refine .node (.cons (items_tell items items' integral.2.1 integral'.2.1).list <|
      .cons (body_tells body body' integral.2.2 integral'.2.2).list .nil) ?_
    rintro ⟨rfl, body, -⟩
    simp only [Stmt.moveLines, body]
  case raise.raise exception cause exception' cause' =>
    refine .node (.cons (optional_tells exception exception' integral.2.1 integral'.2.1) <|
      .cons (optional_tells cause cause' integral.2.2 integral'.2.2) .nil) ?_
    rintro ⟨rfl, rfl, -⟩
    rfl
  case tryExcept.tryExcept body handlers orelse final body' handlers' orelse' final' =>
    refine .node (.cons (body_tells body body' integral.2.1 integral'.2.1).list <|
      .cons (handlers_tell handlers handlers' integral.2.2.1 integral'.2.2.1).list <|
      .cons (body_tells orelse orelse' integral.2.2.2.1 integral'.2.2.2.1).list <|
      .cons (body_tells final final' integral.2.2.2.2 integral'.2.2.2.2).list .nil) ?_
    rintro ⟨body, handlers, orelse, final, -⟩
    simp only [Stmt.moveLines, body, handlers, orelse, final]
  case assert.assert test message test' message' =>
    refine .node (.cons (test.tells test' integral.2.1 integral'.2.1) <|
      .cons (optional_tells message message' integral.2.2 integral'.2.2) .nil) ?_
    rintro ⟨rfl, rfl, -⟩
    rfl
  case importModules.importModules names names' =>
    refine .node (.cons (aliases_tell names names').list .nil) ?_
    rintro ⟨rfl, -⟩
    rfl
  case importFrom.importFrom module names level module' names' level' =>
    refine .node (.cons (tells_optionalIdentifier module module') <|
      .cons (aliases_tell names names').list <|
      .cons (tells_count level level') .nil) ?_
    rintro ⟨rfl, rfl, rfl, -⟩
    rfl
  case globals.globals names names' =>
    refine .node (.cons (ItemsTell.map opens_identifier tells_identifier names names').list .nil) ?_
    rintro ⟨rfl, -⟩
    rfl
  case nonlocals.nonlocals names names' =>
    refine .node (.cons (ItemsTell.map opens_identifier tells_identifier names names').list .nil) ?_
    rintro ⟨rfl, -⟩
    rfl
  case expr.expr value value' =>
    refine .node (.cons (value.tells value' integral.2 integral'.2) .nil) ?_
    rintro ⟨rfl, -⟩
    rfl
  case pass.pass =>
    exact .node .nil fun _ => rfl
  case breakLoop.breakLoop =>
    exact .node .nil fun _ => rfl
  case continueLoop.continueLoop =>
    exact .node .nil fun _ => rfl
termination_by structural stmt

/-- Handlers that are equal but for lines are told. -/
theorem ExceptHandler.tells : ∀ (handler handler' : ExceptHandler), handler.All Part.Integral →
    handler'.All Part.Integral →
    (child "ExceptHandler" handler.fields).Tells (child "ExceptHandler" handler'.fields)
      (handler.moveLines eraseLine = handler'.moveLines eraseLine)
  | ⟨type, name, body⟩, ⟨type', name', body'⟩, integral, integral' => by
    refine .node (.cons (optional_tells type type' integral.2.1 integral'.2.1) <|
      .cons (tells_optionalIdentifier name name') <|
      .cons (body_tells body body' integral.2.2 integral'.2.2).list .nil) ?_
    rintro ⟨rfl, rfl, body, -⟩
    simp only [ExceptHandler.moveLines, body]
termination_by structural handler => handler

/-- Statements in order that are equal but for lines are told. -/
theorem body_tells : ∀ (body body' : List Stmt), stmtsAll Part.Integral body →
    stmtsAll Part.Integral body' →
    ItemsTell (stmtValues body) (stmtValues body')
      (moveBody eraseLine body = moveBody eraseLine body')
  | [], [], _, _ => .nil rfl
  | [], stmt' :: _, _, _ => .nil_cons (opens_child stmt'.unseparated_kind _)
  | stmt :: _, [], _, _ => (ItemsTell.nil_cons (opens_child stmt.unseparated_kind _)).symm
  | stmt :: rest, stmt' :: rest', integral, integral' =>
    .cons_cons (stmt.tells stmt' integral.1 integral'.1)
      (body_tells rest rest' integral.2 integral'.2)
termination_by structural body => body

/-- Handlers in order that are equal but for lines are told. -/
theorem handlers_tell : ∀ (handlers handlers' : List ExceptHandler),
    handlersAll Part.Integral handlers → handlersAll Part.Integral handlers' →
    ItemsTell (handlerValues handlers) (handlerValues handlers')
      (moveHandlers eraseLine handlers = moveHandlers eraseLine handlers')
  | [], [], _, _ => .nil rfl
  | [], _ :: _, _, _ => .nil_cons (opens_child (unseparated_of_all rfl) _)
  | _ :: _, [], _, _ => (ItemsTell.nil_cons (opens_child (unseparated_of_all rfl) _)).symm
  | handler :: rest, handler' :: rest', integral, integral' =>
    .cons_cons (handler.tells handler' integral.1 integral'.1)
      (handlers_tell rest rest' integral.2 integral'.2)
termination_by structural handlers => handlers

end

/-- Trees that are equal but for lines are told. -/
theorem Root.tells (root root' : Root) (integral : root.All Part.Integral)
    (integral' : root'.All Part.Integral) :
    (Value.node root.node).Tells (.node root'.node)
      (root.moveLines eraseLine = root'.moveLines eraseLine) := by
  have plain (root : Root) : Unseparated root.kind.toList :=
    unseparated_of_all (by cases root <;> (simp only [Root.kind]; rfl))
  have form (root : Root) : Value.node root.node = child root.kind root.node.fields := by
    cases root <;> rfl
  rw [form, form]
  refine .ofKind (plain root) (plain root') fun same => ?_
  cases root <;> cases root' <;> simp only [Root.kind, String.reduceEq] at same
  case module.module body body' =>
    refine .node (.cons (body_tells body body' integral.2 integral'.2).list .nil) ?_
    rintro ⟨same, -⟩
    exact congrArg Root.module same
  case interactive.interactive body body' =>
    refine .node (.cons (body_tells body body' integral.2 integral'.2).list .nil) ?_
    rintro ⟨same, -⟩
    exact congrArg Root.interactive same
  case expression.expression body body' =>
    refine .node (.cons (body.tells body' integral.2 integral'.2) .nil) ?_
    rintro ⟨rfl, -⟩
    rfl

/-- Trees that are written alike are equal but for the lines of definitions, if the numbers in both
of them are integers that are kept in the one way there is for them. -/
theorem Root.dump_injective {root root' : Root}
    (integral : ∀ part ∈ root.walk everyPart, part.Integral)
    (integral' : ∀ part ∈ root'.walk everyPart, part.Integral)
    (same : root.dump = root'.dump) :
    root.moveLines eraseLine = root'.moveLines eraseLine := by
  have tells := root.tells root' (root.all_iff.2 integral) (root'.all_iff.2 integral')
  have written : root.node.write [] = root'.node.write [] := String.ofList_injective same
  have closes : Closes [] := fun c front => absurd front (by simp)
  exact (tells [] [] closes closes written).1

/-- A definition on two lines, with the least number in it that does not fit in a word. -/
theorem Root.dump_injective_of_lines :
    let body : List Stmt :=
      [.returnValue (some (.num (.big "170141183460469231731687303715884105728")))]
    let first : Root := .module [.functionDef false "f" .none body [] none 1]
    let second : Root := .module [.functionDef false "f" .none body [] none 2]
    first.dump = second.dump ∧ first.moveLines eraseLine = second.moveLines eraseLine := by
  intro body first second
  have great : (Number.big "170141183460469231731687303715884105728").IsInteger :=
    @Number.IsInteger.big 170141183460469231731687303715884105728 (by decide)
  have parameters : Arguments.All Part.Integral .none :=
    ⟨trivial, trivial, trivial, trivial, trivial, trivial, trivial⟩
  have integral (line : Nat) : Root.All Part.Integral
      (.module [.functionDef false "f" .none body [] none line]) :=
    ⟨trivial, ⟨trivial, parameters, ⟨⟨trivial, great⟩, trivial⟩, trivial, trivial⟩, trivial⟩
  have same : first.dump = second.dump := rfl
  exact ⟨same, dump_injective (first.all_iff.1 (integral 1)) (second.all_iff.1 (integral 2)) same⟩

end Offside
