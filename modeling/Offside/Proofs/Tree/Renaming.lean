import Offside.Proofs.Tree.Everywhere
import Offside.Tree.Rewrite

/-!
# Rewriting the names of a tree

A rewriting meets each part of a tree once, and in the order in which a walk lists the parts. This
is told by a rewriting that replaces each name by the text for the value of a counter
(`Rewrite.numbering`): the names of the new tree are the texts for successive values, and without
its names the tree is what it was (`Root.rewrite_numbering`). The identifiers of members, parameters
and named arguments are no names here: a name is an expression of its own.
-/
namespace Offside

universe u

/-- The names that a part is: one if it is a name, and none otherwise. -/
def Part.names : Part → List String
  | .expr (.name id _) => [id]
  | _ => []

/-- The names among parts, in order. -/
def namesAmong (parts : List Part) : List String := parts.flatMap Part.names

/-- The names of a tree, in the order of a walk. -/
def Root.names (root : Root) : List String := namesAmong (root.walk everyPart)

/-- No names are among no parts. -/
@[simp] theorem namesAmong_nil : namesAmong [] = [] := rfl

/-- The names among parts in order. -/
@[simp] theorem namesAmong_append (front back : List Part) :
    namesAmong (front ++ back) = namesAmong front ++ namesAmong back :=
  List.flatMap_append

/-- The names of a part that is no name itself are those below it. -/
@[simp] theorem namesAmong_over {part : Part}
    (other : ∀ id context, part ≠ .expr (.name id context)) (parts : List Part) :
    namesAmong (part.over everyPart parts) = namesAmong parts := by
  have none_here : part.names = [] := by
    unfold Part.names
    split
    · rename_i id context
      exact absurd rfl (other id context)
    · rfl
  show part.names ++ namesAmong parts = namesAmong parts
  rw [none_here, List.nil_append]

/-- No names are among imported names. -/
theorem namesAmong_aliases (names : List Alias) :
    namesAmong (walkAliases everyPart names) = [] := by
  induction names with
  | nil => rfl
  | cons name rest ih =>
    rw [walkAliases] at ih
    simp [walkAliases, ih]

mutual

/-- An expression with each name in it renamed. -/
def Expr.mapNames (rename : String → String) : Expr → Expr
  | .boolOp operator values => .boolOp operator (mapExprs rename values)
  | .binOp left operator right => .binOp (left.mapNames rename) operator (right.mapNames rename)
  | .unaryOp operator operand => .unaryOp operator (operand.mapNames rename)
  | .lambda parameters body => .lambda (parameters.mapNames rename) (body.mapNames rename)
  | .ifExp test body orelse =>
    .ifExp (test.mapNames rename) (body.mapNames rename) (orelse.mapNames rename)
  | .dict keys values => .dict (mapOptionals rename keys) (mapExprs rename values)
  | .set elements => .set (mapExprs rename elements)
  | .listComp element clauses => .listComp (element.mapNames rename) (mapClauses rename clauses)
  | .setComp element clauses => .setComp (element.mapNames rename) (mapClauses rename clauses)
  | .dictComp key value clauses =>
    .dictComp (key.mapNames rename) (value.mapNames rename) (mapClauses rename clauses)
  | .generator element clauses => .generator (element.mapNames rename) (mapClauses rename clauses)
  | .await value => .await (value.mapNames rename)
  | .yield value => .yield (mapOptional rename value)
  | .yieldFrom value => .yieldFrom (value.mapNames rename)
  | .compare left operators comparators =>
    .compare (left.mapNames rename) operators (mapExprs rename comparators)
  | .call function arguments keywords =>
    .call (function.mapNames rename) (mapExprs rename arguments) (mapKeywords rename keywords)
  | .num value => .num value
  | .str value => .str value
  | .bytes value => .bytes value
  | .constant value => .constant value
  | .ellipsis => .ellipsis
  | .attribute value name context => .attribute (value.mapNames rename) name context
  | .subscript value slice context =>
    .subscript (value.mapNames rename) (slice.mapNames rename) context
  | .starred value context => .starred (value.mapNames rename) context
  | .name id context => .name (rename id) context
  | .list elements context => .list (mapExprs rename elements) context
  | .tuple elements context => .tuple (mapExprs rename elements) context

/-- A slice with each name in it renamed. -/
def Slice.mapNames (rename : String → String) : Slice → Slice
  | .range lower upper step =>
    .range (mapOptional rename lower) (mapOptional rename upper) (mapOptional rename step)
  | .dimensions slices => .dimensions (mapSlices rename slices)
  | .index value => .index (value.mapNames rename)

/-- Parameters with each name in their annotations and defaults renamed. -/
def Arguments.mapNames (rename : String → String) : Arguments → Arguments
  | ⟨args, vararg, kwonlyargs, kwDefaults, kwarg, defaults⟩ =>
    ⟨mapArgs rename args, mapOptionalArg rename vararg, mapArgs rename kwonlyargs,
      mapOptionals rename kwDefaults, mapOptionalArg rename kwarg, mapExprs rename defaults⟩

/-- A parameter with each name in its annotation renamed. -/
def Arg.mapNames (rename : String → String) : Arg → Arg
  | ⟨name, annotation⟩ => ⟨name, mapOptional rename annotation⟩

/-- A named argument with each name in its value renamed. -/
def Keyword.mapNames (rename : String → String) : Keyword → Keyword
  | ⟨name, value⟩ => ⟨name, value.mapNames rename⟩

/-- A clause with each name in it renamed. -/
def Comprehension.mapNames (rename : String → String) : Comprehension → Comprehension
  | ⟨target, iter, conditions, isAsync⟩ =>
    ⟨target.mapNames rename, iter.mapNames rename, mapExprs rename conditions, isAsync⟩

/-- Expressions with each name in them renamed. -/
def mapExprs (rename : String → String) : List Expr → List Expr
  | [] => []
  | value :: rest => value.mapNames rename :: mapExprs rename rest

/-- An expression that may be missing with each name in it renamed. -/
def mapOptional (rename : String → String) : Option Expr → Option Expr
  | none => none
  | some value => some (value.mapNames rename)

/-- Expressions that may be missing with each name in them renamed. -/
def mapOptionals (rename : String → String) : List (Option Expr) → List (Option Expr)
  | [] => []
  | value :: rest => mapOptional rename value :: mapOptionals rename rest

/-- Slices with each name in them renamed. -/
def mapSlices (rename : String → String) : List Slice → List Slice
  | [] => []
  | slice :: rest => slice.mapNames rename :: mapSlices rename rest

/-- Several parameters with each name in their annotations renamed. -/
def mapArgs (rename : String → String) : List Arg → List Arg
  | [] => []
  | arg :: rest => arg.mapNames rename :: mapArgs rename rest

/-- A parameter that may be missing with each name in its annotation renamed. -/
def mapOptionalArg (rename : String → String) : Option Arg → Option Arg
  | none => none
  | some arg => some (arg.mapNames rename)

/-- Named arguments with each name in their values renamed. -/
def mapKeywords (rename : String → String) : List Keyword → List Keyword
  | [] => []
  | keyword :: rest => keyword.mapNames rename :: mapKeywords rename rest

/-- Clauses with each name in them renamed. -/
def mapClauses (rename : String → String) : List Comprehension → List Comprehension
  | [] => []
  | clause :: rest => clause.mapNames rename :: mapClauses rename rest

end

/-- A context of a with statement with each name in it renamed. -/
def WithItem.mapNames (rename : String → String) (item : WithItem) : WithItem :=
  ⟨item.context.mapNames rename, mapOptional rename item.target⟩

mutual

/-- A statement with each name in it renamed. -/
def Stmt.mapNames (rename : String → String) : Stmt → Stmt
  | .functionDef isAsync name parameters body decorators returns line =>
    .functionDef isAsync name (parameters.mapNames rename) (mapBody rename body)
      (mapExprs rename decorators) (mapOptional rename returns) line
  | .classDef name bases keywords body decorators line =>
    .classDef name (mapExprs rename bases) (mapKeywords rename keywords) (mapBody rename body)
      (mapExprs rename decorators) line
  | .returnValue value => .returnValue (mapOptional rename value)
  | .delete targets => .delete (mapExprs rename targets)
  | .assign targets value => .assign (mapExprs rename targets) (value.mapNames rename)
  | .augAssign target operator value =>
    .augAssign (target.mapNames rename) operator (value.mapNames rename)
  | .annAssign target annotation value simple =>
    .annAssign (target.mapNames rename) (Expr.mapNames rename annotation) (mapOptional rename value)
      simple
  | .forLoop isAsync target iter body orelse =>
    .forLoop isAsync (target.mapNames rename) (iter.mapNames rename) (mapBody rename body)
      (mapBody rename orelse)
  | .whileLoop test body orelse =>
    .whileLoop (test.mapNames rename) (mapBody rename body) (mapBody rename orelse)
  | .ifElse test body orelse =>
    .ifElse (test.mapNames rename) (mapBody rename body) (mapBody rename orelse)
  | .withItems isAsync items body =>
    .withItems isAsync (items.map (WithItem.mapNames rename)) (mapBody rename body)
  | .raise exception cause => .raise (mapOptional rename exception) (mapOptional rename cause)
  | .tryExcept body handlers orelse final =>
    .tryExcept (mapBody rename body) (mapHandlers rename handlers) (mapBody rename orelse)
      (mapBody rename final)
  | .assert test message => .assert (test.mapNames rename) (mapOptional rename message)
  | .importModules names => .importModules names
  | .importFrom module names level => .importFrom module names level
  | .globals names => .globals names
  | .nonlocals names => .nonlocals names
  | .expr value => .expr (value.mapNames rename)
  | .pass => .pass
  | .breakLoop => .breakLoop
  | .continueLoop => .continueLoop

/-- A handler with each name in it renamed. -/
def ExceptHandler.mapNames (rename : String → String) : ExceptHandler → ExceptHandler
  | ⟨type, name, body⟩ => ⟨mapOptional rename type, name, mapBody rename body⟩

/-- Statements with each name in them renamed. -/
def mapBody (rename : String → String) : List Stmt → List Stmt
  | [] => []
  | stmt :: rest => stmt.mapNames rename :: mapBody rename rest

/-- Handlers with each name in them renamed. -/
def mapHandlers (rename : String → String) : List ExceptHandler → List ExceptHandler
  | [] => []
  | handler :: rest => handler.mapNames rename :: mapHandlers rename rest

end

/-- A tree with each name in it renamed. -/
def Root.mapNames (rename : String → String) : Root → Root
  | .module body => .module (mapBody rename body)
  | .interactive body => .interactive (mapBody rename body)
  | .expression body => .expression (body.mapNames rename)

/-- A tree without its names: each of them is the empty text. -/
def Root.unnamed (root : Root) : Root := root.mapNames fun _ => ""

section Identity

variable {m : Type → Type u} [Monad m]

/-- The rewriting that changes nothing makes of an expression what it is rebuilt as. -/
@[simp] theorem Rewrite.identity_expr (value : Expr) (rebuild : m Expr) :
    identity.expr value rebuild = rebuild := rfl

/-- The rewriting that changes nothing makes one item of an item. -/
@[simp] theorem Rewrite.identity_item (value : Expr) (rewritten : m Expr) :
    identity.item value rewritten = do return [← rewritten] := rfl

/-- The rewriting that changes nothing makes one statement of a statement. -/
@[simp] theorem Rewrite.identity_stmt (value : Stmt) (rebuild : m Stmt) :
    identity.stmt value rebuild = do return [← rebuild] := rfl

variable [LawfulMonad m]

mutual

/-- An expression is rebuilt as it is where nothing is changed. -/
theorem Expr.rebuild_identity (value : Expr) :
    value.rebuild (Rewrite.identity : Rewrite m) = pure value := by
  cases value with
  | boolOp operator values => simp [Expr.rebuild, rewriteItems_identity values]
  | binOp left operator right => simp [Expr.rebuild, left.rebuild_identity, right.rebuild_identity]
  | unaryOp operator operand => simp [Expr.rebuild, operand.rebuild_identity]
  | lambda parameters body =>
    simp [Expr.rebuild, parameters.rebuild_identity, body.rebuild_identity]
  | ifExp test body orelse =>
    simp [Expr.rebuild, test.rebuild_identity, body.rebuild_identity, orelse.rebuild_identity]
  | dict keys values =>
    simp [Expr.rebuild, rewriteOptionals_identity keys, rewriteEach_identity values]
  | set elements => simp [Expr.rebuild, rewriteItems_identity elements]
  | listComp element clauses | setComp element clauses | generator element clauses =>
    simp [Expr.rebuild, element.rebuild_identity, rewriteClauses_identity clauses]
  | dictComp key value clauses =>
    simp [Expr.rebuild, key.rebuild_identity, value.rebuild_identity,
      rewriteClauses_identity clauses]
  | await value | yieldFrom value => simp [Expr.rebuild, value.rebuild_identity]
  | yield value => simp [Expr.rebuild, rewriteOptional_identity value]
  | compare left operators comparators =>
    simp [Expr.rebuild, left.rebuild_identity, rewriteEach_identity comparators]
  | call function arguments keywords =>
    simp [Expr.rebuild, function.rebuild_identity, rewriteItems_identity arguments,
      rewriteKeywords_identity keywords]
  | «attribute» value name context | starred value context =>
    simp [Expr.rebuild, value.rebuild_identity]
  | subscript value slice context =>
    simp [Expr.rebuild, value.rebuild_identity, slice.rebuild_identity]
  | list elements context | tuple elements context =>
    simp [Expr.rebuild, rewriteItems_identity elements]
  | num | str | bytes | constant | ellipsis | name => rfl

/-- A slice is rebuilt as it is where nothing is changed. -/
theorem Slice.rebuild_identity (slice : Slice) :
    slice.rebuild (Rewrite.identity : Rewrite m) = pure slice := by
  cases slice with
  | range lower upper step =>
    simp [Slice.rebuild, rewriteOptional_identity lower, rewriteOptional_identity upper,
      rewriteOptional_identity step]
  | dimensions slices => simp [Slice.rebuild, rewriteSlices_identity slices]
  | index value => simp [Slice.rebuild, value.rebuild_identity]

/-- Parameters are rebuilt as they are where nothing is changed. -/
theorem Arguments.rebuild_identity (parameters : Arguments) :
    parameters.rebuild (Rewrite.identity : Rewrite m) = pure parameters := by
  cases parameters with
  | mk args vararg kwonlyargs kwDefaults kwarg defaults =>
    simp [Arguments.rebuild, rewriteArgs_identity args, rewriteOptionalArg_identity vararg,
      rewriteArgs_identity kwonlyargs, rewriteOptionals_identity kwDefaults,
      rewriteOptionalArg_identity kwarg, rewriteEach_identity defaults]

/-- A parameter is rebuilt as it is where nothing is changed. -/
theorem Arg.rebuild_identity (arg : Arg) :
    arg.rebuild (Rewrite.identity : Rewrite m) = pure arg := by
  cases arg with
  | mk name annotation => simp [Arg.rebuild, rewriteOptional_identity annotation]

/-- A named argument is rebuilt as it is where nothing is changed. -/
theorem Keyword.rebuild_identity (keyword : Keyword) :
    keyword.rebuild (Rewrite.identity : Rewrite m) = pure keyword := by
  cases keyword with
  | mk name value => simp [Keyword.rebuild, value.rebuild_identity]

/-- A clause is rebuilt as it is where nothing is changed. -/
theorem Comprehension.rebuild_identity (clause : Comprehension) :
    clause.rebuild (Rewrite.identity : Rewrite m) = pure clause := by
  cases clause with
  | mk target iter conditions isAsync =>
    simp [Comprehension.rebuild, target.rebuild_identity, iter.rebuild_identity,
      rewriteItems_identity conditions]

/-- Items stay as they are where nothing is changed. -/
theorem rewriteItems_identity (values : List Expr) :
    rewriteItems (Rewrite.identity : Rewrite m) values = pure values := by
  cases values with
  | nil => rfl
  | cons value rest => simp [rewriteItems, value.rebuild_identity, rewriteItems_identity rest]

/-- Expressions stay as they are where nothing is changed. -/
theorem rewriteEach_identity (values : List Expr) :
    rewriteEach (Rewrite.identity : Rewrite m) values = pure values := by
  cases values with
  | nil => rfl
  | cons value rest => simp [rewriteEach, value.rebuild_identity, rewriteEach_identity rest]

/-- An expression that may be missing stays as it is where nothing is changed. -/
theorem rewriteOptional_identity (value : Option Expr) :
    rewriteOptional (Rewrite.identity : Rewrite m) value = pure value := by
  cases value with
  | none => rfl
  | some value => simp [rewriteOptional, value.rebuild_identity]

/-- Expressions that may be missing stay as they are where nothing is changed. -/
theorem rewriteOptionals_identity (values : List (Option Expr)) :
    rewriteOptionals (Rewrite.identity : Rewrite m) values = pure values := by
  cases values with
  | nil => rfl
  | cons value rest =>
    simp [rewriteOptionals, rewriteOptional_identity value, rewriteOptionals_identity rest]

/-- Slices stay as they are where nothing is changed. -/
theorem rewriteSlices_identity (slices : List Slice) :
    rewriteSlices (Rewrite.identity : Rewrite m) slices = pure slices := by
  cases slices with
  | nil => rfl
  | cons slice rest => simp [rewriteSlices, slice.rebuild_identity, rewriteSlices_identity rest]

/-- Several parameters stay as they are where nothing is changed. -/
theorem rewriteArgs_identity (args : List Arg) :
    rewriteArgs (Rewrite.identity : Rewrite m) args = pure args := by
  cases args with
  | nil => rfl
  | cons arg rest => simp [rewriteArgs, arg.rebuild_identity, rewriteArgs_identity rest]

/-- A parameter that may be missing stays as it is where nothing is changed. -/
theorem rewriteOptionalArg_identity (arg : Option Arg) :
    rewriteOptionalArg (Rewrite.identity : Rewrite m) arg = pure arg := by
  cases arg with
  | none => rfl
  | some arg => simp [rewriteOptionalArg, arg.rebuild_identity]

/-- Named arguments stay as they are where nothing is changed. -/
theorem rewriteKeywords_identity (keywords : List Keyword) :
    rewriteKeywords (Rewrite.identity : Rewrite m) keywords = pure keywords := by
  cases keywords with
  | nil => rfl
  | cons keyword rest =>
    simp [rewriteKeywords, keyword.rebuild_identity, rewriteKeywords_identity rest]

/-- Clauses stay as they are where nothing is changed. -/
theorem rewriteClauses_identity (clauses : List Comprehension) :
    rewriteClauses (Rewrite.identity : Rewrite m) clauses = pure clauses := by
  cases clauses with
  | nil => rfl
  | cons clause rest => simp [rewriteClauses, clause.rebuild_identity, rewriteClauses_identity rest]

end

/-- The contexts of a with statement stay as they are where nothing is changed. -/
theorem mapM_identity (items : List WithItem) :
    items.mapM (WithItem.rebuild (Rewrite.identity : Rewrite m)) = pure items := by
  induction items with
  | nil => rfl
  | cons item rest ih =>
    simp [ih, WithItem.rebuild, Expr.rewrite, item.context.rebuild_identity,
      rewriteOptional_identity item.target]

mutual

/-- A statement is rebuilt as it is where nothing is changed. -/
theorem Stmt.rebuild_identity (stmt : Stmt) :
    stmt.rebuild (Rewrite.identity : Rewrite m) = pure stmt := by
  cases stmt with
  | functionDef isAsync name parameters body decorators returns line =>
    simp [Stmt.rebuild, parameters.rebuild_identity, rewriteBody_identity body,
      rewriteItems_identity decorators, rewriteOptional_identity returns]
  | classDef name bases keywords body decorators line =>
    simp [Stmt.rebuild, rewriteItems_identity bases, rewriteKeywords_identity keywords,
      rewriteBody_identity body, rewriteItems_identity decorators]
  | returnValue value => simp [Stmt.rebuild, rewriteOptional_identity value]
  | delete targets => simp [Stmt.rebuild, rewriteItems_identity targets]
  | assign targets value =>
    simp [Stmt.rebuild, Expr.rewrite, rewriteItems_identity targets, value.rebuild_identity]
  | augAssign target operator value =>
    simp [Stmt.rebuild, Expr.rewrite, target.rebuild_identity, value.rebuild_identity]
  | annAssign target annotation value simple =>
    simp [Stmt.rebuild, Expr.rewrite, target.rebuild_identity, annotation.rebuild_identity,
      rewriteOptional_identity value]
  | forLoop isAsync target iter body orelse =>
    simp [Stmt.rebuild, Expr.rewrite, target.rebuild_identity, iter.rebuild_identity,
      rewriteBody_identity body, rewriteBody_identity orelse]
  | whileLoop test body orelse | ifElse test body orelse =>
    simp [Stmt.rebuild, Expr.rewrite, test.rebuild_identity, rewriteBody_identity body,
      rewriteBody_identity orelse]
  | withItems isAsync items body =>
    simp [Stmt.rebuild, mapM_identity items, rewriteBody_identity body]
  | raise exception cause =>
    simp [Stmt.rebuild, rewriteOptional_identity exception, rewriteOptional_identity cause]
  | tryExcept body handlers orelse final =>
    simp [Stmt.rebuild, rewriteBody_identity body, rewriteHandlers_identity handlers,
      rewriteBody_identity orelse, rewriteBody_identity final]
  | assert test message =>
    simp [Stmt.rebuild, Expr.rewrite, test.rebuild_identity, rewriteOptional_identity message]
  | expr value => simp [Stmt.rebuild, Expr.rewrite, value.rebuild_identity]
  | importModules | importFrom | globals | nonlocals | pass | breakLoop | continueLoop => rfl

/-- A handler is rebuilt as it is where nothing is changed. -/
theorem ExceptHandler.rebuild_identity (handler : ExceptHandler) :
    handler.rebuild (Rewrite.identity : Rewrite m) = pure handler := by
  cases handler with
  | mk type name body =>
    simp [ExceptHandler.rebuild, rewriteOptional_identity type, rewriteBody_identity body]

/-- Statements stay as they are where nothing is changed. -/
theorem rewriteBody_identity (body : List Stmt) :
    rewriteBody (Rewrite.identity : Rewrite m) body = pure body := by
  cases body with
  | nil => rfl
  | cons stmt rest => simp [rewriteBody, stmt.rebuild_identity, rewriteBody_identity rest]

/-- Handlers stay as they are where nothing is changed. -/
theorem rewriteHandlers_identity (handlers : List ExceptHandler) :
    rewriteHandlers (Rewrite.identity : Rewrite m) handlers = pure handlers := by
  cases handlers with
  | nil => rfl
  | cons handler rest =>
    simp [rewriteHandlers, handler.rebuild_identity, rewriteHandlers_identity rest]

end

/-- A tree stays as it is where nothing is changed. -/
theorem Root.rewrite_identity (root : Root) :
    root.rewrite (Rewrite.identity : Rewrite m) = pure root := by
  cases root with
  | module body | interactive body => simp [Root.rewrite, rewriteBody_identity body]
  | expression body => simp [Root.rewrite, Expr.rewrite, body.rebuild_identity]

end Identity

section Counting

/-- The texts for the values of a counter, from one value on. -/
def counted (spell : Nat → String) (start count : Nat) : List String :=
  (List.range' start count).map spell

/-- No values have no texts. -/
@[simp] theorem counted_zero (spell : Nat → String) (start : Nat) : counted spell start 0 = [] :=
  rfl

/-- The texts for values in order. -/
@[simp] theorem counted_add (spell : Nat → String) (start count more : Nat) :
    counted spell start (count + more) =
      counted spell start count ++ counted spell (start + count) more := by
  rw [counted, counted, counted, ← List.map_append, List.range'_append_1]

/-- What an action that counts makes, and the counter behind it. -/
def countedBy {α : Type} (action : StateM Nat α) (start : Nat) : α × Nat := action.run start

/-- What makes a value without counting. -/
@[simp] theorem countedBy_pure {α : Type} (value : α) (start : Nat) :
    countedBy (pure value) start = (value, start) := rfl

/-- What is made of the value of an action. -/
@[simp] theorem countedBy_map {α β : Type} (make : α → β) (action : StateM Nat α) (start : Nat) :
    countedBy (make <$> action) start =
      (make (countedBy action start).1, (countedBy action start).2) := rfl

/-- Two actions in order count on. -/
@[simp] theorem countedBy_bind {α β : Type} (action : StateM Nat α) (next : α → StateM Nat β)
    (start : Nat) : countedBy (action >>= next) start =
      countedBy (next (countedBy action start).1) (countedBy action start).2 := rfl

/-- An action counts as many values as there are names in what it starts from. The names of what it
makes are the texts for these values, and without the names it is what the action started from. -/
abbrev Numbers {α : Type} (spell : Nat → String) (action : StateM Nat α) (names : α → List String)
    (mapNames : (String → String) → α → α) (old : α) : Prop :=
  ∀ start, (countedBy action start).2 = start + (names old).length ∧
    names (countedBy action start).1 = counted spell start (names old).length ∧
    mapNames (fun _ => "") (countedBy action start).1 = mapNames (fun _ => "") old

end Counting

/-- The rewriting that replaces each name by the text for the value of a counter, which goes on to
the next value. It changes nothing else. -/
def Rewrite.numbering (spell : Nat → String) : Rewrite (StateM Nat) :=
  { identity with
    expr := fun value rebuild =>
      match value with
      | .name _ context => modifyGet fun count => (.name (spell count) context, count + 1)
      | _ => rebuild }

section Numbering

variable (spell : Nat → String)

/-- A name becomes the text for the value of the counter. -/
theorem Rewrite.numbering_name (id : String) (context : Context) (rebuild : StateM Nat Expr) :
    (numbering spell).expr (.name id context) rebuild =
      modifyGet fun count => (.name (spell count) context, count + 1) := rfl

/-- What is no name is rebuilt. -/
@[simp] theorem Rewrite.numbering_expr {value : Expr}
    (other : ∀ id context, value ≠ .name id context) (rebuild : StateM Nat Expr) :
    (numbering spell).expr value rebuild = rebuild := by
  cases value with
  | name id context => exact absurd rfl (other id context)
  | _ => rfl

/-- An item becomes one item. -/
@[simp] theorem Rewrite.numbering_item (value : Expr) (rewritten : StateM Nat Expr) :
    (numbering spell).item value rewritten = do return [← rewritten] := rfl

/-- A statement becomes one statement. -/
@[simp] theorem Rewrite.numbering_stmt (value : Stmt) (rebuild : StateM Nat Stmt) :
    (numbering spell).stmt value rebuild = do return [← rebuild] := rfl

mutual

/-- An expression whose names are numbered. -/
theorem Expr.numbers (value : Expr) :
    Numbers spell ((Rewrite.numbering spell).expr value (value.rebuild (.numbering spell)))
      (fun value => namesAmong ((Part.expr value).over everyPart (value.parts everyPart)))
      Expr.mapNames value := by
  intro start
  cases value with
  | boolOp operator values =>
    simp [Expr.rebuild, Expr.parts, Expr.mapNames, items_numbers values]
  | binOp left operator right =>
    simp [Expr.rebuild, Expr.parts, Expr.mapNames, left.numbers, right.numbers, Nat.add_assoc]
  | unaryOp operator operand =>
    simp [Expr.rebuild, Expr.parts, Expr.mapNames, operand.numbers]
  | lambda parameters body =>
    simp [Expr.rebuild, Expr.parts, Expr.mapNames, parameters.numbers, body.numbers, Nat.add_assoc]
  | ifExp test body orelse =>
    simp [Expr.rebuild, Expr.parts, Expr.mapNames, test.numbers, body.numbers, orelse.numbers,
      Nat.add_assoc]
  | dict keys values =>
    simp [Expr.rebuild, Expr.parts, Expr.mapNames, optionals_numbers keys, each_numbers values,
      Nat.add_assoc]
  | set elements =>
    simp [Expr.rebuild, Expr.parts, Expr.mapNames, items_numbers elements]
  | listComp element clauses | setComp element clauses | generator element clauses =>
    simp [Expr.rebuild, Expr.parts, Expr.mapNames, element.numbers, clauses_numbers clauses,
      Nat.add_assoc]
  | dictComp key value clauses =>
    simp [Expr.rebuild, Expr.parts, Expr.mapNames, key.numbers, value.numbers,
      clauses_numbers clauses, Nat.add_assoc]
  | await value | yieldFrom value =>
    simp [Expr.rebuild, Expr.parts, Expr.mapNames, value.numbers]
  | yield value =>
    simp [Expr.rebuild, Expr.parts, Expr.mapNames, optional_numbers value]
  | compare left operators comparators =>
    simp [Expr.rebuild, Expr.parts, Expr.mapNames, left.numbers, each_numbers comparators,
      Nat.add_assoc]
  | call function arguments keywords =>
    simp [Expr.rebuild, Expr.parts, Expr.mapNames, function.numbers, items_numbers arguments,
      keywords_numbers keywords, Nat.add_assoc]
  | «attribute» value name context | starred value context =>
    simp [Expr.rebuild, Expr.parts, Expr.mapNames, value.numbers]
  | subscript value slice context =>
    simp [Expr.rebuild, Expr.parts, Expr.mapNames, value.numbers, slice.numbers, Nat.add_assoc]
  | list elements context | tuple elements context =>
    simp [Expr.rebuild, Expr.parts, Expr.mapNames, items_numbers elements]
  | num | str | bytes | constant | ellipsis => exact ⟨rfl, rfl, rfl⟩
  | name id context =>
    rw [Rewrite.numbering_name]
    exact ⟨rfl, rfl, rfl⟩

/-- A slice whose names are numbered. -/
theorem Slice.numbers (slice : Slice) :
    Numbers spell (slice.rebuild (.numbering spell))
      (fun slice => namesAmong (slice.parts everyPart)) Slice.mapNames slice := by
  intro start
  cases slice with
  | range lower upper step =>
    simp [Slice.rebuild, Slice.parts, Slice.mapNames, optional_numbers lower,
      optional_numbers upper, optional_numbers step, Nat.add_assoc]
  | dimensions slices =>
    simp [Slice.rebuild, Slice.parts, Slice.mapNames, slices_numbers slices]
  | index value =>
    simp [Slice.rebuild, Slice.parts, Slice.mapNames, value.numbers]

/-- Parameters whose names are numbered. -/
theorem Arguments.numbers (parameters : Arguments) :
    Numbers spell (parameters.rebuild (.numbering spell))
      (fun parameters => namesAmong (parameters.parts everyPart))
      Arguments.mapNames parameters := by
  intro start
  cases parameters with
  | mk args vararg kwonlyargs kwDefaults kwarg defaults =>
    simp [Arguments.rebuild, Arguments.parts, Arguments.mapNames, args_numbers args,
      optionalArg_numbers vararg, args_numbers kwonlyargs, optionals_numbers kwDefaults,
      optionalArg_numbers kwarg, each_numbers defaults, Nat.add_assoc]

/-- A parameter whose names are numbered. -/
theorem Arg.numbers (arg : Arg) :
    Numbers spell (arg.rebuild (.numbering spell))
      (fun arg => namesAmong (arg.parts everyPart)) Arg.mapNames arg := by
  intro start
  cases arg with
  | mk name annotation =>
    simp [Arg.rebuild, Arg.parts, Arg.mapNames, optional_numbers annotation]

/-- A named argument whose names are numbered. -/
theorem Keyword.numbers (keyword : Keyword) :
    Numbers spell (keyword.rebuild (.numbering spell))
      (fun keyword => namesAmong (keyword.parts everyPart)) Keyword.mapNames keyword := by
  intro start
  cases keyword with
  | mk name value =>
    simp [Keyword.rebuild, Keyword.parts, Keyword.mapNames, value.numbers]

/-- A clause whose names are numbered. -/
theorem Comprehension.numbers (clause : Comprehension) :
    Numbers spell (clause.rebuild (.numbering spell))
      (fun clause => namesAmong (clause.parts everyPart)) Comprehension.mapNames clause := by
  intro start
  cases clause with
  | mk target iter conditions isAsync =>
    simp [Comprehension.rebuild, Comprehension.parts, Comprehension.mapNames, target.numbers,
      iter.numbers, items_numbers conditions, Nat.add_assoc]

/-- Items whose names are numbered. -/
theorem items_numbers (values : List Expr) :
    Numbers spell (rewriteItems (.numbering spell) values)
      (fun values => namesAmong (walkExprs everyPart values)) mapExprs values := by
  intro start
  cases values with
  | nil => exact ⟨rfl, rfl, rfl⟩
  | cons value rest =>
    simp [rewriteItems, walkExprs, mapExprs, value.numbers, items_numbers rest, Nat.add_assoc]

/-- Expressions whose names are numbered. -/
theorem each_numbers (values : List Expr) :
    Numbers spell (rewriteEach (.numbering spell) values)
      (fun values => namesAmong (walkExprs everyPart values)) mapExprs values := by
  intro start
  cases values with
  | nil => exact ⟨rfl, rfl, rfl⟩
  | cons value rest =>
    simp [rewriteEach, walkExprs, mapExprs, value.numbers, each_numbers rest, Nat.add_assoc]

/-- An expression that may be missing whose names are numbered. -/
theorem optional_numbers (value : Option Expr) :
    Numbers spell (rewriteOptional (.numbering spell) value)
      (fun value => namesAmong (walkOptional everyPart value)) mapOptional value := by
  intro start
  cases value with
  | none => exact ⟨rfl, rfl, rfl⟩
  | some value =>
    simp [rewriteOptional, walkOptional, mapOptional, value.numbers]

/-- Expressions that may be missing whose names are numbered. -/
theorem optionals_numbers (values : List (Option Expr)) :
    Numbers spell (rewriteOptionals (.numbering spell) values)
      (fun values => namesAmong (walkOptionals everyPart values)) mapOptionals values := by
  intro start
  cases values with
  | nil => exact ⟨rfl, rfl, rfl⟩
  | cons value rest =>
    simp [rewriteOptionals, walkOptionals, mapOptionals, optional_numbers value,
      optionals_numbers rest, Nat.add_assoc]

/-- Slices whose names are numbered. -/
theorem slices_numbers (slices : List Slice) :
    Numbers spell (rewriteSlices (.numbering spell) slices)
      (fun slices => namesAmong (walkSlices everyPart slices)) mapSlices slices := by
  intro start
  cases slices with
  | nil => exact ⟨rfl, rfl, rfl⟩
  | cons slice rest =>
    simp [rewriteSlices, walkSlices, mapSlices, slice.numbers, slices_numbers rest, Nat.add_assoc]

/-- Several parameters whose names are numbered. -/
theorem args_numbers (args : List Arg) :
    Numbers spell (rewriteArgs (.numbering spell) args)
      (fun args => namesAmong (walkArgs everyPart args)) mapArgs args := by
  intro start
  cases args with
  | nil => exact ⟨rfl, rfl, rfl⟩
  | cons arg rest =>
    simp [rewriteArgs, walkArgs, mapArgs, arg.numbers, args_numbers rest, Nat.add_assoc]

/-- A parameter that may be missing whose names are numbered. -/
theorem optionalArg_numbers (arg : Option Arg) :
    Numbers spell (rewriteOptionalArg (.numbering spell) arg)
      (fun arg => namesAmong (walkOptionalArg everyPart arg)) mapOptionalArg arg := by
  intro start
  cases arg with
  | none => exact ⟨rfl, rfl, rfl⟩
  | some arg =>
    simp [rewriteOptionalArg, walkOptionalArg, mapOptionalArg, arg.numbers]

/-- Named arguments whose names are numbered. -/
theorem keywords_numbers (keywords : List Keyword) :
    Numbers spell (rewriteKeywords (.numbering spell) keywords)
      (fun keywords => namesAmong (walkKeywords everyPart keywords)) mapKeywords keywords := by
  intro start
  cases keywords with
  | nil => exact ⟨rfl, rfl, rfl⟩
  | cons keyword rest =>
    simp [rewriteKeywords, walkKeywords, mapKeywords, keyword.numbers, keywords_numbers rest,
      Nat.add_assoc]

/-- Clauses whose names are numbered. -/
theorem clauses_numbers (clauses : List Comprehension) :
    Numbers spell (rewriteClauses (.numbering spell) clauses)
      (fun clauses => namesAmong (walkClauses everyPart clauses)) mapClauses clauses := by
  intro start
  cases clauses with
  | nil => exact ⟨rfl, rfl, rfl⟩
  | cons clause rest =>
    simp [rewriteClauses, walkClauses, mapClauses, clause.numbers, clauses_numbers rest,
      Nat.add_assoc]

end

/-- Contexts of a with statement whose names are numbered. -/
theorem withItems_numbers (items : List WithItem) :
    Numbers spell (items.mapM (WithItem.rebuild (.numbering spell)))
      (fun items => namesAmong (items.flatMap (WithItem.walk everyPart)))
      (fun rename => List.map (WithItem.mapNames rename)) items := by
  intro start
  induction items generalizing start with
  | nil => exact ⟨rfl, rfl, rfl⟩
  | cons item rest ih =>
    simp [ih, WithItem.rebuild, WithItem.walk, WithItem.mapNames, Expr.rewrite, Expr.walk,
      item.context.numbers spell, optional_numbers spell item.target, Nat.add_assoc]

mutual

/-- A statement whose names are numbered. -/
theorem Stmt.numbers (stmt : Stmt) :
    Numbers spell (stmt.rebuild (.numbering spell)) (fun stmt => namesAmong (stmt.parts everyPart))
      Stmt.mapNames stmt := by
  intro start
  cases stmt with
  | functionDef isAsync name parameters body decorators returns line =>
    simp [Stmt.rebuild, Stmt.parts, Stmt.mapNames, parameters.numbers spell, body_numbers body,
      items_numbers spell decorators, optional_numbers spell returns, Nat.add_assoc]
  | classDef name bases keywords body decorators line =>
    simp [Stmt.rebuild, Stmt.parts, Stmt.mapNames, items_numbers spell bases,
      keywords_numbers spell keywords, body_numbers body, items_numbers spell decorators,
      Nat.add_assoc]
  | returnValue value =>
    simp [Stmt.rebuild, Stmt.parts, Stmt.mapNames, optional_numbers spell value]
  | delete targets =>
    simp [Stmt.rebuild, Stmt.parts, Stmt.mapNames, items_numbers spell targets]
  | assign targets value =>
    simp [Stmt.rebuild, Stmt.parts, Stmt.mapNames, Expr.rewrite, Expr.walk,
      items_numbers spell targets, value.numbers spell, Nat.add_assoc]
  | augAssign target operator value =>
    simp [Stmt.rebuild, Stmt.parts, Stmt.mapNames, Expr.rewrite, Expr.walk, target.numbers spell,
      value.numbers spell, Nat.add_assoc]
  | annAssign target annotation value simple =>
    simp [Stmt.rebuild, Stmt.parts, Stmt.mapNames, Expr.rewrite, Expr.walk, target.numbers spell,
      annotation.numbers spell, optional_numbers spell value, Nat.add_assoc]
  | forLoop isAsync target iter body orelse =>
    simp [Stmt.rebuild, Stmt.parts, Stmt.mapNames, Expr.rewrite, Expr.walk, target.numbers spell,
      iter.numbers spell, body_numbers body, body_numbers orelse, Nat.add_assoc]
  | whileLoop test body orelse | ifElse test body orelse =>
    simp [Stmt.rebuild, Stmt.parts, Stmt.mapNames, Expr.rewrite, Expr.walk, test.numbers spell,
      body_numbers body, body_numbers orelse, Nat.add_assoc]
  | withItems isAsync items body =>
    simp [Stmt.rebuild, Stmt.parts, Stmt.mapNames, withItems_numbers spell items, body_numbers body,
      Nat.add_assoc]
  | raise exception cause =>
    simp [Stmt.rebuild, Stmt.parts, Stmt.mapNames, optional_numbers spell exception,
      optional_numbers spell cause, Nat.add_assoc]
  | tryExcept body handlers orelse final =>
    simp [Stmt.rebuild, Stmt.parts, Stmt.mapNames, body_numbers body, handlers_numbers handlers,
      body_numbers orelse, body_numbers final, Nat.add_assoc]
  | assert test message =>
    simp [Stmt.rebuild, Stmt.parts, Stmt.mapNames, Expr.rewrite, Expr.walk, test.numbers spell,
      optional_numbers spell message, Nat.add_assoc]
  | expr value =>
    simp [Stmt.rebuild, Stmt.parts, Stmt.mapNames, Expr.rewrite, Expr.walk, value.numbers spell]
  | importModules names | importFrom module names level =>
    simp [Stmt.rebuild, Stmt.parts, Stmt.mapNames, namesAmong_aliases]
  | globals | nonlocals | pass | breakLoop | continueLoop => exact ⟨rfl, rfl, rfl⟩

/-- A handler whose names are numbered. -/
theorem ExceptHandler.numbers (handler : ExceptHandler) :
    Numbers spell (handler.rebuild (.numbering spell))
      (fun handler => namesAmong (handler.parts everyPart)) ExceptHandler.mapNames handler := by
  intro start
  cases handler with
  | mk type name body =>
    simp [ExceptHandler.rebuild, ExceptHandler.parts, ExceptHandler.mapNames,
      optional_numbers spell type, body_numbers body, Nat.add_assoc]

/-- Statements whose names are numbered. -/
theorem body_numbers (body : List Stmt) :
    Numbers spell (rewriteBody (.numbering spell) body)
      (fun body => namesAmong (walkBody everyPart body)) mapBody body := by
  intro start
  cases body with
  | nil => exact ⟨rfl, rfl, rfl⟩
  | cons stmt rest =>
    simp [rewriteBody, walkBody, mapBody, stmt.numbers, body_numbers rest, Nat.add_assoc]

/-- Handlers whose names are numbered. -/
theorem handlers_numbers (handlers : List ExceptHandler) :
    Numbers spell (rewriteHandlers (.numbering spell) handlers)
      (fun handlers => namesAmong (walkHandlers everyPart handlers)) mapHandlers handlers := by
  intro start
  cases handlers with
  | nil => exact ⟨rfl, rfl, rfl⟩
  | cons handler rest =>
    simp [rewriteHandlers, walkHandlers, mapHandlers, handler.numbers, handlers_numbers rest,
      Nat.add_assoc]

end

/-- A tree whose names are numbered. -/
theorem Root.numbers (root : Root) :
    Numbers spell (root.rewrite (.numbering spell)) Root.names Root.mapNames root := by
  intro start
  cases root with
  | module body | interactive body =>
    simp [Root.rewrite, Root.names, Root.walk, Root.mapNames, body_numbers spell body]
  | expression body =>
    simp [Root.rewrite, Root.names, Root.walk, Root.mapNames, Expr.rewrite, Expr.walk,
      body.numbers spell]

end Numbering

/-- A rewriting that numbers the names replaces them in the order of a walk by the texts for
successive values of its counter, each of them once. Nothing else of the tree is changed, and
nothing at all by the rewriting that changes nothing. -/
theorem Root.rewrite_numbering (spell : Nat → String) (start : Nat) (tree : Root) :
    ((tree.rewrite (.numbering spell)).run start).1.names =
        (List.range' start tree.names.length).map spell ∧
      ((tree.rewrite (.numbering spell)).run start).1.unnamed = tree.unnamed ∧
      ((tree.rewrite (.numbering spell)).run start).2 = start + tree.names.length ∧
      ∀ {σ : Type} (state : σ),
        (tree.rewrite (Rewrite.identity : Rewrite (StateM σ))).run state = (tree, state) := by
  have numbered := tree.numbers spell start
  refine ⟨numbered.2.1, numbered.2.2, numbered.1, fun state => ?_⟩
  rw [tree.rewrite_identity]
  rfl

end Offside
