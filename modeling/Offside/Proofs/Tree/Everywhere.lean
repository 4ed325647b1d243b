import Offside.Tree.Walk

/-!
# What holds everywhere in a tree

A predicate holds everywhere in a part of a tree if it holds of the part itself and everywhere in
the parts below it (`Expr.All`, `Stmt.All`). That is to say that it holds of all parts that a walk
lists if it enters each of them (`Root.all_iff`).
-/
namespace Offside

variable (holds : Part → Prop)

mutual

/-- The predicate holds everywhere in an expression. -/
def Expr.All : Expr → Prop
  | value@(.boolOp _ values) => holds (.expr value) ∧ exprsAll values
  | value@(.binOp left _ right) => holds (.expr value) ∧ left.All ∧ right.All
  | value@(.unaryOp _ operand) => holds (.expr value) ∧ operand.All
  | value@(.lambda parameters body) => holds (.expr value) ∧ parameters.All ∧ body.All
  | value@(.ifExp test body orelse) => holds (.expr value) ∧ test.All ∧ body.All ∧ orelse.All
  | value@(.dict keys values) => holds (.expr value) ∧ keysAll keys ∧ exprsAll values
  | value@(.set elements) => holds (.expr value) ∧ exprsAll elements
  | value@(.listComp element clauses) => holds (.expr value) ∧ element.All ∧ clausesAll clauses
  | value@(.setComp element clauses) => holds (.expr value) ∧ element.All ∧ clausesAll clauses
  | value@(.dictComp key inside clauses) =>
    holds (.expr value) ∧ key.All ∧ inside.All ∧ clausesAll clauses
  | value@(.generator element clauses) => holds (.expr value) ∧ element.All ∧ clausesAll clauses
  | value@(.await inside) => holds (.expr value) ∧ inside.All
  | value@(.yield inside) => holds (.expr value) ∧ optionalAll inside
  | value@(.yieldFrom inside) => holds (.expr value) ∧ inside.All
  | value@(.compare left _ comparators) => holds (.expr value) ∧ left.All ∧ exprsAll comparators
  | value@(.call function arguments keywords) =>
    holds (.expr value) ∧ function.All ∧ exprsAll arguments ∧ keywordsAll keywords
  | value@(.attribute inside _ _) => holds (.expr value) ∧ inside.All
  | value@(.subscript inside slice _) => holds (.expr value) ∧ inside.All ∧ slice.All
  | value@(.starred inside _) => holds (.expr value) ∧ inside.All
  | value@(.list elements _) => holds (.expr value) ∧ exprsAll elements
  | value@(.tuple elements _) => holds (.expr value) ∧ exprsAll elements
  | value@(.num _) | value@(.str _) | value@(.bytes _) | value@(.constant _) | value@.ellipsis
  | value@(.name _ _) => holds (.expr value)

/-- The predicate holds everywhere in a slice. -/
def Slice.All : Slice → Prop
  | value@(.range lower upper step) =>
    holds (.slice value) ∧ optionalAll lower ∧ optionalAll upper ∧ optionalAll step
  | value@(.dimensions slices) => holds (.slice value) ∧ slicesAll slices
  | value@(.index inside) => holds (.slice value) ∧ inside.All

/-- The predicate holds everywhere in parameters. -/
def Arguments.All : Arguments → Prop
  | value@⟨args, vararg, kwonlyargs, kwDefaults, kwarg, defaults⟩ =>
    holds (.arguments value) ∧ argsAll args ∧ optionalArgAll vararg ∧ argsAll kwonlyargs ∧
      keysAll kwDefaults ∧ optionalArgAll kwarg ∧ exprsAll defaults

/-- The predicate holds everywhere in a parameter. -/
def Arg.All : Arg → Prop
  | value@⟨_, annotation⟩ => holds (.arg value) ∧ optionalAll annotation

/-- The predicate holds everywhere in a named argument. -/
def Keyword.All : Keyword → Prop
  | value@⟨_, inside⟩ => holds (.keyword value) ∧ inside.All

/-- The predicate holds everywhere in a clause. -/
def Comprehension.All : Comprehension → Prop
  | value@⟨target, iter, conditions, _⟩ =>
    holds (.comprehension value) ∧ target.All ∧ iter.All ∧ exprsAll conditions

/-- The predicate holds everywhere in expressions. -/
def exprsAll : List Expr → Prop
  | [] => True
  | value :: rest => value.All ∧ exprsAll rest

/-- The predicate holds everywhere in an expression that may be missing. -/
def optionalAll : Option Expr → Prop
  | none => True
  | some value => value.All

/-- The predicate holds everywhere in expressions that may be missing. -/
def keysAll : List (Option Expr) → Prop
  | [] => True
  | value :: rest => optionalAll value ∧ keysAll rest

/-- The predicate holds everywhere in slices. -/
def slicesAll : List Slice → Prop
  | [] => True
  | slice :: rest => slice.All ∧ slicesAll rest

/-- The predicate holds everywhere in several parameters. -/
def argsAll : List Arg → Prop
  | [] => True
  | arg :: rest => arg.All ∧ argsAll rest

/-- The predicate holds everywhere in a parameter that may be missing. -/
def optionalArgAll : Option Arg → Prop
  | none => True
  | some arg => arg.All

/-- The predicate holds everywhere in named arguments. -/
def keywordsAll : List Keyword → Prop
  | [] => True
  | keyword :: rest => keyword.All ∧ keywordsAll rest

/-- The predicate holds everywhere in clauses. -/
def clausesAll : List Comprehension → Prop
  | [] => True
  | clause :: rest => clause.All ∧ clausesAll rest

end

/-- The predicate holds everywhere in a context of a with statement. -/
def WithItem.All (item : WithItem) : Prop :=
  holds (.withItem item) ∧ item.context.All holds ∧ optionalAll holds item.target

/-- The predicate holds of imported names. -/
def aliasesAll (names : List Alias) : Prop := ∀ name ∈ names, holds (.imported name)

mutual

/-- The predicate holds everywhere in a statement. -/
def Stmt.All : Stmt → Prop
  | stmt@(.functionDef _ _ parameters body decorators returns _) =>
    holds (.stmt stmt) ∧ parameters.All holds ∧ stmtsAll body ∧ exprsAll holds decorators ∧
      optionalAll holds returns
  | stmt@(.classDef _ bases keywords body decorators _) =>
    holds (.stmt stmt) ∧ exprsAll holds bases ∧ keywordsAll holds keywords ∧ stmtsAll body ∧
      exprsAll holds decorators
  | stmt@(.returnValue value) => holds (.stmt stmt) ∧ optionalAll holds value
  | stmt@(.delete targets) => holds (.stmt stmt) ∧ exprsAll holds targets
  | stmt@(.assign targets value) => holds (.stmt stmt) ∧ exprsAll holds targets ∧ value.All holds
  | stmt@(.augAssign target _ value) => holds (.stmt stmt) ∧ target.All holds ∧ value.All holds
  | stmt@(.annAssign target annotation value _) =>
    holds (.stmt stmt) ∧ target.All holds ∧ annotation.All holds ∧ optionalAll holds value
  | stmt@(.forLoop _ target iter body orelse) =>
    holds (.stmt stmt) ∧ target.All holds ∧ iter.All holds ∧ stmtsAll body ∧ stmtsAll orelse
  | stmt@(.whileLoop test body orelse) =>
    holds (.stmt stmt) ∧ test.All holds ∧ stmtsAll body ∧ stmtsAll orelse
  | stmt@(.ifElse test body orelse) =>
    holds (.stmt stmt) ∧ test.All holds ∧ stmtsAll body ∧ stmtsAll orelse
  | stmt@(.withItems _ items body) =>
    holds (.stmt stmt) ∧ (∀ item ∈ items, item.All holds) ∧ stmtsAll body
  | stmt@(.raise exception cause) =>
    holds (.stmt stmt) ∧ optionalAll holds exception ∧ optionalAll holds cause
  | stmt@(.tryExcept body handlers orelse final) =>
    holds (.stmt stmt) ∧ stmtsAll body ∧ handlersAll handlers ∧ stmtsAll orelse ∧ stmtsAll final
  | stmt@(.assert test message) =>
    holds (.stmt stmt) ∧ test.All holds ∧ optionalAll holds message
  | stmt@(.importModules names) => holds (.stmt stmt) ∧ aliasesAll holds names
  | stmt@(.importFrom _ names _) => holds (.stmt stmt) ∧ aliasesAll holds names
  | stmt@(.expr value) => holds (.stmt stmt) ∧ value.All holds
  | stmt@(.globals _) | stmt@(.nonlocals _) | stmt@.pass | stmt@.breakLoop | stmt@.continueLoop =>
    holds (.stmt stmt)

/-- The predicate holds everywhere in a handler. -/
def ExceptHandler.All : ExceptHandler → Prop
  | handler@⟨type, _, body⟩ => holds (.handler handler) ∧ optionalAll holds type ∧ stmtsAll body

/-- The predicate holds everywhere in statements. -/
def stmtsAll : List Stmt → Prop
  | [] => True
  | stmt :: rest => stmt.All ∧ stmtsAll rest

/-- The predicate holds everywhere in handlers. -/
def handlersAll : List ExceptHandler → Prop
  | [] => True
  | handler :: rest => handler.All ∧ handlersAll rest

end

/-- The predicate holds everywhere in a tree. -/
def Root.All (root : Root) : Prop :=
  holds (.root root) ∧
    match root with
    | .module body => stmtsAll holds body
    | .interactive body => stmtsAll holds body
    | .expression body => body.All holds

/-- A walk enters every part. -/
def everyPart : Part → Bool := fun _ => true

variable {holds}

section Walks

/-- The predicate holds of what a walk lists. -/
def HoldsOf (holds : Part → Prop) (parts : List Part) : Prop := ∀ part ∈ parts, holds part

/-- No parts. -/
@[simp] theorem holdsOf_nil : HoldsOf holds [] := by
  simp [HoldsOf]

/-- Parts in order. -/
@[simp] theorem holdsOf_append (front back : List Part) :
    HoldsOf holds (front ++ back) ↔ HoldsOf holds front ∧ HoldsOf holds back :=
  List.forall_mem_append

/-- A part that is entered, with the parts below it. -/
@[simp] theorem holdsOf_over (part : Part) (parts : List Part) :
    HoldsOf holds (part.over everyPart parts) ↔ holds part ∧ HoldsOf holds parts :=
  List.forall_mem_cons

mutual

/-- Everywhere in an expression is at the expression and at the parts below it. -/
theorem Expr.all_holdsOf :
    ∀ value : Expr, value.All holds ↔ holds (.expr value) ∧ HoldsOf holds (value.parts everyPart)
  | .boolOp _ values => by simp [Expr.All, Expr.parts, exprs_holdsOf values]
  | .binOp left _ right => by simp [Expr.All, Expr.parts, left.all_holdsOf, right.all_holdsOf]
  | .unaryOp _ operand => by simp [Expr.All, Expr.parts, operand.all_holdsOf]
  | .lambda parameters body => by
    simp [Expr.All, Expr.parts, parameters.all_holdsOf, body.all_holdsOf]
  | .ifExp test body orelse => by
    simp [Expr.All, Expr.parts, test.all_holdsOf, body.all_holdsOf, orelse.all_holdsOf]
  | .dict keys values => by simp [Expr.All, Expr.parts, keys_holdsOf keys, exprs_holdsOf values]
  | .set elements => by simp [Expr.All, Expr.parts, exprs_holdsOf elements]
  | .listComp element clauses => by
    simp [Expr.All, Expr.parts, element.all_holdsOf, clauses_holdsOf clauses]
  | .setComp element clauses => by
    simp [Expr.All, Expr.parts, element.all_holdsOf, clauses_holdsOf clauses]
  | .dictComp key value clauses => by
    simp [Expr.All, Expr.parts, key.all_holdsOf, value.all_holdsOf, clauses_holdsOf clauses]
  | .generator element clauses => by
    simp [Expr.All, Expr.parts, element.all_holdsOf, clauses_holdsOf clauses]
  | .await value => by simp [Expr.All, Expr.parts, value.all_holdsOf]
  | .yield value => by simp [Expr.All, Expr.parts, optional_holdsOf value]
  | .yieldFrom value => by simp [Expr.All, Expr.parts, value.all_holdsOf]
  | .compare left _ comparators => by
    simp [Expr.All, Expr.parts, left.all_holdsOf, exprs_holdsOf comparators]
  | .call function arguments keywords => by
    simp [Expr.All, Expr.parts, function.all_holdsOf, exprs_holdsOf arguments, keywords_holdsOf keywords]
  | .attribute value _ _ => by simp [Expr.All, Expr.parts, value.all_holdsOf]
  | .subscript value slice _ => by simp [Expr.All, Expr.parts, value.all_holdsOf, slice.all_holdsOf]
  | .starred value _ => by simp [Expr.All, Expr.parts, value.all_holdsOf]
  | .list elements _ => by simp [Expr.All, Expr.parts, exprs_holdsOf elements]
  | .tuple elements _ => by simp [Expr.All, Expr.parts, exprs_holdsOf elements]
  | .num _ | .str _ | .bytes _ | .constant _ | .ellipsis | .name _ _ => by
    simp [Expr.All, Expr.parts]

/-- Everywhere in a slice is at the slice and at the parts below it. -/
theorem Slice.all_holdsOf :
    ∀ value : Slice, value.All holds ↔ holds (.slice value) ∧ HoldsOf holds (value.parts everyPart)
  | .range lower upper step => by
    simp [Slice.All, Slice.parts, optional_holdsOf lower, optional_holdsOf upper,
      optional_holdsOf step]
  | .dimensions slices => by simp [Slice.All, Slice.parts, slices_holdsOf slices]
  | .index value => by simp [Slice.All, Slice.parts, value.all_holdsOf]

/-- Everywhere in parameters is at the parameters and at the parts below them. -/
theorem Arguments.all_holdsOf :
    ∀ value : Arguments,
      value.All holds ↔ holds (.arguments value) ∧ HoldsOf holds (value.parts everyPart)
  | ⟨args, vararg, kwonlyargs, kwDefaults, kwarg, defaults⟩ => by
    simp [Arguments.All, Arguments.parts, args_holdsOf args, optionalArg_holdsOf vararg,
      args_holdsOf kwonlyargs, keys_holdsOf kwDefaults, optionalArg_holdsOf kwarg,
      exprs_holdsOf defaults]

/-- Everywhere in a parameter is at the parameter and at the parts below it. -/
theorem Arg.all_holdsOf :
    ∀ value : Arg, value.All holds ↔ holds (.arg value) ∧ HoldsOf holds (value.parts everyPart)
  | ⟨_, annotation⟩ => by simp [Arg.All, Arg.parts, optional_holdsOf annotation]

/-- Everywhere in a named argument is at the argument and at the parts below it. -/
theorem Keyword.all_holdsOf :
    ∀ value : Keyword,
      value.All holds ↔ holds (.keyword value) ∧ HoldsOf holds (value.parts everyPart)
  | ⟨_, value⟩ => by simp [Keyword.All, Keyword.parts, value.all_holdsOf]

/-- Everywhere in a clause is at the clause and at the parts below it. -/
theorem Comprehension.all_holdsOf :
    ∀ value : Comprehension,
      value.All holds ↔ holds (.comprehension value) ∧ HoldsOf holds (value.parts everyPart)
  | ⟨target, iter, conditions, _⟩ => by
    simp [Comprehension.All, Comprehension.parts, target.all_holdsOf, iter.all_holdsOf,
      exprs_holdsOf conditions]

/-- Everywhere in a list is at what a walk through it lists. -/
theorem exprs_holdsOf :
    ∀ values : List Expr, exprsAll holds values ↔ HoldsOf holds (walkExprs everyPart values)
  | [] => by simp [exprsAll, walkExprs]
  | value :: rest => by simp [exprsAll, walkExprs, value.all_holdsOf, exprs_holdsOf rest]

/-- Everywhere in what may be missing is at what a walk through it lists. -/
theorem optional_holdsOf :
    ∀ value : Option Expr, optionalAll holds value ↔ HoldsOf holds (walkOptional everyPart value)
  | none => by simp [optionalAll, walkOptional]
  | some value => by simp [optionalAll, walkOptional, value.all_holdsOf]

/-- Everywhere in a list is at what a walk through it lists. -/
theorem keys_holdsOf :
    ∀ values : List (Option Expr), keysAll holds values ↔ HoldsOf holds (walkOptionals everyPart values)
  | [] => by simp [keysAll, walkOptionals]
  | value :: rest => by simp [keysAll, walkOptionals, optional_holdsOf value, keys_holdsOf rest]

/-- Everywhere in a list is at what a walk through it lists. -/
theorem slices_holdsOf :
    ∀ values : List Slice, slicesAll holds values ↔ HoldsOf holds (walkSlices everyPart values)
  | [] => by simp [slicesAll, walkSlices]
  | value :: rest => by simp [slicesAll, walkSlices, value.all_holdsOf, slices_holdsOf rest]

/-- Everywhere in a list is at what a walk through it lists. -/
theorem args_holdsOf :
    ∀ values : List Arg, argsAll holds values ↔ HoldsOf holds (walkArgs everyPart values)
  | [] => by simp [argsAll, walkArgs]
  | value :: rest => by simp [argsAll, walkArgs, value.all_holdsOf, args_holdsOf rest]

/-- Everywhere in what may be missing is at what a walk through it lists. -/
theorem optionalArg_holdsOf :
    ∀ value : Option Arg, optionalArgAll holds value ↔ HoldsOf holds (walkOptionalArg everyPart value)
  | none => by simp [optionalArgAll, walkOptionalArg]
  | some value => by simp [optionalArgAll, walkOptionalArg, value.all_holdsOf]

/-- Everywhere in a list is at what a walk through it lists. -/
theorem keywords_holdsOf :
    ∀ values : List Keyword, keywordsAll holds values ↔ HoldsOf holds (walkKeywords everyPart values)
  | [] => by simp [keywordsAll, walkKeywords]
  | value :: rest => by simp [keywordsAll, walkKeywords, value.all_holdsOf, keywords_holdsOf rest]

/-- Everywhere in a list is at what a walk through it lists. -/
theorem clauses_holdsOf :
    ∀ values : List Comprehension, clausesAll holds values ↔ HoldsOf holds (walkClauses everyPart values)
  | [] => by simp [clausesAll, walkClauses]
  | value :: rest => by simp [clausesAll, walkClauses, value.all_holdsOf, clauses_holdsOf rest]

end

/-- Everywhere in a context of a with statement is at what a walk through it lists. -/
theorem WithItem.all_holdsOf (item : WithItem) :
    item.All holds ↔ HoldsOf holds (item.walk everyPart) := by
  simp [WithItem.All, WithItem.walk, Expr.walk, item.context.all_holdsOf, optional_holdsOf]

/-- Everywhere in contexts is at what a walk through them lists. -/
theorem items_holdsOf (items : List WithItem) :
    (∀ item ∈ items, item.All holds) ↔
      HoldsOf holds (items.flatMap (WithItem.walk everyPart)) := by
  induction items with
  | nil => simp
  | cons item rest ih => simp [ih, item.all_holdsOf]

/-- The predicate holds of imported names if it does of what a walk through them lists. -/
theorem aliases_holdsOf (names : List Alias) :
    aliasesAll holds names ↔ HoldsOf holds (walkAliases everyPart names) := by
  induction names with
  | nil => simp [aliasesAll, walkAliases]
  | cons name rest ih =>
    rw [aliasesAll, walkAliases] at ih
    simp [aliasesAll, walkAliases, ih]

mutual

/-- Everywhere in a statement is at the statement and at the parts below it. -/
theorem Stmt.all_holdsOf :
    ∀ stmt : Stmt, stmt.All holds ↔ holds (.stmt stmt) ∧ HoldsOf holds (stmt.parts everyPart)
  | .functionDef _ _ parameters body decorators returns _ => by
    simp [Stmt.All, Stmt.parts, parameters.all_holdsOf, stmts_holdsOf body,
      exprs_holdsOf decorators, optional_holdsOf returns]
  | .classDef _ bases keywords body decorators _ => by
    simp [Stmt.All, Stmt.parts, exprs_holdsOf bases, keywords_holdsOf keywords,
      stmts_holdsOf body, exprs_holdsOf decorators]
  | .returnValue value => by simp [Stmt.All, Stmt.parts, optional_holdsOf value]
  | .delete targets => by simp [Stmt.All, Stmt.parts, exprs_holdsOf targets]
  | .assign targets value => by
    simp [Stmt.All, Stmt.parts, exprs_holdsOf targets, Expr.walk, value.all_holdsOf]
  | .augAssign target _ value => by
    simp [Stmt.All, Stmt.parts, Expr.walk, target.all_holdsOf, value.all_holdsOf]
  | .annAssign target annotation value _ => by
    simp [Stmt.All, Stmt.parts, Expr.walk, target.all_holdsOf, annotation.all_holdsOf,
      optional_holdsOf value]
  | .forLoop _ target iter body orelse => by
    simp [Stmt.All, Stmt.parts, Expr.walk, target.all_holdsOf, iter.all_holdsOf,
      stmts_holdsOf body, stmts_holdsOf orelse]
  | .whileLoop test body orelse | .ifElse test body orelse => by
    simp [Stmt.All, Stmt.parts, Expr.walk, test.all_holdsOf, stmts_holdsOf body,
      stmts_holdsOf orelse]
  | .withItems _ items body => by
    simp [Stmt.All, Stmt.parts, items_holdsOf items, stmts_holdsOf body]
  | .raise exception cause => by
    simp [Stmt.All, Stmt.parts, optional_holdsOf exception, optional_holdsOf cause]
  | .tryExcept body handlers orelse final => by
    simp [Stmt.All, Stmt.parts, stmts_holdsOf body, handlers_holdsOf handlers,
      stmts_holdsOf orelse, stmts_holdsOf final]
  | .assert test message => by
    simp [Stmt.All, Stmt.parts, Expr.walk, test.all_holdsOf, optional_holdsOf message]
  | .importModules names | .importFrom _ names _ => by
    simp [Stmt.All, Stmt.parts, aliases_holdsOf names]
  | .expr value => by simp [Stmt.All, Stmt.parts, Expr.walk, value.all_holdsOf]
  | .globals _ | .nonlocals _ | .pass | .breakLoop | .continueLoop => by
    simp [Stmt.All, Stmt.parts]

/-- Everywhere in a handler is at the handler and at the parts below it. -/
theorem ExceptHandler.all_holdsOf :
    ∀ handler : ExceptHandler,
      handler.All holds ↔ holds (.handler handler) ∧ HoldsOf holds (handler.parts everyPart)
  | ⟨type, _, body⟩ => by
    simp [ExceptHandler.All, ExceptHandler.parts, optional_holdsOf type, stmts_holdsOf body]

/-- Everywhere in a list is at what a walk through it lists. -/
theorem stmts_holdsOf :
    ∀ body : List Stmt, stmtsAll holds body ↔ HoldsOf holds (walkBody everyPart body)
  | [] => by simp [stmtsAll, walkBody]
  | stmt :: rest => by simp [stmtsAll, walkBody, stmt.all_holdsOf, stmts_holdsOf rest]

/-- Everywhere in a list is at what a walk through it lists. -/
theorem handlers_holdsOf :
    ∀ handlers : List ExceptHandler,
      handlersAll holds handlers ↔ HoldsOf holds (walkHandlers everyPart handlers)
  | [] => by simp [handlersAll, walkHandlers]
  | handler :: rest => by
    simp [handlersAll, walkHandlers, handler.all_holdsOf, handlers_holdsOf rest]

end

/-- Everywhere in a tree is at all parts that a walk lists, if it enters each of them. -/
theorem Root.all_iff (root : Root) :
    root.All holds ↔ ∀ part ∈ root.walk everyPart, holds part := by
  show root.All holds ↔ HoldsOf holds (root.walk everyPart)
  cases root <;>
    simp [Root.All, Root.walk, stmts_holdsOf, Expr.walk, Expr.all_holdsOf]

end Walks

/-- What is asked of values one after the other is asked of each. -/
theorem forall_of_cons {α : Type} {one : α → Prop} {all : List α → Prop}
    (none_ : all [] ↔ True) (more : ∀ value rest, all (value :: rest) ↔ one value ∧ all rest)
    (values : List α) : all values ↔ ∀ value ∈ values, one value := by
  induction values with
  | nil => simpa using none_
  | cons value rest ih => rw [more, ih, List.forall_mem_cons]

/-- Everywhere in expressions is everywhere in each. -/
@[simp] theorem exprsAll_iff (values : List Expr) :
    exprsAll holds values ↔ ∀ value ∈ values, value.All holds :=
  forall_of_cons .rfl (fun _ _ => .rfl) values

/-- Everywhere in expressions that may be missing is everywhere in each. -/
@[simp] theorem keysAll_iff (values : List (Option Expr)) :
    keysAll holds values ↔ ∀ value ∈ values, optionalAll holds value :=
  forall_of_cons .rfl (fun _ _ => .rfl) values

/-- Everywhere in slices is everywhere in each. -/
@[simp] theorem slicesAll_iff (slices : List Slice) :
    slicesAll holds slices ↔ ∀ slice ∈ slices, slice.All holds :=
  forall_of_cons .rfl (fun _ _ => .rfl) slices

/-- Everywhere in parameters is everywhere in each. -/
@[simp] theorem argsAll_iff (args : List Arg) :
    argsAll holds args ↔ ∀ arg ∈ args, arg.All holds :=
  forall_of_cons .rfl (fun _ _ => .rfl) args

/-- Everywhere in named arguments is everywhere in each. -/
@[simp] theorem keywordsAll_iff (keywords : List Keyword) :
    keywordsAll holds keywords ↔ ∀ keyword ∈ keywords, keyword.All holds :=
  forall_of_cons .rfl (fun _ _ => .rfl) keywords

/-- Everywhere in clauses is everywhere in each. -/
@[simp] theorem clausesAll_iff (clauses : List Comprehension) :
    clausesAll holds clauses ↔ ∀ clause ∈ clauses, clause.All holds :=
  forall_of_cons .rfl (fun _ _ => .rfl) clauses

/-- Everywhere in statements is everywhere in each. -/
@[simp] theorem stmtsAll_iff (body : List Stmt) :
    stmtsAll holds body ↔ ∀ stmt ∈ body, stmt.All holds :=
  forall_of_cons .rfl (fun _ _ => .rfl) body

/-- Everywhere in handlers is everywhere in each. -/
@[simp] theorem handlersAll_iff (handlers : List ExceptHandler) :
    handlersAll holds handlers ↔ ∀ handler ∈ handlers, handler.All holds :=
  forall_of_cons .rfl (fun _ _ => .rfl) handlers


/-- Everywhere in parameters, field by field. -/
theorem Arguments.all_iff (parameters : Arguments) :
    parameters.All holds ↔ holds (.arguments parameters) ∧
      (∀ arg ∈ parameters.args, arg.All holds) ∧ optionalArgAll holds parameters.vararg ∧
      (∀ arg ∈ parameters.kwonlyargs, arg.All holds) ∧
      (∀ value ∈ parameters.kwDefaults, optionalAll holds value) ∧
      optionalArgAll holds parameters.kwarg ∧
      ∀ value ∈ parameters.defaults, value.All holds := by
  cases parameters
  simp [Arguments.All]

end Offside
