import Offside.Proofs.Tree.Everywhere
import Offside.Proofs.Tree.Making

/-!
# Contexts of a tree

How the expressions of a tree are used. A value has the context `load` everywhere, except in the
targets of comprehension clauses. A target is a name, a member, a subscript, or a starred form, a
list or a tuple of targets, all with one context; what stands inside a member or a subscript is a
value again (`Expr.UsedAs`). A statement says which of its expressions are targets
(`Stmt.ContextsFit`). Turning a value into a target keeps to this (`Expr.UsedAs.withContext`).
-/
namespace Offside

mutual

/-- The expression is used in a context. Only targets may be used in another one than `load`. -/
def Expr.UsedAs (context : Context) : Expr → Prop
  | .name _ found => found = context
  | .attribute value _ found => found = context ∧ value.UsedAs .load
  | .subscript value slice found => found = context ∧ value.UsedAs .load ∧ slice.Loads
  | .starred value found => found = context ∧ value.UsedAs context
  | .list elements found => found = context ∧ exprsUsedAs context elements
  | .tuple elements found => found = context ∧ exprsUsedAs context elements
  | .boolOp _ values => context = .load ∧ exprsUsedAs .load values
  | .binOp left _ right => context = .load ∧ left.UsedAs .load ∧ right.UsedAs .load
  | .unaryOp _ operand => context = .load ∧ operand.UsedAs .load
  | .lambda parameters body => context = .load ∧ parameters.Loads ∧ body.UsedAs .load
  | .ifExp test body orelse =>
    context = .load ∧ test.UsedAs .load ∧ body.UsedAs .load ∧ orelse.UsedAs .load
  | .dict keys values => context = .load ∧ keysLoad keys ∧ exprsUsedAs .load values
  | .set elements => context = .load ∧ exprsUsedAs .load elements
  | .listComp element clauses => context = .load ∧ element.UsedAs .load ∧ clausesFit clauses
  | .setComp element clauses => context = .load ∧ element.UsedAs .load ∧ clausesFit clauses
  | .dictComp key value clauses =>
    context = .load ∧ key.UsedAs .load ∧ value.UsedAs .load ∧ clausesFit clauses
  | .generator element clauses => context = .load ∧ element.UsedAs .load ∧ clausesFit clauses
  | .await value => context = .load ∧ value.UsedAs .load
  | .yield value => context = .load ∧ optionalLoads value
  | .yieldFrom value => context = .load ∧ value.UsedAs .load
  | .compare left _ comparators =>
    context = .load ∧ left.UsedAs .load ∧ exprsUsedAs .load comparators
  | .call function arguments keywords =>
    context = .load ∧ function.UsedAs .load ∧ exprsUsedAs .load arguments ∧ keywordsLoad keywords
  | .num _ | .str _ | .bytes _ | .constant _ | .ellipsis => context = .load

/-- The expressions of a slice are values. -/
def Slice.Loads : Slice → Prop
  | .range lower upper step => optionalLoads lower ∧ optionalLoads upper ∧ optionalLoads step
  | .dimensions slices => slicesLoad slices
  | .index value => value.UsedAs .load

/-- The expressions of parameters are values. -/
def Arguments.Loads : Arguments → Prop
  | ⟨args, vararg, kwonlyargs, kwDefaults, kwarg, defaults⟩ =>
    argsLoad args ∧ optionalArgLoads vararg ∧ argsLoad kwonlyargs ∧ keysLoad kwDefaults ∧
      optionalArgLoads kwarg ∧ exprsUsedAs .load defaults

/-- The annotation of a parameter is a value. -/
def Arg.Loads : Arg → Prop
  | ⟨_, annotation⟩ => optionalLoads annotation

/-- The value of a named argument is one. -/
def Keyword.Loads : Keyword → Prop
  | ⟨_, value⟩ => value.UsedAs .load

/-- The target of a clause is stored to, and its other expressions are values. -/
def Comprehension.ContextsFit : Comprehension → Prop
  | ⟨target, iter, conditions, _⟩ =>
    target.UsedAs .store ∧ iter.UsedAs .load ∧ exprsUsedAs .load conditions

/-- The expressions are used in a context. -/
def exprsUsedAs (context : Context) : List Expr → Prop
  | [] => True
  | value :: rest => value.UsedAs context ∧ exprsUsedAs context rest

/-- An expression that may be missing is a value. -/
def optionalLoads : Option Expr → Prop
  | none => True
  | some value => value.UsedAs .load

/-- Expressions that may be missing are values. -/
def keysLoad : List (Option Expr) → Prop
  | [] => True
  | value :: rest => optionalLoads value ∧ keysLoad rest

/-- The expressions of slices are values. -/
def slicesLoad : List Slice → Prop
  | [] => True
  | slice :: rest => slice.Loads ∧ slicesLoad rest

/-- The annotations of several parameters are values. -/
def argsLoad : List Arg → Prop
  | [] => True
  | arg :: rest => arg.Loads ∧ argsLoad rest

/-- The annotation of a parameter that may be missing is a value. -/
def optionalArgLoads : Option Arg → Prop
  | none => True
  | some arg => arg.Loads

/-- The values of named arguments are values. -/
def keywordsLoad : List Keyword → Prop
  | [] => True
  | keyword :: rest => keyword.Loads ∧ keywordsLoad rest

/-- The contexts fit in each clause. -/
def clausesFit : List Comprehension → Prop
  | [] => True
  | clause :: rest => clause.ContextsFit ∧ clausesFit rest

end

/-- A context of a with statement is a value, and its target is stored to. -/
def WithItem.ContextsFit (item : WithItem) : Prop :=
  item.context.UsedAs .load ∧ ∀ target ∈ item.target, target.UsedAs .store

mutual

/-- The targets of a statement are used as such, and its other expressions are values. -/
def Stmt.ContextsFit : Stmt → Prop
  | .functionDef _ _ parameters body decorators returns _ =>
    parameters.Loads ∧ stmtsFit body ∧ exprsUsedAs .load decorators ∧ optionalLoads returns
  | .classDef _ bases keywords body decorators _ =>
    exprsUsedAs .load bases ∧ keywordsLoad keywords ∧ stmtsFit body ∧
      exprsUsedAs .load decorators
  | .returnValue value => optionalLoads value
  | .delete targets => exprsUsedAs .del targets
  | .assign targets value => exprsUsedAs .store targets ∧ value.UsedAs .load
  | .augAssign target _ value => target.UsedAs .store ∧ value.UsedAs .load
  | .annAssign target annotation value _ =>
    target.UsedAs .store ∧ annotation.UsedAs .load ∧ optionalLoads value
  | .forLoop _ target iter body orelse =>
    target.UsedAs .store ∧ iter.UsedAs .load ∧ stmtsFit body ∧ stmtsFit orelse
  | .whileLoop test body orelse => test.UsedAs .load ∧ stmtsFit body ∧ stmtsFit orelse
  | .ifElse test body orelse => test.UsedAs .load ∧ stmtsFit body ∧ stmtsFit orelse
  | .withItems _ items body => (∀ item ∈ items, item.ContextsFit) ∧ stmtsFit body
  | .raise exception cause => optionalLoads exception ∧ optionalLoads cause
  | .tryExcept body handlers orelse final =>
    stmtsFit body ∧ handlersFit handlers ∧ stmtsFit orelse ∧ stmtsFit final
  | .assert test message => test.UsedAs .load ∧ optionalLoads message
  | .expr value => value.UsedAs .load
  | .importModules _ | .importFrom .. | .globals _ | .nonlocals _ | .pass | .breakLoop
  | .continueLoop => True

/-- The contexts fit in a handler. -/
def ExceptHandler.ContextsFit : ExceptHandler → Prop
  | ⟨type, _, body⟩ => optionalLoads type ∧ stmtsFit body

/-- The contexts fit in each statement. -/
def stmtsFit : List Stmt → Prop
  | [] => True
  | stmt :: rest => stmt.ContextsFit ∧ stmtsFit rest

/-- The contexts fit in each handler. -/
def handlersFit : List ExceptHandler → Prop
  | [] => True
  | handler :: rest => handler.ContextsFit ∧ handlersFit rest

end

/-- The contexts fit in all of a tree. -/
def Root.ContextsFit : Root → Prop
  | .module body => stmtsFit body
  | .interactive body => stmtsFit body
  | .expression body => body.UsedAs .load

/-- Expressions are used in a context if each is. -/
@[simp] theorem exprsUsedAs_iff {context : Context} (values : List Expr) :
    exprsUsedAs context values ↔ ∀ value ∈ values, value.UsedAs context :=
  forall_of_cons .rfl (fun _ _ => .rfl) values

/-- Expressions that may be missing are values if each is. -/
@[simp] theorem keysLoad_iff (values : List (Option Expr)) :
    keysLoad values ↔ ∀ value ∈ values, optionalLoads value :=
  forall_of_cons .rfl (fun _ _ => .rfl) values

/-- The expressions of slices are values if those of each are. -/
@[simp] theorem slicesLoad_iff (slices : List Slice) :
    slicesLoad slices ↔ ∀ slice ∈ slices, slice.Loads :=
  forall_of_cons .rfl (fun _ _ => .rfl) slices

/-- The annotations of parameters are values if each is. -/
@[simp] theorem argsLoad_iff (args : List Arg) : argsLoad args ↔ ∀ arg ∈ args, arg.Loads :=
  forall_of_cons .rfl (fun _ _ => .rfl) args

/-- The values of named arguments are values if each is. -/
@[simp] theorem keywordsLoad_iff (keywords : List Keyword) :
    keywordsLoad keywords ↔ ∀ keyword ∈ keywords, keyword.Loads :=
  forall_of_cons .rfl (fun _ _ => .rfl) keywords

/-- The contexts fit in clauses if they do in each. -/
@[simp] theorem clausesFit_iff (clauses : List Comprehension) :
    clausesFit clauses ↔ ∀ clause ∈ clauses, clause.ContextsFit :=
  forall_of_cons .rfl (fun _ _ => .rfl) clauses

/-- The contexts fit in statements if they do in each. -/
@[simp] theorem stmtsFit_iff (body : List Stmt) :
    stmtsFit body ↔ ∀ stmt ∈ body, stmt.ContextsFit :=
  forall_of_cons .rfl (fun _ _ => .rfl) body

/-- The contexts fit in handlers if they do in each. -/
@[simp] theorem handlersFit_iff (handlers : List ExceptHandler) :
    handlersFit handlers ↔ ∀ handler ∈ handlers, handler.ContextsFit :=
  forall_of_cons .rfl (fun _ _ => .rfl) handlers

/-- A value that is made a target is used as one. -/
theorem Expr.UsedAs.withContext {context : Context} {value out : Expr}
    (loads : value.UsedAs .load) (made : value.withContext context = .ok out) :
    out.UsedAs context := by
  have several {values targets : List Expr}
      (each : List.Forall₂ (fun value out => value.UsedAs .load → out.UsedAs context) values
        targets) (loads : ∀ value ∈ values, value.UsedAs .load) :
      ∀ target ∈ targets, target.UsedAs context := by
    induction each with
    | nil => simp
    | cons first _ ih =>
      obtain ⟨here, others⟩ := List.forall_mem_cons.1 loads
      exact List.forall_mem_cons.2 ⟨first here, ih others⟩
  have relates : Expr.RelatesTargets context
      fun value out => value.UsedAs .load → out.UsedAs context :=
    { name := fun _ _ _ => rfl
      member := fun _ _ _ loads => ⟨rfl, loads.2⟩
      subscript := fun _ _ _ loads => ⟨rfl, loads.2⟩
      starred := fun _ _ _ inside loads => ⟨rfl, inside loads.2⟩
      list := fun _ _ _ each loads =>
        ⟨rfl, (exprsUsedAs_iff _).2 (several each ((exprsUsedAs_iff _).1 loads.2))⟩
      tuple := fun _ _ _ each loads =>
        ⟨rfl, (exprsUsedAs_iff _).2 (several each ((exprsUsedAs_iff _).1 loads.2))⟩ }
  exact Expr.withContext_related relates made loads

end Offside
