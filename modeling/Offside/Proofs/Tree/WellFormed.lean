import Offside.Proofs.Tree.Everywhere
import Offside.Proofs.Tree.Making

/-!
# Well-formed trees

What the types of a tree leave open and the language asks for: lists that are not empty, lists
that go side by side, and parts that need one another. Each part of a tree has a condition of its
own (`Part.Proper`), and a tree is well formed if all parts that a walk lists meet theirs
(`Root.WellFormed`). Turning a value into a target keeps to this
(`Expr.withContext_proper`).
-/
namespace Offside

/-- The slice is a range. -/
def Slice.IsRange : Slice → Prop
  | .range .. => True
  | .dimensions _ | .index _ => False

/-- The slice has several dimensions. -/
def Slice.IsDimensions : Slice → Prop
  | .dimensions _ => True
  | .range .. | .index _ => False

/-- The expression is a name. -/
def Expr.IsName : Expr → Prop
  | .name .. => True
  | _ => False

/-- The expression is a list or a tuple. -/
def Expr.IsSequence : Expr → Prop
  | .list .. | .tuple .. => True
  | _ => False

/-- What is asked of an expression, apart from the parts below it. -/
def Expr.Proper : Expr → Prop
  | .boolOp _ values => 2 ≤ values.length
  | .compare _ operators comparators =>
    comparators.length = operators.length ∧ 1 ≤ operators.length
  | .dict keys values => keys.length = values.length
  | .set elements => elements ≠ []
  | .listComp _ clauses | .setComp _ clauses | .generator _ clauses | .dictComp _ _ clauses =>
    clauses ≠ []
  | .binOp .. | .unaryOp .. | .lambda .. | .ifExp .. | .await _ | .yield _ | .yieldFrom _
  | .call .. | .num _ | .str _ | .bytes _ | .constant _ | .ellipsis | .attribute .. | .subscript ..
  | .starred .. | .name .. | .list .. | .tuple .. => True

/-- What is asked of a slice: of several dimensions at least one is a range, and none is made of
several dimensions itself. -/
def Slice.Proper : Slice → Prop
  | .dimensions slices =>
    (∃ slice ∈ slices, slice.IsRange) ∧ ∀ slice ∈ slices, ¬slice.IsDimensions
  | .range .. | .index _ => True

/-- What is asked of parameters: there are no more defaults than parameters, and as many defaults
as parameters where these are given by name alone. -/
def Arguments.Proper (parameters : Arguments) : Prop :=
  parameters.defaults.length ≤ parameters.args.length ∧
    parameters.kwDefaults.length = parameters.kwonlyargs.length

/-- What is asked of a statement, apart from the parts below it. -/
def Stmt.Proper : Stmt → Prop
  | .functionDef _ _ _ body _ _ _ | .classDef _ _ _ body _ _ | .forLoop _ _ _ body _
  | .whileLoop _ body _ | .ifElse _ body _ => body ≠ []
  | .withItems _ items body => items ≠ [] ∧ body ≠ []
  | .tryExcept body handlers _ final => body ≠ [] ∧ (handlers ≠ [] ∨ final ≠ [])
  | .assign targets _ | .delete targets => targets ≠ []
  | .annAssign target _ _ simple => ¬target.IsSequence ∧ (simple = 1 → target.IsName)
  | .raise exception cause => cause ≠ none → exception ≠ none
  | .importModules names => names ≠ []
  | .importFrom module names level => names ≠ [] ∧ (module = none → 1 ≤ level)
  | .globals names | .nonlocals names => names ≠ []
  | .returnValue _ | .augAssign .. | .assert .. | .expr _ | .pass | .breakLoop | .continueLoop =>
    True

/-- What is asked of a part of a tree, apart from the parts below it. -/
def Part.Proper : Part → Prop
  | .expr value => value.Proper
  | .slice value => value.Proper
  | .arguments value => value.Proper
  | .stmt value => value.Proper
  | .handler value => value.body ≠ []
  | .root _ | .arg _ | .keyword _ | .imported _ | .withItem _ | .comprehension _ => True

/-- All parts of a tree that a walk lists meet their conditions. -/
def Root.WellFormed (root : Root) : Prop := ∀ part ∈ root.walk everyPart, part.Proper

/-- A value that is made a target meets the same conditions. -/
theorem Expr.withContext_proper {context : Context} {value out : Expr}
    (whole : value.All Part.Proper) (made : value.withContext context = .ok out) :
    out.All Part.Proper := by
  have several {values targets : List Expr}
      (each : List.Forall₂ (fun value out => value.All Part.Proper → out.All Part.Proper) values
        targets) (all : exprsAll Part.Proper values) : exprsAll Part.Proper targets := by
    induction each with
    | nil => trivial
    | cons first _ ih => exact ⟨first all.1, ih all.2⟩
  have relates : Expr.RelatesTargets context
      fun value out => value.All Part.Proper → out.All Part.Proper :=
    { name := fun _ _ whole => whole
      member := fun _ _ _ whole => whole
      subscript := fun _ _ _ whole => whole
      starred := fun _ _ _ inside whole => ⟨trivial, inside whole.2⟩
      list := fun _ _ _ each whole => ⟨trivial, several each whole.2⟩
      tuple := fun _ _ _ each whole => ⟨trivial, several each whole.2⟩ }
  exact Expr.withContext_related relates made whole

end Offside
