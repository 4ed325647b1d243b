import Offside.Proofs.Tree.Making
import Offside.Tree.Walk

/-!
# Targets in a tree

What becomes of an expression that is made a target. Reached are the expression and, in each star,
list or tuple that is reached, what stands in it (`Expr.reached`, in the order of a walk). An
expression is a target if all that is reached in it is one, and then the context of just this is
replaced; otherwise the fault describes the first that is none (`Expr.withContext_exact`).

All of it is told by one view of an expression: its contents, which are reached next, and its
frame, which is what else there is but for the context.
-/
namespace Offside

/-- A walk that looks for targets enters stars, lists and tuples. -/
def Part.opens : Part → Bool
  | .expr (.starred ..) | .expr (.list ..) | .expr (.tuple ..) => true
  | _ => false

/-- The expression that a part is, if it is one. -/
def Part.expr? : Part → Option Expr
  | .expr value => some value
  | _ => none

/-- A result fails just as the one that it is made of. -/
theorem map_eq_error_iff {α β : Type} (change : α → β) (result : Except Cause α) (cause : Cause) :
    result.map change = .error cause ↔ result = .error cause := by
  cases result with
  | error found =>
    show Except.error found = Except.error cause ↔ _
    rw [Except.error.injEq, Except.error.injEq]
  | ok value =>
    show Except.ok (change value) = Except.error cause ↔ _
    simp

namespace Expr

/-- The expressions that are targets if the expression is one: itself and, if it is a star, a list
or a tuple, those reached from what stands in it. -/
def reached (value : Expr) : List Expr :=
  (value.walk Part.opens).filterMap Part.expr?

/-- How a name, a member, a subscript, a star, a list or a tuple is used. -/
def context? : Expr → Option Context
  | .name _ context | .attribute _ _ context | .subscript _ _ context | .starred _ context
  | .list _ context | .tuple _ context => some context
  | _ => none

/-- The expression is of a kind that can be a target. -/
def isTarget (value : Expr) : Bool := value.context?.isSome

/-- What stands in a star, a list or a tuple. -/
def contents : Expr → List Expr
  | .starred value _ => [value]
  | .list elements _ | .tuple elements _ => elements
  | _ => []

/-- The expression with another context and other contents, where it has any. -/
def refit (context : Context) (contents : List Expr) : Expr → Expr
  | .name id _ => .name id context
  | .attribute value id _ => .attribute value id context
  | .subscript value slice _ => .subscript value slice context
  | .starred value _ => .starred (contents.headD value) context
  | .list _ _ => .list contents context
  | .tuple _ _ => .tuple contents context
  | other => other

/-- The expression without its context and its contents. Three points stand for each of these. -/
def frame (value : Expr) : Expr :=
  value.refit .load (value.contents.map fun _ => .ellipsis)

/-- Each expression that is reached has the context. -/
def Uniform (context : Context) (value : Expr) : Prop :=
  ∀ target ∈ value.reached, target.context? = some context

/-- The new expression is the old one with the context at all that is reached: the same is reached
in both, in the same order and but for the contexts, and in the new one these are the given one. -/
structure Retargets (context : Context) (value out : Expr) : Prop where
  /-- Nothing but the contexts changes. -/
  frames : out.reached.map frame = value.reached.map frame
  /-- The new contexts. -/
  contexts : out.Uniform context

section view

/-- What is reached from expressions that are walked through one after the other. -/
theorem filterMap_walkExprs (values : List Expr) :
    (walkExprs Part.opens values).filterMap Part.expr? = values.flatMap reached := by
  induction values with
  | nil => rfl
  | cons value rest ih =>
    rw [walkExprs, List.filterMap_append, ih, List.flatMap_cons]
    rfl

/-- The expression is reached first, and then what is reached from its contents. -/
theorem reached_eq (value : Expr) : value.reached = value :: value.contents.flatMap reached := by
  cases value with
  | starred inside context =>
    rw [contents, List.flatMap_singleton]
    rfl
  | list elements context => exact congrArg (_ :: ·) (filterMap_walkExprs elements)
  | tuple elements context => exact congrArg (_ :: ·) (filterMap_walkExprs elements)
  | _ => rfl

/-- The expression has the context, and so has what is reached from its contents. -/
theorem uniform_iff {context : Context} (value : Expr) : value.Uniform context ↔
    value.context? = some context ∧ ∀ inside ∈ value.contents, inside.Uniform context := by
  rw [Uniform, reached_eq, List.forall_mem_cons, List.forall_mem_flatMap]
  rfl

/-- What stands in an expression is smaller. -/
theorem sizeOf_lt_of_mem_contents {value inside : Expr} (member : inside ∈ value.contents) :
    sizeOf inside < sizeOf value := by
  cases value with
  | starred found context =>
    obtain rfl := List.mem_singleton.1 member
    simp only [starred.sizeOf_spec]
    omega
  | list elements context | tuple elements context =>
    have smaller : sizeOf inside < sizeOf elements := List.sizeOf_lt_of_mem member
    simp only [list.sizeOf_spec, tuple.sizeOf_spec]
    omega
  | _ => contradiction

/-- What passes from the contents of an expression to the expression holds of all. -/
theorem contents_induction {motive : Expr → Prop}
    (step : ∀ value, (∀ inside ∈ value.contents, motive inside) → motive value) (value : Expr) :
    motive value :=
  step value fun inside _ => contents_induction step inside
termination_by sizeOf value
decreasing_by exact sizeOf_lt_of_mem_contents ‹_›

/-- A frame has as many contents as the expression. -/
theorem length_contents_frame (value : Expr) :
    value.frame.contents.length = value.contents.length := by
  cases value <;> simp [frame, refit, contents]

/-- A frame is of a kind that can be a target just if the expression is. -/
theorem isTarget_frame (value : Expr) : value.frame.isTarget = value.isTarget := by
  cases value <;> rfl

/-- A target is put together of its frame, its context and its contents. -/
theorem refit_frame {value : Expr} {context : Context} (used : value.context? = some context) :
    value.frame.refit context value.contents = value := by
  cases value with
  | name | «attribute» | subscript | starred | list | tuple =>
    obtain rfl := Option.some.inj used
    rfl
  | _ => contradiction

/-- Expressions become targets one after the other. -/
theorem withContexts_cons (context : Context) (value : Expr) (rest : List Expr) :
    withContexts context (value :: rest) =
      (value.withContext context).bind fun target =>
        (withContexts context rest).map (target :: ·) := by
  rw [withContexts]
  cases value.withContext context with
  | error cause => rfl
  | ok target => cases withContexts context rest <;> rfl

/-- An expression becomes a target if it is of such a kind and its contents become targets. -/
theorem withContext_eq (context : Context) (value : Expr) :
    value.withContext context =
      if value.isTarget then (withContexts context value.contents).map (value.refit context ·)
      else .error (.invalidTarget value.description) := by
  cases value with
  | starred inside _ =>
    rw [withContext, contents, withContexts]
    cases inside.withContext context <;> rfl
  | list elements _ | tuple elements _ =>
    rw [withContext, contents]
    cases withContexts context elements <;> rfl
  | _ => rfl

end view

section faults

/-- The first expression among the reached ones that is of no kind that can be a target. -/
def firstOther? (value : Expr) : Option Expr :=
  value.reached.find? fun target => !target.isTarget

/-- It is the expression itself or else the first one from its contents. -/
theorem firstOther?_eq (value : Expr) :
    value.firstOther? =
      if value.isTarget then value.contents.findSome? firstOther? else some value := by
  rw [firstOther?, reached_eq, List.find?_cons, List.find?_flatMap]
  cases value.isTarget <;> rfl

/-- The expression is refused as a target just if something is reached that is of no kind that can
be one, and the fault describes the first expression of this sort. -/
def FailsAtFirst (context : Context) (value : Expr) : Prop :=
  ∀ cause, value.withContext context = .error cause ↔
    ∃ found, value.firstOther? = some found ∧ cause = .invalidTarget found.description

/-- Nothing of another kind is reached in an expression that becomes a target. -/
theorem FailsAtFirst.fits {context : Context} {value out : Expr}
    (fails : value.FailsAtFirst context) (made : value.withContext context = .ok out) :
    value.firstOther? = none := by
  refine Option.eq_none_iff_forall_ne_some.2 fun found other => ?_
  have refused := (fails _).2 ⟨found, other, rfl⟩
  rw [made] at refused
  contradiction

/-- Expressions that are made targets one after the other fail at the first of them that does. -/
theorem withContexts_error_iff {context : Context} {values : List Expr} {cause : Cause}
    (each : ∀ value ∈ values, value.FailsAtFirst context) :
    withContexts context values = .error cause ↔
      ∃ found, values.findSome? firstOther? = some found ∧
        cause = .invalidTarget found.description := by
  induction values with
  | nil => simp [withContexts]
  | cons value rest ih =>
    obtain ⟨here, later⟩ := List.forall_mem_cons.1 each
    rw [withContexts_cons, List.findSome?_cons]
    cases made : value.withContext context with
    | error first =>
      obtain ⟨found, other, same⟩ := (here first).1 made
      show Except.error first = Except.error cause ↔ _
      rw [other, same]
      simp [eq_comm]
    | ok target =>
      -- The search passes over what has become a target, as the fault does.
      show (withContexts context rest).map (target :: ·) = .error cause ↔ _
      rw [map_eq_error_iff, here.fits made, ih later]

/-- Every expression fails at the first one that is reached in it and can be no target. -/
theorem failsAtFirst (context : Context) (value : Expr) : value.FailsAtFirst context := by
  induction value using contents_induction with
  | step value ih =>
    intro cause
    rw [withContext_eq, firstOther?_eq]
    cases value.isTarget with
    | false => simp [eq_comm]
    | true => rw [if_pos rfl, if_pos rfl, map_eq_error_iff, withContexts_error_iff ih]

/-- An expression becomes a target just if all that is reached is of a kind that can be one. -/
theorem withContext_succeeds_iff (context : Context) (value : Expr) :
    (∃ out, value.withContext context = .ok out) ↔
      ∀ target ∈ value.reached, target.isTarget = true := by
  have fitting : value.firstOther? = none ↔
      ∀ target ∈ value.reached, target.isTarget = true := by
    simp [firstOther?]
  rw [← fitting]
  cases made : value.withContext context with
  | ok out => exact iff_of_true ⟨out, rfl⟩ ((failsAtFirst context value).fits made)
  | error cause =>
    obtain ⟨found, other, _⟩ := (failsAtFirst context value cause).1 made
    simp [other]

end faults

section results

variable {context : Context}

/-- Where the contexts are replaced in each of several expressions, nothing else changes. -/
theorem Retargets.flatMap_frames {values targets : List Expr}
    (each : List.Forall₂ (Retargets context) values targets) :
    (targets.flatMap reached).map frame = (values.flatMap reached).map frame := by
  induction each with
  | nil => rfl
  | cons first _ ih =>
    rw [List.flatMap_cons, List.flatMap_cons, List.map_append, List.map_append, first.frames, ih]

/-- Where the contexts are replaced in each of several expressions, all are the given one. -/
theorem Retargets.uniform_of_each {values targets : List Expr}
    (each : List.Forall₂ (Retargets context) values targets) :
    ∀ target ∈ targets, target.Uniform context := by
  induction each with
  | nil => simp
  | cons first _ ih => exact List.forall_mem_cons.2 ⟨first.contexts, ih⟩

/-- The contexts are replaced in an expression if they are in its contents and in itself. -/
theorem Retargets.node {value out : Expr} (same : out.frame = value.frame)
    (used : out.context? = some context)
    (each : List.Forall₂ (Retargets context) value.contents out.contents) :
    Retargets context value out where
  frames := by
    rw [reached_eq out, reached_eq value, List.map_cons, List.map_cons, same, flatMap_frames each]
  contexts := (uniform_iff out).2 ⟨used, uniform_of_each each⟩

/-- Making a target replaces the contexts of all that is reached and nothing else. -/
theorem Retargets.of_withContext {value out : Expr} (made : value.withContext context = .ok out) :
    Retargets context value out := by
  have relates : RelatesTargets context (Retargets context) :=
    { name := fun _ _ => .node rfl rfl .nil
      member := fun _ _ _ => .node rfl rfl .nil
      subscript := fun _ _ _ => .node rfl rfl .nil
      starred := fun _ _ _ inside => .node rfl rfl (.cons inside .nil)
      list := fun _ _ _ each =>
        .node (by simp [frame, refit, contents, each.length_eq]) rfl each
      tuple := fun _ _ _ each =>
        .node (by simp [frame, refit, contents, each.length_eq]) rfl each }
  exact withContext_related relates made

/-- The frames of what is reached tell the expression and where they end, if it is known that each
context is the given one. -/
def Told (context : Context) (value : Expr) : Prop :=
  ∀ {other : Expr} {rest rest' : List Expr}, value.Uniform context → other.Uniform context →
    value.reached.map frame ++ rest = other.reached.map frame ++ rest' →
      value = other ∧ rest = rest'

/-- The frames of what is reached from expressions tell these, if their number is known. -/
theorem told_of_each {values : List Expr} (each : ∀ value ∈ values, value.Told context) :
    ∀ {others rest rest' : List Expr}, values.length = others.length →
      (∀ value ∈ values, value.Uniform context) → (∀ other ∈ others, other.Uniform context) →
      (values.flatMap reached).map frame ++ rest = (others.flatMap reached).map frame ++ rest' →
        values = others ∧ rest = rest' := by
  induction values with
  | nil =>
    intro others rest rest' lengths _ _ same
    obtain rfl := List.eq_nil_of_length_eq_zero lengths.symm
    exact ⟨rfl, same⟩
  | cons value values ih =>
    intro others rest rest' lengths used used' same
    cases others with
    | nil => contradiction
    | cons other others =>
      obtain ⟨first, later⟩ := List.forall_mem_cons.1 each
      obtain ⟨here, behind⟩ := List.forall_mem_cons.1 used
      obtain ⟨here', behind'⟩ := List.forall_mem_cons.1 used'
      simp only [List.flatMap_cons, List.map_append, List.append_assoc] at same
      obtain ⟨equal, same⟩ := first here here' same
      obtain ⟨others_equal, ends⟩ := ih later (Nat.succ.inj lengths) behind behind' same
      rw [equal, others_equal]
      exact ⟨rfl, ends⟩

/-- The frames of what is reached tell every expression. -/
theorem told (context : Context) (value : Expr) : value.Told context := by
  induction value using contents_induction with
  | step value ih =>
    intro other rest rest' used used' same
    obtain ⟨context_here, inside⟩ := (uniform_iff value).1 used
    obtain ⟨context_there, inside'⟩ := (uniform_iff other).1 used'
    rw [reached_eq value, reached_eq other] at same
    obtain ⟨frames, same⟩ := List.cons.inj same
    -- The frames keep the number of contents, and this says which of the frames behind are theirs.
    have lengths : value.contents.length = other.contents.length := by
      rw [← length_contents_frame, frames, length_contents_frame]
    obtain ⟨equal, ends⟩ := told_of_each ih lengths inside inside' same
    have whole : value = other := by
      rw [← refit_frame context_here, ← refit_frame context_there, frames, equal]
    exact ⟨whole, ends⟩

/-- There is only one way to replace the contexts. -/
theorem Retargets.unique {value out out' : Expr} (retargets : Retargets context value out)
    (retargets' : Retargets context value out') : out = out' := by
  have same : out.reached.map frame ++ [] = out'.reached.map frame ++ [] := by
    rw [retargets.frames, retargets'.frames]
  exact (told context out retargets.contexts retargets'.contexts same).1

/-- What has its contexts replaced could be made a target. -/
theorem Retargets.fits {value out : Expr} (retargets : Retargets context value out) :
    ∀ target ∈ value.reached, target.isTarget = true := by
  intro target member
  have framed : target.frame ∈ out.reached.map frame := by
    rw [retargets.frames]
    exact List.mem_map_of_mem member
  obtain ⟨new, found, same⟩ := List.mem_map.1 framed
  rw [← isTarget_frame, ← same, isTarget_frame, isTarget, retargets.contexts new found]
  rfl

/-- An expression is made a target by replacing the contexts of all that is reached. -/
theorem withContext_eq_ok_iff {value out : Expr} :
    value.withContext context = .ok out ↔ Retargets context value out := by
  constructor
  · exact Retargets.of_withContext
  · intro retargets
    obtain ⟨out', made⟩ := (withContext_succeeds_iff context value).2 retargets.fits
    rw [made, retargets.unique (.of_withContext made)]

/-- A target becomes the same target with any context as the expression that it was made of. -/
theorem withContext_withContext {value out : Expr} (made : value.withContext context = .ok out)
    (other : Context) : out.withContext other = value.withContext other := by
  have several {values targets : List Expr} (each : List.Forall₂
      (fun value out : Expr => out.withContext other = value.withContext other) values targets) :
      withContexts other targets = withContexts other values := by
    induction each with
    | nil => rfl
    | cons first _ ih => rw [withContexts_cons, withContexts_cons, first, ih]
  have relates : RelatesTargets context
      fun value out => out.withContext other = value.withContext other :=
    { name := fun _ _ => rfl
      member := fun _ _ _ => rfl
      subscript := fun _ _ _ => rfl
      starred := fun _ _ _ inside => by rw [withContext, withContext, inside]
      list := fun _ _ _ each => by rw [withContext, withContext, several each]
      tuple := fun _ _ _ each => by rw [withContext, withContext, several each] }
  exact withContext_related relates made

/-- What making an expression a target comes to. It succeeds just if all that is reached is of a
kind that can be a target; the outcome is the expression with the context of all that is reached
replaced and nothing else; a further context replaces the first one as if this had not been; and a
failure describes the first expression that is reached and is of another kind. -/
theorem withContext_exact (value : Expr) (context : Context) :
    ((∃ out, value.withContext context = .ok out) ↔
      ∀ target ∈ value.reached, target.isTarget = true) ∧
    (∀ out, value.withContext context = .ok out ↔ Retargets context value out) ∧
    (∀ out, value.withContext context = .ok out →
      out.withContext context = .ok out ∧
        ∀ other, out.withContext other = value.withContext other) ∧
    ∀ cause, value.withContext context = .error cause ↔
      ∃ found, value.reached.find? (fun target => !target.isTarget) = some found ∧
        cause = .invalidTarget found.description := by
  refine ⟨withContext_succeeds_iff context value, fun _ => withContext_eq_ok_iff, ?_,
    failsAtFirst context value⟩
  intro out made
  have again : out.withContext context = .ok out := by
    rw [withContext_withContext made, made]
  exact ⟨again, withContext_withContext made⟩

/-- A tuple of a starred name and a list of a member and a subscript, each used in the context. -/
def nestedTarget (context : Context) : Expr :=
  .tuple
    [.starred (.name "a" context) context,
      .list [.attribute (.name "b" .load) "c" context,
        .subscript (.name "d" .load) (.index (.name "e" .load)) context] context]
    context

/-- A nested target is stored to and then deleted. In another tuple a call is the first expression
that can be no target: the text in the index before it is not reached, and the other text comes
later. -/
theorem withContext_exact_of_nested :
    (nestedTarget .load).withContext .store = .ok (nestedTarget .store) ∧
      (nestedTarget .store).withContext .store = .ok (nestedTarget .store) ∧
      (nestedTarget .store).withContext .del = (nestedTarget .load).withContext .del ∧
      (Expr.tuple
        [.subscript (.name "a" .load) (.index (.str "b")) .load,
          .list [.name "c" .load, .call (.name "d" .load) [] []] .load, .str "e"]
        .load).withContext .store = .error (.invalidTarget "function call") := by
  have made : (nestedTarget .load).withContext .store = .ok (nestedTarget .store) := rfl
  obtain ⟨again, further⟩ := (withContext_exact _ _).2.2.1 _ made
  exact ⟨made, again, further .del, ((withContext_exact _ _).2.2.2 _).2 ⟨_, rfl, rfl⟩⟩

end results

end Expr

end Offside
