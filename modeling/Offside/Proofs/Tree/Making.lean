import Mathlib.Data.List.Forall2
import Offside.Grammar.Infix

/-!
# Making parts of a tree

What is made of parts that have been read. A target is made of a value: a rule for relations
between the two says all that `Expr.withContext` does (`Expr.withContext_related`). A slice is
made of dimensions in one of three ways (`Slice.ofDimensions_cases`).
-/
namespace Offside

/-- What relates values to the targets that are made of them: it holds of names, members and
subscripts, and it passes from what a star, a list or a tuple holds to the whole. -/
structure Expr.RelatesTargets (context : Context) (related : Expr → Expr → Prop) : Prop where
  /-- A name. -/
  name : ∀ id found, related (.name id found) (.name id context)
  /-- A member. -/
  member : ∀ value id found, related (.attribute value id found) (.attribute value id context)
  /-- A subscript. -/
  subscript : ∀ value slice found,
    related (.subscript value slice found) (.subscript value slice context)
  /-- A starred target. -/
  starred : ∀ value target found, related value target →
    related (.starred value found) (.starred target context)
  /-- A list of targets. -/
  list : ∀ values targets found, List.Forall₂ related values targets →
    related (.list values found) (.list targets context)
  /-- A tuple of targets. -/
  tuple : ∀ values targets found, List.Forall₂ related values targets →
    related (.tuple values found) (.tuple targets context)

mutual

/-- A value is related to the target that is made of it. -/
theorem Expr.withContext_related {context : Context} {related : Expr → Expr → Prop}
    (relates : Expr.RelatesTargets context related) :
    ∀ {value out : Expr}, value.withContext context = .ok out → related value out
  | .name id found, _, made => by
    obtain rfl := Except.ok.inj made
    exact relates.name id found
  | .attribute value id found, _, made => by
    obtain rfl := Except.ok.inj made
    exact relates.member value id found
  | .subscript value slice found, _, made => by
    obtain rfl := Except.ok.inj made
    exact relates.subscript value slice found
  | .starred value found, out, made => by
    cases inside : value.withContext context with
    | error cause =>
      rw [Expr.withContext, inside] at made
      contradiction
    | ok target =>
      rw [Expr.withContext, inside] at made
      obtain rfl := Except.ok.inj made
      exact relates.starred value target found (Expr.withContext_related relates inside)
  | .list elements found, out, made => by
    cases inside : withContexts context elements with
    | error cause =>
      rw [Expr.withContext, inside] at made
      contradiction
    | ok targets =>
      rw [Expr.withContext, inside] at made
      obtain rfl := Except.ok.inj made
      exact relates.list elements targets found (withContexts_related relates inside)
  | .tuple elements found, out, made => by
    cases inside : withContexts context elements with
    | error cause =>
      rw [Expr.withContext, inside] at made
      contradiction
    | ok targets =>
      rw [Expr.withContext, inside] at made
      obtain rfl := Except.ok.inj made
      exact relates.tuple elements targets found (withContexts_related relates inside)
  | .boolOp .., _, made | .binOp .., _, made | .unaryOp .., _, made | .lambda .., _, made
  | .ifExp .., _, made | .dict .., _, made | .set .., _, made | .listComp .., _, made
  | .setComp .., _, made | .dictComp .., _, made | .generator .., _, made | .await .., _, made
  | .yield .., _, made | .yieldFrom .., _, made | .compare .., _, made | .call .., _, made
  | .num .., _, made | .str .., _, made | .bytes .., _, made | .constant .., _, made
  | .ellipsis, _, made => nomatch made

/-- Values are related, one by one, to the targets that are made of them. -/
theorem withContexts_related {context : Context} {related : Expr → Expr → Prop}
    (relates : Expr.RelatesTargets context related) :
    ∀ {values out : List Expr}, withContexts context values = .ok out →
      List.Forall₂ related values out
  | [], _, made => by
    obtain rfl := Except.ok.inj made
    exact .nil
  | value :: rest, out, made => by
    cases first : value.withContext context with
    | error cause =>
      rw [withContexts, first] at made
      contradiction
    | ok target =>
      cases others : withContexts context rest with
      | error cause =>
        rw [withContexts, first, others] at made
        contradiction
      | ok targets =>
        rw [withContexts, first, others] at made
        obtain rfl := Except.ok.inj made
        exact .cons (Expr.withContext_related relates first) (withContexts_related relates others)

end

/-- Slices that all are indexes, and the values of these. -/
theorem Slice.eq_of_indexes {slices : List Slice} {values : List Expr}
    (indexes : slices.mapM Slice.index? = some values) : slices = values.map .index := by
  induction slices generalizing values with
  | nil =>
    obtain rfl := Option.some.inj indexes
    rfl
  | cons slice rest ih =>
    rw [List.mapM_cons] at indexes
    obtain ⟨value, first, indexes⟩ := Option.bind_eq_some_iff.1 indexes
    obtain ⟨others, later, same⟩ := Option.bind_eq_some_iff.1 indexes
    obtain rfl := Option.some.inj same
    cases slice with
    | index index =>
      obtain rfl := Option.some.inj first
      rw [List.map_cons, ih later]
    | range | dimensions => contradiction

/-- Among slices that not all are indexes there is one that is none. -/
theorem Slice.exists_of_indexes {slices : List Slice}
    (indexes : slices.mapM Slice.index? = none) : ∃ slice ∈ slices, slice.index? = none := by
  induction slices with
  | nil => contradiction
  | cons slice rest ih =>
    cases here : slice.index? with
    | none => exact ⟨slice, List.mem_cons_self, here⟩
    | some value =>
      cases later : rest.mapM Slice.index? with
      | none =>
        obtain ⟨found, member, other⟩ := ih later
        exact ⟨found, List.mem_cons_of_mem slice member, other⟩
      | some values =>
        rw [List.mapM_cons, here, later] at indexes
        contradiction

/-- The slice of dimensions is the only one of them, an index that is the tuple of their indexes,
or all of them, where one is no index. -/
theorem Slice.ofDimensions_cases (found : List Slice) (commas : Bool) :
    (∃ slice, found = [slice] ∧ Slice.ofDimensions found commas = slice) ∨
    (∃ values, found = values.map .index ∧
      Slice.ofDimensions found commas = .index (.tuple values .load)) ∨
    (∃ slice ∈ found, slice.index? = none) ∧
      Slice.ofDimensions found commas = .dimensions found := by
  unfold Slice.ofDimensions
  split
  · exact .inl ⟨_, rfl, rfl⟩
  · split
    · rename_i values indexes
      exact .inr (.inl ⟨values, eq_of_indexes indexes, rfl⟩)
    · rename_i indexes
      exact .inr (.inr ⟨exists_of_indexes indexes, rfl⟩)

end Offside
