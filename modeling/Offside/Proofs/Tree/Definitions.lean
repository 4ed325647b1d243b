import Offside.Proofs.Tree.Lines

/-!
# Definitions in a tree

The definitions of functions and classes that statements hold, at every depth and in the order in
which the text of a tree shows them: each before those in its body.
-/
namespace Offside

mutual

/-- The definitions at or below a statement. -/
def Stmt.definitions : Stmt → List Stmt
  | stmt@(.functionDef _ _ _ body _ _ _) => stmt :: bodyDefinitions body
  | stmt@(.classDef _ _ _ body _ _) => stmt :: bodyDefinitions body
  | .forLoop _ _ _ body orelse => bodyDefinitions body ++ bodyDefinitions orelse
  | .whileLoop _ body orelse => bodyDefinitions body ++ bodyDefinitions orelse
  | .ifElse _ body orelse => bodyDefinitions body ++ bodyDefinitions orelse
  | .withItems _ _ body => bodyDefinitions body
  | .tryExcept body handlers orelse final =>
    bodyDefinitions body ++ handlerDefinitions handlers ++ bodyDefinitions orelse ++
      bodyDefinitions final
  | .returnValue _ | .delete _ | .assign .. | .augAssign .. | .annAssign .. | .raise ..
  | .assert .. | .importModules _ | .importFrom .. | .globals _ | .nonlocals _ | .expr _ | .pass
  | .breakLoop | .continueLoop => []

/-- The definitions in a handler. -/
def ExceptHandler.definitions : ExceptHandler → List Stmt
  | ⟨_, _, body⟩ => bodyDefinitions body

/-- The definitions in statements. -/
def bodyDefinitions : List Stmt → List Stmt
  | [] => []
  | stmt :: rest => stmt.definitions ++ bodyDefinitions rest

/-- The definitions in handlers. -/
def handlerDefinitions : List ExceptHandler → List Stmt
  | [] => []
  | handler :: rest => handler.definitions ++ handlerDefinitions rest

end

/-- The decorators of a definition. -/
def Stmt.decorators : Stmt → List Expr
  | .functionDef _ _ _ _ decorators _ _ | .classDef _ _ _ _ decorators _ => decorators
  | _ => []

/-- The definitions in statements are those in each of them. -/
theorem bodyDefinitions_eq_flatMap (body : List Stmt) :
    bodyDefinitions body = body.flatMap Stmt.definitions := by
  induction body with
  | nil => rfl
  | cons stmt rest ih => rw [bodyDefinitions, ih, List.flatMap_cons]

/-- Statements in order hold their definitions in order. -/
@[simp] theorem bodyDefinitions_append (front back : List Stmt) :
    bodyDefinitions (front ++ back) = bodyDefinitions front ++ bodyDefinitions back := by
  simp only [bodyDefinitions_eq_flatMap, List.flatMap_append]

/-- The definitions in one statement alone. -/
@[simp] theorem bodyDefinitions_singleton (stmt : Stmt) :
    bodyDefinitions [stmt] = stmt.definitions := by
  rw [bodyDefinitions_eq_flatMap, List.flatMap_singleton]

/-- The definitions in handlers are those in each of them. -/
theorem handlerDefinitions_eq_flatMap (handlers : List ExceptHandler) :
    handlerDefinitions handlers = handlers.flatMap ExceptHandler.definitions := by
  induction handlers with
  | nil => rfl
  | cons handler rest ih => rw [handlerDefinitions, ih, List.flatMap_cons]

/-- A handler behind others holds its definitions behind theirs. -/
@[simp] theorem handlerDefinitions_concat (handlers : List ExceptHandler)
    (handler : ExceptHandler) :
    handlerDefinitions (handlers ++ [handler]) =
      handlerDefinitions handlers ++ bodyDefinitions handler.body := by
  rw [handlerDefinitions_eq_flatMap, handlerDefinitions_eq_flatMap, List.flatMap_append,
    List.flatMap_singleton]
  cases handler
  rfl

section

variable (move : Nat → Nat)

mutual

/-- A statement without definitions stays as it is, wherever lines are moved. -/
theorem Stmt.moveLines_of_definitions (stmt : Stmt) (none_ : stmt.definitions = []) :
    stmt.moveLines move = stmt := by
  cases stmt with
  | functionDef | classDef => exact absurd none_ (List.cons_ne_nil _ _)
  | withItems _ _ body =>
    rw [Stmt.moveLines, moveBody_of_definitions body none_]
  | forLoop _ _ _ body orelse | whileLoop _ body orelse | ifElse _ body orelse =>
    obtain ⟨first, second⟩ := List.append_eq_nil_iff.1 none_
    rw [Stmt.moveLines, moveBody_of_definitions body first, moveBody_of_definitions orelse second]
  | tryExcept body handlers orelse final =>
    simp only [Stmt.definitions, List.append_eq_nil_iff] at none_
    obtain ⟨⟨⟨first, handled⟩, second⟩, last⟩ := none_
    rw [Stmt.moveLines, moveBody_of_definitions body first,
      moveHandlers_of_definitions handlers handled, moveBody_of_definitions orelse second,
      moveBody_of_definitions final last]
  | _ => rfl

/-- A handler without definitions stays as it is, wherever lines are moved. -/
theorem ExceptHandler.moveLines_of_definitions (handler : ExceptHandler)
    (none_ : handler.definitions = []) : handler.moveLines move = handler := by
  cases handler with
  | mk type name body => rw [ExceptHandler.moveLines, moveBody_of_definitions body none_]

/-- Statements without definitions stay as they are, wherever lines are moved. -/
theorem moveBody_of_definitions (body : List Stmt) (none_ : bodyDefinitions body = []) :
    moveBody move body = body := by
  cases body with
  | nil => rfl
  | cons stmt rest =>
    obtain ⟨first, later⟩ := List.append_eq_nil_iff.1 none_
    rw [moveBody, Stmt.moveLines_of_definitions stmt first, moveBody_of_definitions rest later]

/-- Handlers without definitions stay as they are, wherever lines are moved. -/
theorem moveHandlers_of_definitions (handlers : List ExceptHandler)
    (none_ : handlerDefinitions handlers = []) : moveHandlers move handlers = handlers := by
  cases handlers with
  | nil => rfl
  | cons handler rest =>
    obtain ⟨first, later⟩ := List.append_eq_nil_iff.1 none_
    rw [moveHandlers, ExceptHandler.moveLines_of_definitions handler first,
      moveHandlers_of_definitions rest later]

end

end

/-- The definitions in choices, each of which stands where the one before it does not hold. -/
theorem bodyDefinitions_choices (others : List (Expr × List Stmt)) (last : List Stmt) :
    bodyDefinitions (others.foldr (fun (test, body) orelse => [.ifElse test body orelse]) last) =
      others.flatMap (fun other => bodyDefinitions other.2) ++ bodyDefinitions last := by
  induction others with
  | nil => rfl
  | cons other others ih =>
    rw [List.foldr_cons, bodyDefinitions_singleton, Stmt.definitions, ih, List.flatMap_cons,
      List.append_assoc]

end Offside
