import Offside.Tree

/-!
# Lines of a tree

The lines that a tree holds are those of its definitions. `Stmt.moveLines` moves all of them and
changes nothing else.
-/
namespace Offside

mutual

/-- A statement with the lines of all definitions in it moved. -/
def Stmt.moveLines (move : Nat → Nat) : Stmt → Stmt
  | .functionDef isAsync name parameters body decorators returns line =>
    .functionDef isAsync name parameters (moveBody move body) decorators returns (move line)
  | .classDef name bases keywords body decorators line =>
    .classDef name bases keywords (moveBody move body) decorators (move line)
  | .forLoop isAsync target iter body orelse =>
    .forLoop isAsync target iter (moveBody move body) (moveBody move orelse)
  | .whileLoop test body orelse => .whileLoop test (moveBody move body) (moveBody move orelse)
  | .ifElse test body orelse => .ifElse test (moveBody move body) (moveBody move orelse)
  | .withItems isAsync items body => .withItems isAsync items (moveBody move body)
  | .tryExcept body handlers orelse final =>
    .tryExcept (moveBody move body) (moveHandlers move handlers) (moveBody move orelse)
      (moveBody move final)
  | .returnValue value => .returnValue value
  | .delete targets => .delete targets
  | .assign targets value => .assign targets value
  | .augAssign target operator value => .augAssign target operator value
  | .annAssign target annotation value simple => .annAssign target annotation value simple
  | .raise exception cause => .raise exception cause
  | .assert test message => .assert test message
  | .importModules names => .importModules names
  | .importFrom module names level => .importFrom module names level
  | .globals names => .globals names
  | .nonlocals names => .nonlocals names
  | .expr value => .expr value
  | .pass => .pass
  | .breakLoop => .breakLoop
  | .continueLoop => .continueLoop

/-- A handler with the lines of all definitions in it moved. -/
def ExceptHandler.moveLines (move : Nat → Nat) : ExceptHandler → ExceptHandler
  | ⟨type, name, body⟩ => ⟨type, name, moveBody move body⟩

/-- Statements with the lines of all definitions in them moved. -/
def moveBody (move : Nat → Nat) : List Stmt → List Stmt
  | [] => []
  | stmt :: rest => stmt.moveLines move :: moveBody move rest

/-- Handlers with the lines of all definitions in them moved. -/
def moveHandlers (move : Nat → Nat) : List ExceptHandler → List ExceptHandler
  | [] => []
  | handler :: rest => handler.moveLines move :: moveHandlers move rest

end

/-- A tree with the lines of all definitions in it moved. -/
def Root.moveLines (move : Nat → Nat) : Root → Root
  | .module body => .module (moveBody move body)
  | .interactive body => .interactive (moveBody move body)
  | .expression body => .expression body

variable (move : Nat → Nat)

/-- Each statement is moved. -/
theorem moveBody_eq_map (body : List Stmt) : moveBody move body = body.map (Stmt.moveLines move) := by
  induction body with
  | nil => rfl
  | cons stmt rest ih => rw [moveBody, ih, List.map_cons]

/-- Statements in order are moved in order. -/
@[simp] theorem moveBody_append (front back : List Stmt) :
    moveBody move (front ++ back) = moveBody move front ++ moveBody move back := by
  rw [moveBody_eq_map, moveBody_eq_map, moveBody_eq_map, List.map_append]

/-- Each handler is moved. -/
theorem moveHandlers_eq_map (handlers : List ExceptHandler) :
    moveHandlers move handlers = handlers.map (ExceptHandler.moveLines move) := by
  induction handlers with
  | nil => rfl
  | cons handler rest ih => rw [moveHandlers, ih, List.map_cons]

/-- Handlers in order are moved in order. -/
@[simp] theorem moveHandlers_append (front back : List ExceptHandler) :
    moveHandlers move (front ++ back) = moveHandlers move front ++ moveHandlers move back := by
  rw [moveHandlers_eq_map, moveHandlers_eq_map, moveHandlers_eq_map, List.map_append]

mutual

/-- A statement whose lines stay where they are is unchanged. -/
theorem Stmt.moveLines_id (stmt : Stmt) : stmt.moveLines id = stmt := by
  cases stmt with
  | functionDef _ _ _ body | classDef _ _ _ body | withItems _ _ body =>
    simp only [Stmt.moveLines, id_eq, moveBody_id body]
  | forLoop _ _ _ body orelse | whileLoop _ body orelse | ifElse _ body orelse =>
    simp only [Stmt.moveLines, moveBody_id body, moveBody_id orelse]
  | tryExcept body handlers orelse final =>
    simp only [Stmt.moveLines, moveBody_id body, moveHandlers_id handlers, moveBody_id orelse,
      moveBody_id final]
  | _ => rfl

/-- A handler whose lines stay where they are is unchanged. -/
theorem ExceptHandler.moveLines_id (handler : ExceptHandler) : handler.moveLines id = handler := by
  cases handler with
  | mk type name body => simp only [ExceptHandler.moveLines, moveBody_id body]

/-- Statements whose lines stay where they are are unchanged. -/
theorem moveBody_id (body : List Stmt) : moveBody id body = body := by
  cases body with
  | nil => rfl
  | cons stmt rest => simp only [moveBody, Stmt.moveLines_id stmt, moveBody_id rest]

/-- Handlers whose lines stay where they are are unchanged. -/
theorem moveHandlers_id (handlers : List ExceptHandler) : moveHandlers id handlers = handlers := by
  cases handlers with
  | nil => rfl
  | cons handler rest =>
    simp only [moveHandlers, ExceptHandler.moveLines_id handler, moveHandlers_id rest]

end

/-- A tree whose lines stay where they are is unchanged. -/
theorem Root.moveLines_id (root : Root) : root.moveLines id = root := by
  cases root with
  | module body | interactive body => rw [Root.moveLines, moveBody_id]
  | expression body => rfl

end Offside
