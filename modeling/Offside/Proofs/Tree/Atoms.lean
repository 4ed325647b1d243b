import Offside.Proofs.Expression.Written
import Offside.Proofs.Tree.Making

/-!
# Atoms of a tree

The atoms of a tree are its words and its numbers. A word is a name, a member, a parameter or what
is defined, declared or imported; the dotted name of a module has one word for each of its parts.
The atoms are listed with repetitions, in the order of the fields.
-/
namespace Offside

/-- A word or a number of a tree. -/
inductive Atom where
  /-- A word. -/
  | word (text : String)
  /-- A number. -/
  | number (value : Number)
  deriving DecidableEq

/-- The atom is a number, or a word that is a name. -/
def Atom.isKept : Atom → Bool
  | .word text => isIdentifier text
  | .number _ => true

/-- The words between the points of a name, as they are written. -/
def dottedWords (name : String) : List String :=
  (name.toList.splitOn '.').map String.ofList

/-- The words between the points of a name. -/
def dottedAtoms (name : String) : List Atom :=
  (name.toList.splitOn '.').map fun part => .word (String.ofList part)

/-- The word of a name that may be missing. -/
@[simp] def wordAtoms (word : Option String) : List Atom :=
  word.toList.map .word

mutual

/-- The atoms of an expression. -/
@[simp] def Expr.atoms : Expr → List Atom
  | .boolOp _ values => exprAtoms values
  | .binOp left _ right => left.atoms ++ right.atoms
  | .unaryOp _ operand => operand.atoms
  | .lambda parameters body => parameters.atoms ++ body.atoms
  | .ifExp test body orelse => test.atoms ++ body.atoms ++ orelse.atoms
  | .dict keys values => keyAtoms keys ++ exprAtoms values
  | .set elements => exprAtoms elements
  | .listComp element clauses => element.atoms ++ clauseAtoms clauses
  | .setComp element clauses => element.atoms ++ clauseAtoms clauses
  | .dictComp key value clauses => key.atoms ++ value.atoms ++ clauseAtoms clauses
  | .generator element clauses => element.atoms ++ clauseAtoms clauses
  | .await value => value.atoms
  | .yield value => optionalAtoms value
  | .yieldFrom value => value.atoms
  | .compare left _ comparators => left.atoms ++ exprAtoms comparators
  | .call function arguments keywords =>
    function.atoms ++ exprAtoms arguments ++ keywordAtoms keywords
  | .num value => [.number value]
  | .str _ | .bytes _ | .constant _ | .ellipsis => []
  | .attribute value name _ => value.atoms ++ [.word name]
  | .subscript value slice _ => value.atoms ++ slice.atoms
  | .starred value _ => value.atoms
  | .name id _ => [.word id]
  | .list elements _ => exprAtoms elements
  | .tuple elements _ => exprAtoms elements

/-- The atoms of a slice. -/
@[simp] def Slice.atoms : Slice → List Atom
  | .range lower upper step => optionalAtoms lower ++ optionalAtoms upper ++ optionalAtoms step
  | .dimensions slices => sliceAtoms slices
  | .index value => value.atoms

/-- The atoms of parameters. -/
def Arguments.atoms : Arguments → List Atom
  | ⟨args, vararg, kwonlyargs, kwDefaults, kwarg, defaults⟩ =>
    argAtoms args ++ optionalArgAtoms vararg ++ argAtoms kwonlyargs ++ keyAtoms kwDefaults ++
      optionalArgAtoms kwarg ++ exprAtoms defaults

/-- The atoms of a parameter. -/
@[simp] def Arg.atoms : Arg → List Atom
  | ⟨name, annotation⟩ => .word name :: optionalAtoms annotation

/-- The atoms of a named argument. -/
@[simp] def Keyword.atoms : Keyword → List Atom
  | ⟨name, value⟩ => wordAtoms name ++ value.atoms

/-- The atoms of a clause. -/
@[simp] def Comprehension.atoms : Comprehension → List Atom
  | ⟨target, iter, conditions, _⟩ => target.atoms ++ iter.atoms ++ exprAtoms conditions

/-- The atoms of expressions. -/
def exprAtoms : List Expr → List Atom
  | [] => []
  | value :: rest => value.atoms ++ exprAtoms rest

/-- The atoms of an expression that may be missing. -/
@[simp] def optionalAtoms : Option Expr → List Atom
  | none => []
  | some value => value.atoms

/-- The atoms of expressions that may be missing. -/
def keyAtoms : List (Option Expr) → List Atom
  | [] => []
  | value :: rest => optionalAtoms value ++ keyAtoms rest

/-- The atoms of slices. -/
def sliceAtoms : List Slice → List Atom
  | [] => []
  | slice :: rest => slice.atoms ++ sliceAtoms rest

/-- The atoms of several parameters. -/
def argAtoms : List Arg → List Atom
  | [] => []
  | arg :: rest => arg.atoms ++ argAtoms rest

/-- The atoms of a parameter that may be missing. -/
@[simp] def optionalArgAtoms : Option Arg → List Atom
  | none => []
  | some arg => arg.atoms

/-- The atoms of named arguments. -/
def keywordAtoms : List Keyword → List Atom
  | [] => []
  | keyword :: rest => keyword.atoms ++ keywordAtoms rest

/-- The atoms of clauses. -/
def clauseAtoms : List Comprehension → List Atom
  | [] => []
  | clause :: rest => clause.atoms ++ clauseAtoms rest

end

/-- The atoms of an imported name. -/
@[simp] def Alias.atoms (imported : Alias) : List Atom :=
  dottedAtoms imported.name ++ wordAtoms imported.asname

/-- The atoms of a context of a with statement. -/
@[simp] def WithItem.atoms (item : WithItem) : List Atom :=
  item.context.atoms ++ optionalAtoms item.target

mutual

/-- The atoms of a statement. -/
@[simp] def Stmt.atoms : Stmt → List Atom
  | .functionDef _ name parameters body decorators returns _ =>
    .word name :: (parameters.atoms ++ stmtAtoms body ++ exprAtoms decorators ++
      optionalAtoms returns)
  | .classDef name bases keywords body decorators _ =>
    .word name :: (exprAtoms bases ++ keywordAtoms keywords ++ stmtAtoms body ++
      exprAtoms decorators)
  | .returnValue value => optionalAtoms value
  | .delete targets => exprAtoms targets
  | .assign targets value => exprAtoms targets ++ value.atoms
  | .augAssign target _ value => target.atoms ++ value.atoms
  | .annAssign target annotation value _ =>
    target.atoms ++ annotation.atoms ++ optionalAtoms value
  | .forLoop _ target iter body orelse =>
    target.atoms ++ iter.atoms ++ stmtAtoms body ++ stmtAtoms orelse
  | .whileLoop test body orelse => test.atoms ++ stmtAtoms body ++ stmtAtoms orelse
  | .ifElse test body orelse => test.atoms ++ stmtAtoms body ++ stmtAtoms orelse
  | .withItems _ items body => items.flatMap WithItem.atoms ++ stmtAtoms body
  | .raise exception cause => optionalAtoms exception ++ optionalAtoms cause
  | .tryExcept body handlers orelse final =>
    stmtAtoms body ++ handlerAtoms handlers ++ stmtAtoms orelse ++ stmtAtoms final
  | .assert test message => test.atoms ++ optionalAtoms message
  | .importModules names => names.flatMap Alias.atoms
  | .importFrom module names _ =>
    (module.elim [] dottedAtoms) ++ names.flatMap Alias.atoms
  | .globals names => names.map .word
  | .nonlocals names => names.map .word
  | .expr value => value.atoms
  | .pass | .breakLoop | .continueLoop => []

/-- The atoms of a handler. -/
@[simp] def ExceptHandler.atoms : ExceptHandler → List Atom
  | ⟨type, name, body⟩ => optionalAtoms type ++ wordAtoms name ++ stmtAtoms body

/-- The atoms of statements. -/
def stmtAtoms : List Stmt → List Atom
  | [] => []
  | stmt :: rest => stmt.atoms ++ stmtAtoms rest

/-- The atoms of handlers. -/
def handlerAtoms : List ExceptHandler → List Atom
  | [] => []
  | handler :: rest => handler.atoms ++ handlerAtoms rest

end

/-- The atoms of a tree. -/
@[simp] def Root.atoms : Root → List Atom
  | .module body => stmtAtoms body
  | .interactive body => stmtAtoms body
  | .expression body => body.atoms

/-- The parts of two names around a point are those of the names. -/
@[simp] theorem dottedWords_append (first second : String) :
    dottedWords (first ++ "." ++ second) = dottedWords first ++ dottedWords second := by
  have parts : (first ++ "." ++ second).toList = first.toList ++ '.' :: second.toList := by
    simp [String.toList_append]
  rw [dottedWords, parts, List.splitOn_append_cons_self, List.map_append]
  rfl

/-- A name without points is its only part. -/
theorem dottedWords_of_plain {name : String} (plain : '.' ∉ name.toList) :
    dottedWords name = [name] := by
  rw [dottedWords, List.splitOn_eq_singleton plain, List.map_singleton, String.ofList_toList]

/-- The atoms of a name are its parts. -/
theorem dottedAtoms_eq (name : String) : dottedAtoms name = (dottedWords name).map .word := by
  rw [dottedAtoms, dottedWords, List.map_map]
  rfl

/-- The atoms of two names around a point are those of the names. -/
@[simp] theorem dottedAtoms_append (first second : String) :
    dottedAtoms (first ++ "." ++ second) = dottedAtoms first ++ dottedAtoms second := by
  simp only [dottedAtoms_eq, dottedWords_append, List.map_append]

/-- A name without points is its only atom. -/
theorem dottedAtoms_of_plain {name : String} (plain : '.' ∉ name.toList) :
    dottedAtoms name = [.word name] := by
  rw [dottedAtoms_eq, dottedWords_of_plain plain, List.map_singleton]

/-- Atoms that are listed one value at a time are those of each value. -/
theorem atoms_eq_flatMap {α : Type} {atoms : α → List Atom} {all : List α → List Atom}
    (none_ : all [] = []) (more : ∀ value rest, all (value :: rest) = atoms value ++ all rest)
    (values : List α) : all values = values.flatMap atoms := by
  induction values with
  | nil => exact none_
  | cons value rest ih => rw [more, ih, List.flatMap_cons]

/-- The atoms of expressions are those of each. -/
@[simp] theorem exprAtoms_eq (values : List Expr) : exprAtoms values = values.flatMap Expr.atoms :=
  atoms_eq_flatMap rfl (fun _ _ => rfl) values

/-- The atoms of expressions that may be missing are those of each. -/
@[simp] theorem keyAtoms_eq (values : List (Option Expr)) :
    keyAtoms values = values.flatMap optionalAtoms :=
  atoms_eq_flatMap rfl (fun _ _ => rfl) values

/-- The atoms of slices are those of each. -/
@[simp] theorem sliceAtoms_eq (slices : List Slice) :
    sliceAtoms slices = slices.flatMap Slice.atoms :=
  atoms_eq_flatMap rfl (fun _ _ => rfl) slices

/-- The atoms of several parameters are those of each. -/
@[simp] theorem argAtoms_eq (args : List Arg) : argAtoms args = args.flatMap Arg.atoms :=
  atoms_eq_flatMap rfl (fun _ _ => rfl) args

/-- The atoms of named arguments are those of each. -/
@[simp] theorem keywordAtoms_eq (keywords : List Keyword) :
    keywordAtoms keywords = keywords.flatMap Keyword.atoms :=
  atoms_eq_flatMap rfl (fun _ _ => rfl) keywords

/-- The atoms of clauses are those of each. -/
@[simp] theorem clauseAtoms_eq (clauses : List Comprehension) :
    clauseAtoms clauses = clauses.flatMap Comprehension.atoms :=
  atoms_eq_flatMap rfl (fun _ _ => rfl) clauses

/-- The atoms of statements are those of each. -/
@[simp] theorem stmtAtoms_eq (body : List Stmt) : stmtAtoms body = body.flatMap Stmt.atoms :=
  atoms_eq_flatMap rfl (fun _ _ => rfl) body

/-- The atoms of handlers are those of each. -/
@[simp] theorem handlerAtoms_eq (handlers : List ExceptHandler) :
    handlerAtoms handlers = handlers.flatMap ExceptHandler.atoms :=
  atoms_eq_flatMap rfl (fun _ _ => rfl) handlers

/-- A target has the atoms of its expression. -/
theorem Expr.withContext_atoms {context : Context} {value out : Expr}
    (made : value.withContext context = .ok out) : out.atoms = value.atoms := by
  have several {values targets : List Expr}
      (each : List.Forall₂ (fun value out => out.atoms = value.atoms) values targets) :
      exprAtoms targets = exprAtoms values := by
    induction each with
    | nil => rfl
    | cons first _ ih => rw [exprAtoms, exprAtoms, first, ih]
  have relates : Expr.RelatesTargets context fun value out => out.atoms = value.atoms :=
    { name := fun _ _ => rfl
      member := fun _ _ _ => rfl
      subscript := fun _ _ _ => rfl
      starred := fun _ _ _ inside => inside
      list := fun _ _ _ each => several each
      tuple := fun _ _ _ each => several each }
  exact Expr.withContext_related relates made

/-- The slice of dimensions has their atoms. -/
@[simp] theorem Slice.ofDimensions_atoms (found : List Slice) (commas : Bool) :
    (Slice.ofDimensions found commas).atoms = sliceAtoms found := by
  rcases Slice.ofDimensions_cases found commas with ⟨slice, rfl, made⟩ | ⟨values, rfl, made⟩ | ⟨-, made⟩
  · rw [made, sliceAtoms_eq, List.flatMap_singleton]
  · rw [made]
    simp [Slice.atoms, Expr.atoms, List.flatMap_map]
  · rw [made, Slice.atoms]

end Offside
