import Offside.Proofs.Tree.Atoms
import Offside.Proofs.Tree.Lines
import Offside.Tree.Target

/-!
# Relabeling a tree

A renaming gives each identifier another one and leaves all other words alone (`Renaming`). A tree
is relabeled by renaming each word in it that names something: names, members, parameters, named
arguments, and what is defined, declared or imported, where each part of a dotted name is a word of
its own (`Root.relabel`). What is built of trees and what is asked of them does not depend on the
words: slices of dimensions, targets and the lines of definitions.
-/
namespace Offside

/-- A way to rename: identifiers become identifiers, and all other words stay as they are. Two
identifiers may get the same name. -/
structure Renaming where
  /-- The new word. -/
  word : String → String
  /-- An identifier becomes one. -/
  keeps (text : String) (named : isIdentifier text = true) : isIdentifier (word text) = true
  /-- Other words stay. -/
  fixes (text : String) (other : isIdentifier text = false) : word text = text

/-- The renaming that changes nothing. -/
def Renaming.none : Renaming := ⟨id, fun _ named => named, fun _ _ => rfl⟩

/-- A new word is an identifier just if the old one was. -/
theorem Renaming.isIdentifier_word (rename : Renaming) (text : String) :
    isIdentifier (rename.word text) = isIdentifier text := by
  cases named : isIdentifier text with
  | true => exact rename.keeps text named
  | false => rw [rename.fixes text named, named]

/-- A word that is no identifier is the new word of itself alone. -/
theorem Renaming.word_eq_iff (rename : Renaming) {text fixed : String}
    (other : isIdentifier fixed = false) : rename.word text = fixed ↔ text = fixed := by
  constructor
  · intro same
    have named := rename.isIdentifier_word text
    rw [same, other] at named
    rw [← same, rename.fixes text named.symm]
  · intro same
    rw [same, rename.fixes fixed other]

/-- A dotted name with each of its parts renamed. -/
def mapDotted (word : String → String) (name : String) : String :=
  ".".intercalate ((dottedWords name).map word)

mutual

/-- An expression with each word in it renamed. -/
def Expr.relabel (word : String → String) : Expr → Expr
  | .boolOp operator values => .boolOp operator (relabelExprs word values)
  | .binOp left operator right => .binOp (left.relabel word) operator (right.relabel word)
  | .unaryOp operator operand => .unaryOp operator (operand.relabel word)
  | .lambda parameters body => .lambda (parameters.relabel word) (body.relabel word)
  | .ifExp test body orelse =>
    .ifExp (test.relabel word) (body.relabel word) (orelse.relabel word)
  | .dict keys values => .dict (relabelKeys word keys) (relabelExprs word values)
  | .set elements => .set (relabelExprs word elements)
  | .listComp element clauses => .listComp (element.relabel word) (relabelClauses word clauses)
  | .setComp element clauses => .setComp (element.relabel word) (relabelClauses word clauses)
  | .dictComp key value clauses =>
    .dictComp (key.relabel word) (value.relabel word) (relabelClauses word clauses)
  | .generator element clauses => .generator (element.relabel word) (relabelClauses word clauses)
  | .await value => .await (value.relabel word)
  | .yield value => .yield (relabelOptional word value)
  | .yieldFrom value => .yieldFrom (value.relabel word)
  | .compare left operators comparators =>
    .compare (left.relabel word) operators (relabelExprs word comparators)
  | .call function arguments keywords =>
    .call (function.relabel word) (relabelExprs word arguments) (relabelKeywords word keywords)
  | .num value => .num value
  | .str value => .str value
  | .bytes value => .bytes value
  | .constant value => .constant value
  | .ellipsis => .ellipsis
  | .attribute value name context => .attribute (value.relabel word) (word name) context
  | .subscript value slice context =>
    .subscript (value.relabel word) (slice.relabel word) context
  | .starred value context => .starred (value.relabel word) context
  | .name id context => .name (word id) context
  | .list elements context => .list (relabelExprs word elements) context
  | .tuple elements context => .tuple (relabelExprs word elements) context

/-- A slice with each word in it renamed. -/
def Slice.relabel (word : String → String) : Slice → Slice
  | .range lower upper step =>
    .range (relabelOptional word lower) (relabelOptional word upper) (relabelOptional word step)
  | .dimensions slices => .dimensions (relabelSlices word slices)
  | .index value => .index (value.relabel word)

/-- Parameters with each word in them renamed. -/
def Arguments.relabel (word : String → String) : Arguments → Arguments
  | ⟨args, vararg, kwonlyargs, kwDefaults, kwarg, defaults⟩ =>
    ⟨relabelArgs word args, relabelOptionalArg word vararg, relabelArgs word kwonlyargs,
      relabelKeys word kwDefaults, relabelOptionalArg word kwarg, relabelExprs word defaults⟩

/-- A parameter with its name and each word in its annotation renamed. -/
def Arg.relabel (word : String → String) : Arg → Arg
  | ⟨name, annotation⟩ => ⟨word name, relabelOptional word annotation⟩

/-- A named argument with its name and each word in its value renamed. -/
def Keyword.relabel (word : String → String) : Keyword → Keyword
  | ⟨name, value⟩ => ⟨name.map word, value.relabel word⟩

/-- A clause with each word in it renamed. -/
def Comprehension.relabel (word : String → String) : Comprehension → Comprehension
  | ⟨target, iter, conditions, isAsync⟩ =>
    ⟨target.relabel word, iter.relabel word, relabelExprs word conditions, isAsync⟩

/-- Expressions with each word in them renamed. -/
def relabelExprs (word : String → String) : List Expr → List Expr
  | [] => []
  | value :: rest => value.relabel word :: relabelExprs word rest

/-- An expression that may be missing with each word in it renamed. -/
def relabelOptional (word : String → String) : Option Expr → Option Expr
  | none => none
  | some value => some (value.relabel word)

/-- Expressions that may be missing with each word in them renamed. -/
def relabelKeys (word : String → String) : List (Option Expr) → List (Option Expr)
  | [] => []
  | value :: rest => relabelOptional word value :: relabelKeys word rest

/-- Slices with each word in them renamed. -/
def relabelSlices (word : String → String) : List Slice → List Slice
  | [] => []
  | slice :: rest => slice.relabel word :: relabelSlices word rest

/-- Several parameters with each word in them renamed. -/
def relabelArgs (word : String → String) : List Arg → List Arg
  | [] => []
  | arg :: rest => arg.relabel word :: relabelArgs word rest

/-- A parameter that may be missing with each word in it renamed. -/
def relabelOptionalArg (word : String → String) : Option Arg → Option Arg
  | none => none
  | some arg => some (arg.relabel word)

/-- Named arguments with each word in them renamed. -/
def relabelKeywords (word : String → String) : List Keyword → List Keyword
  | [] => []
  | keyword :: rest => keyword.relabel word :: relabelKeywords word rest

/-- Clauses with each word in them renamed. -/
def relabelClauses (word : String → String) : List Comprehension → List Comprehension
  | [] => []
  | clause :: rest => clause.relabel word :: relabelClauses word rest

end

/-- An imported name with each of its parts and its other name renamed. -/
def Alias.relabel (word : String → String) (imported : Alias) : Alias :=
  ⟨mapDotted word imported.name, imported.asname.map word⟩

/-- A context of a with statement with each word in it renamed. -/
def WithItem.relabel (word : String → String) (item : WithItem) : WithItem :=
  ⟨item.context.relabel word, relabelOptional word item.target⟩

mutual

/-- A statement with each word in it renamed. -/
def Stmt.relabel (word : String → String) : Stmt → Stmt
  | .functionDef isAsync name parameters body decorators returns line =>
    .functionDef isAsync (word name) (parameters.relabel word) (relabelBody word body)
      (relabelExprs word decorators) (relabelOptional word returns) line
  | .classDef name bases keywords body decorators line =>
    .classDef (word name) (relabelExprs word bases) (relabelKeywords word keywords)
      (relabelBody word body) (relabelExprs word decorators) line
  | .returnValue value => .returnValue (relabelOptional word value)
  | .delete targets => .delete (relabelExprs word targets)
  | .assign targets value => .assign (relabelExprs word targets) (value.relabel word)
  | .augAssign target operator value =>
    .augAssign (target.relabel word) operator (value.relabel word)
  | .annAssign target annotation value simple =>
    .annAssign (target.relabel word) (Expr.relabel word annotation) (relabelOptional word value)
      simple
  | .forLoop isAsync target iter body orelse =>
    .forLoop isAsync (target.relabel word) (iter.relabel word) (relabelBody word body)
      (relabelBody word orelse)
  | .whileLoop test body orelse =>
    .whileLoop (test.relabel word) (relabelBody word body) (relabelBody word orelse)
  | .ifElse test body orelse =>
    .ifElse (test.relabel word) (relabelBody word body) (relabelBody word orelse)
  | .withItems isAsync items body =>
    .withItems isAsync (items.map (WithItem.relabel word)) (relabelBody word body)
  | .raise exception cause => .raise (relabelOptional word exception) (relabelOptional word cause)
  | .tryExcept body handlers orelse final =>
    .tryExcept (relabelBody word body) (relabelHandlers word handlers) (relabelBody word orelse)
      (relabelBody word final)
  | .assert test message => .assert (test.relabel word) (relabelOptional word message)
  | .importModules names => .importModules (names.map (Alias.relabel word))
  | .importFrom module names level =>
    .importFrom (module.map (mapDotted word)) (names.map (Alias.relabel word)) level
  | .globals names => .globals (names.map word)
  | .nonlocals names => .nonlocals (names.map word)
  | .expr value => .expr (value.relabel word)
  | .pass => .pass
  | .breakLoop => .breakLoop
  | .continueLoop => .continueLoop

/-- A handler with each word in it renamed. -/
def ExceptHandler.relabel (word : String → String) : ExceptHandler → ExceptHandler
  | ⟨type, name, body⟩ => ⟨relabelOptional word type, name.map word, relabelBody word body⟩

/-- Statements with each word in them renamed. -/
def relabelBody (word : String → String) : List Stmt → List Stmt
  | [] => []
  | stmt :: rest => stmt.relabel word :: relabelBody word rest

/-- Handlers with each word in them renamed. -/
def relabelHandlers (word : String → String) : List ExceptHandler → List ExceptHandler
  | [] => []
  | handler :: rest => handler.relabel word :: relabelHandlers word rest

end

/-- A tree with each word in it renamed. -/
def Root.relabel (word : String → String) : Root → Root
  | .module body => .module (relabelBody word body)
  | .interactive body => .interactive (relabelBody word body)
  | .expression body => .expression (body.relabel word)

variable (word : String → String)

/-- A name without points is renamed as one word. -/
theorem mapDotted_of_plain {name : String} (plain : '.' ∉ name.toList) :
    mapDotted word name = word name := by
  rw [mapDotted, dottedWords_of_plain plain, List.map_singleton, String.intercalate_singleton]

/-- The parts of two names around a point are renamed by themselves. -/
theorem mapDotted_append (first second : String) :
    mapDotted word (first ++ "." ++ second) =
      mapDotted word first ++ "." ++ mapDotted word second := by
  have some_ (name : String) : (dottedWords name).map word ≠ [] := by
    rw [dottedWords, List.map_map]
    exact mt List.map_eq_nil_iff.1 (List.splitOn_ne_nil _ _)
  rw [mapDotted, dottedWords_append, List.map_append,
    String.intercalate_append_of_ne_nil (some_ first) (some_ second)]
  rfl

section lists

/-- Each expression is relabeled. -/
@[simp] theorem relabelExprs_eq_map (values : List Expr) :
    relabelExprs word values = values.map (Expr.relabel word) := by
  induction values with
  | nil => rfl
  | cons value rest ih => rw [relabelExprs, ih, List.map_cons]

/-- An expression that may be missing is relabeled if it is there. -/
@[simp] theorem relabelOptional_eq_map (value : Option Expr) :
    relabelOptional word value = value.map (Expr.relabel word) := by
  cases value <;> rfl

/-- Each expression that may be missing is relabeled if it is there. -/
@[simp] theorem relabelKeys_eq_map (values : List (Option Expr)) :
    relabelKeys word values = values.map (Option.map (Expr.relabel word)) := by
  induction values with
  | nil => rfl
  | cons value rest ih => rw [relabelKeys, relabelOptional_eq_map, ih, List.map_cons]

/-- Each slice is relabeled. -/
@[simp] theorem relabelSlices_eq_map (slices : List Slice) :
    relabelSlices word slices = slices.map (Slice.relabel word) := by
  induction slices with
  | nil => rfl
  | cons slice rest ih => rw [relabelSlices, ih, List.map_cons]

/-- Each parameter is relabeled. -/
@[simp] theorem relabelArgs_eq_map (args : List Arg) :
    relabelArgs word args = args.map (Arg.relabel word) := by
  induction args with
  | nil => rfl
  | cons arg rest ih => rw [relabelArgs, ih, List.map_cons]

/-- A parameter that may be missing is relabeled if it is there. -/
@[simp] theorem relabelOptionalArg_eq_map (arg : Option Arg) :
    relabelOptionalArg word arg = arg.map (Arg.relabel word) := by
  cases arg <;> rfl

/-- Each named argument is relabeled. -/
@[simp] theorem relabelKeywords_eq_map (keywords : List Keyword) :
    relabelKeywords word keywords = keywords.map (Keyword.relabel word) := by
  induction keywords with
  | nil => rfl
  | cons keyword rest ih => rw [relabelKeywords, ih, List.map_cons]

/-- Each clause is relabeled. -/
@[simp] theorem relabelClauses_eq_map (clauses : List Comprehension) :
    relabelClauses word clauses = clauses.map (Comprehension.relabel word) := by
  induction clauses with
  | nil => rfl
  | cons clause rest ih => rw [relabelClauses, ih, List.map_cons]

/-- Each statement is relabeled. -/
@[simp] theorem relabelBody_eq_map (body : List Stmt) :
    relabelBody word body = body.map (Stmt.relabel word) := by
  induction body with
  | nil => rfl
  | cons stmt rest ih => rw [relabelBody, ih, List.map_cons]

end lists

section targets

mutual

/-- An expression is a target just if it is one with other words, and the fault is the same if it
is none. -/
theorem Expr.withContext_relabel (context : Context) (value : Expr) :
    (value.relabel word).withContext context =
      (value.withContext context).map (Expr.relabel word) := by
  cases value with
  | starred value _ =>
    rw [Expr.relabel, Expr.withContext, Expr.withContext, Expr.withContext_relabel context value]
    cases value.withContext context <;> rfl
  | list elements _ | tuple elements _ =>
    rw [Expr.relabel, Expr.withContext, Expr.withContext, withContexts_relabel context elements]
    cases withContexts context elements <;> rfl
  | _ => rfl

/-- Expressions are targets just if they are with other words. -/
theorem withContexts_relabel (context : Context) (values : List Expr) :
    withContexts context (relabelExprs word values) =
      (withContexts context values).map (relabelExprs word) := by
  cases values with
  | nil => rfl
  | cons value rest =>
    rw [relabelExprs, withContexts, withContexts, Expr.withContext_relabel context value,
      withContexts_relabel context rest]
    cases value.withContext context with
    | error cause => rfl
    | ok target => cases withContexts context rest <;> rfl

end

end targets

/-- The slice of dimensions with other words is that of the dimensions. -/
theorem Slice.ofDimensions_relabel (found : List Slice) (commas : Bool) :
    Slice.ofDimensions (relabelSlices word found) commas =
      (Slice.ofDimensions found commas).relabel word := by
  have index (slice : Slice) :
      (slice.relabel word).index? = slice.index?.map (Expr.relabel word) := by
    cases slice <;> rfl
  have indexes (slices : List Slice) : (relabelSlices word slices).mapM Slice.index? =
      (slices.mapM Slice.index?).map (relabelExprs word) := by
    induction slices with
    | nil => rfl
    | cons slice rest ih =>
      rw [relabelSlices, List.mapM_cons, List.mapM_cons, index, ih]
      cases slice.index? with
      | none => rfl
      | some value => cases rest.mapM Slice.index? <;> rfl
  cases found with
  | nil => rfl
  | cons slice rest =>
    cases rest with
    | nil => cases commas <;> cases slice <;> rfl
    | cons second rest =>
      have whole := indexes (slice :: second :: rest)
      rw [relabelSlices, relabelSlices] at whole ⊢
      unfold Slice.ofDimensions
      dsimp only
      rw [whole]
      cases (slice :: second :: rest).mapM Slice.index? <;> rfl

section unchanged

mutual

/-- An expression whose words stay as they are is unchanged. -/
theorem Expr.relabel_id (value : Expr) : value.relabel id = value := by
  cases value with
  | boolOp _ values | set values | list values _ | tuple values _ =>
    rw [Expr.relabel, relabelExprs_id values]
  | binOp left _ right => rw [Expr.relabel, Expr.relabel_id left, Expr.relabel_id right]
  | unaryOp _ value | await value | yieldFrom value | starred value _ =>
    rw [Expr.relabel, Expr.relabel_id value]
  | lambda parameters body =>
    rw [Expr.relabel, Arguments.relabel_id parameters, Expr.relabel_id body]
  | ifExp test body orelse =>
    rw [Expr.relabel, Expr.relabel_id test, Expr.relabel_id body, Expr.relabel_id orelse]
  | dict keys values => rw [Expr.relabel, relabelKeys_id keys, relabelExprs_id values]
  | listComp element clauses | setComp element clauses | generator element clauses =>
    rw [Expr.relabel, Expr.relabel_id element, relabelClauses_id clauses]
  | dictComp key value clauses =>
    rw [Expr.relabel, Expr.relabel_id key, Expr.relabel_id value, relabelClauses_id clauses]
  | yield value => rw [Expr.relabel, relabelOptional_id value]
  | compare left _ comparators =>
    rw [Expr.relabel, Expr.relabel_id left, relabelExprs_id comparators]
  | call function arguments keywords =>
    rw [Expr.relabel, Expr.relabel_id function, relabelExprs_id arguments,
      relabelKeywords_id keywords]
  | subscript value slice _ => rw [Expr.relabel, Expr.relabel_id value, Slice.relabel_id slice]
  | num | str | bytes | constant | ellipsis | name => rfl
  | _ =>
    -- A member, the name of whose constructor is a word of its own here.
    rename_i value name _
    rw [Expr.relabel, Expr.relabel_id value, id]

/-- A slice whose words stay as they are is unchanged. -/
theorem Slice.relabel_id (slice : Slice) : slice.relabel id = slice := by
  cases slice with
  | range lower upper step =>
    rw [Slice.relabel, relabelOptional_id lower, relabelOptional_id upper,
      relabelOptional_id step]
  | dimensions slices => rw [Slice.relabel, relabelSlices_id slices]
  | index value => rw [Slice.relabel, Expr.relabel_id value]

/-- Parameters whose words stay as they are are unchanged. -/
theorem Arguments.relabel_id (parameters : Arguments) : parameters.relabel id = parameters := by
  cases parameters with
  | mk args vararg kwonlyargs kwDefaults kwarg defaults =>
    rw [Arguments.relabel, relabelArgs_id args, relabelOptionalArg_id vararg,
      relabelArgs_id kwonlyargs, relabelKeys_id kwDefaults, relabelOptionalArg_id kwarg,
      relabelExprs_id defaults]

/-- A parameter whose words stay as they are is unchanged. -/
theorem Arg.relabel_id (arg : Arg) : arg.relabel id = arg := by
  cases arg with
  | mk name annotation => rw [Arg.relabel, relabelOptional_id annotation, id]

/-- A named argument whose words stay as they are is unchanged. -/
theorem Keyword.relabel_id (keyword : Keyword) : keyword.relabel id = keyword := by
  cases keyword with
  | mk name value => rw [Keyword.relabel, Expr.relabel_id value, Option.map_id, id]

/-- A clause whose words stay as they are is unchanged. -/
theorem Comprehension.relabel_id (clause : Comprehension) : clause.relabel id = clause := by
  cases clause with
  | mk target iter conditions _ =>
    rw [Comprehension.relabel, Expr.relabel_id target, Expr.relabel_id iter,
      relabelExprs_id conditions]

/-- Expressions whose words stay as they are are unchanged. -/
theorem relabelExprs_id (values : List Expr) : relabelExprs id values = values := by
  cases values with
  | nil => rfl
  | cons value rest => rw [relabelExprs, Expr.relabel_id value, relabelExprs_id rest]

/-- An expression that may be missing whose words stay as they are is unchanged. -/
theorem relabelOptional_id (value : Option Expr) : relabelOptional id value = value := by
  cases value with
  | none => rfl
  | some value => rw [relabelOptional, Expr.relabel_id value]

/-- Expressions that may be missing whose words stay as they are are unchanged. -/
theorem relabelKeys_id (values : List (Option Expr)) : relabelKeys id values = values := by
  cases values with
  | nil => rfl
  | cons value rest => rw [relabelKeys, relabelOptional_id value, relabelKeys_id rest]

/-- Slices whose words stay as they are are unchanged. -/
theorem relabelSlices_id (slices : List Slice) : relabelSlices id slices = slices := by
  cases slices with
  | nil => rfl
  | cons slice rest => rw [relabelSlices, Slice.relabel_id slice, relabelSlices_id rest]

/-- Several parameters whose words stay as they are are unchanged. -/
theorem relabelArgs_id (args : List Arg) : relabelArgs id args = args := by
  cases args with
  | nil => rfl
  | cons arg rest => rw [relabelArgs, Arg.relabel_id arg, relabelArgs_id rest]

/-- A parameter that may be missing whose words stay as they are is unchanged. -/
theorem relabelOptionalArg_id (arg : Option Arg) : relabelOptionalArg id arg = arg := by
  cases arg with
  | none => rfl
  | some arg => rw [relabelOptionalArg, Arg.relabel_id arg]

/-- Named arguments whose words stay as they are are unchanged. -/
theorem relabelKeywords_id (keywords : List Keyword) : relabelKeywords id keywords = keywords := by
  cases keywords with
  | nil => rfl
  | cons keyword rest => rw [relabelKeywords, Keyword.relabel_id keyword, relabelKeywords_id rest]

/-- Clauses whose words stay as they are are unchanged. -/
theorem relabelClauses_id (clauses : List Comprehension) :
    relabelClauses id clauses = clauses := by
  cases clauses with
  | nil => rfl
  | cons clause rest => rw [relabelClauses, Comprehension.relabel_id clause, relabelClauses_id rest]

end

/-- A dotted name whose words stay as they are is unchanged. -/
theorem mapDotted_id (name : String) : mapDotted id name = name := by
  rw [mapDotted, List.map_id, ← String.toList_inj, String.toList_intercalate, dottedWords,
    List.map_map]
  have chars : String.toList ∘ String.ofList = id := funext fun text => String.toList_ofList
  rw [chars, List.map_id]
  exact List.intercalate_splitOn '.'

/-- An imported name whose words stay as they are is unchanged. -/
theorem Alias.relabel_id (imported : Alias) : imported.relabel id = imported := by
  rw [Alias.relabel, mapDotted_id, Option.map_id, id]

/-- A context of a with statement whose words stay as they are is unchanged. -/
theorem WithItem.relabel_id (item : WithItem) : item.relabel id = item := by
  rw [WithItem.relabel, Expr.relabel_id, relabelOptional_id]

mutual

/-- A statement whose words stay as they are is unchanged. -/
theorem Stmt.relabel_id (stmt : Stmt) : stmt.relabel id = stmt := by
  have aliases (names : List Alias) : names.map (Alias.relabel id) = names := by
    simp [funext Alias.relabel_id]
  cases stmt with
  | functionDef _ _ parameters body decorators returns _ =>
    rw [Stmt.relabel, Arguments.relabel_id, relabelBody_id body, relabelExprs_id,
      relabelOptional_id, id]
  | classDef _ bases keywords body decorators _ =>
    rw [Stmt.relabel, relabelExprs_id, relabelKeywords_id, relabelBody_id body, relabelExprs_id, id]
  | returnValue value => rw [Stmt.relabel, relabelOptional_id]
  | delete targets => rw [Stmt.relabel, relabelExprs_id]
  | assign targets value => rw [Stmt.relabel, relabelExprs_id, Expr.relabel_id]
  | augAssign target _ value => rw [Stmt.relabel, Expr.relabel_id, Expr.relabel_id]
  | annAssign target hint value _ =>
    rw [Stmt.relabel, Expr.relabel_id, Expr.relabel_id, relabelOptional_id]
  | forLoop _ target iter body orelse =>
    rw [Stmt.relabel, Expr.relabel_id, Expr.relabel_id, relabelBody_id body, relabelBody_id orelse]
  | whileLoop test body orelse | ifElse test body orelse =>
    rw [Stmt.relabel, Expr.relabel_id, relabelBody_id body, relabelBody_id orelse]
  | withItems _ items body =>
    rw [Stmt.relabel, relabelBody_id body, funext WithItem.relabel_id, List.map_id']
  | raise exception cause => rw [Stmt.relabel, relabelOptional_id, relabelOptional_id]
  | tryExcept body handlers orelse final =>
    rw [Stmt.relabel, relabelBody_id body, relabelHandlers_id handlers, relabelBody_id orelse,
      relabelBody_id final]
  | assert test message => rw [Stmt.relabel, Expr.relabel_id, relabelOptional_id]
  | importModules names => rw [Stmt.relabel, aliases]
  | importFrom module names _ =>
    rw [Stmt.relabel, aliases, funext mapDotted_id, Option.map_id']
  | globals names | nonlocals names => rw [Stmt.relabel, List.map_id]
  | expr value => rw [Stmt.relabel, Expr.relabel_id]
  | pass | breakLoop | continueLoop => rfl

/-- A handler whose words stay as they are is unchanged. -/
theorem ExceptHandler.relabel_id (handler : ExceptHandler) : handler.relabel id = handler := by
  cases handler with
  | mk type name body =>
    rw [ExceptHandler.relabel, relabelOptional_id, relabelBody_id body, Option.map_id, id]

/-- Statements whose words stay as they are are unchanged. -/
theorem relabelBody_id (body : List Stmt) : relabelBody id body = body := by
  cases body with
  | nil => rfl
  | cons stmt rest => rw [relabelBody, Stmt.relabel_id stmt, relabelBody_id rest]

/-- Handlers whose words stay as they are are unchanged. -/
theorem relabelHandlers_id (handlers : List ExceptHandler) : relabelHandlers id handlers = handlers := by
  cases handlers with
  | nil => rfl
  | cons handler rest =>
    rw [relabelHandlers, ExceptHandler.relabel_id handler, relabelHandlers_id rest]

end

/-- A tree whose words stay as they are is unchanged. -/
theorem Root.relabel_id (root : Root) : root.relabel id = root := by
  cases root with
  | module body | interactive body => rw [Root.relabel, relabelBody_id]
  | expression body => rw [Root.relabel, Expr.relabel_id]

end unchanged

end Offside
