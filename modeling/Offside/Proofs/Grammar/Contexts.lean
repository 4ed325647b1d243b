import Offside.Proofs.Grammar.Invariant
import Offside.Proofs.Tree.Contexts

/-!
# Contexts in derivations

In each production the contexts fit in what the phrase makes, if they fit in what it was given and
in what its parts make (`Production.contextsFit`). Targets are made of values where a production
asks for a target, and nowhere else. So the contexts fit in every tree that a text is parsed as
(`parse_contextsFit`).
-/
namespace Offside

open Literal

/-- The arguments of a call are values. -/
@[simp] def CallArguments.Load (found : CallArguments) : Prop :=
  (∀ value ∈ found.positional, value.UsedAs .load) ∧ ∀ keyword ∈ found.keywords, keyword.Loads

/-- The contexts fit in a condition and its block. -/
@[simp] def BranchFits (branch : Expr × List Stmt) : Prop :=
  branch.1.UsedAs .load ∧ ∀ stmt ∈ branch.2, stmt.ContextsFit

namespace Phrase

/-- The contexts fit in what has been found before a phrase goes on. -/
@[simp] def GivenFits : Phrase → Prop
  | .climb _ left _ | .join _ left _ => left.expr.UsedAs .load
  | .moreTargets found _ => ∀ target ∈ found, target.UsedAs .store
  | .deleteTargets found _ => ∀ target ∈ found, target.UsedAs .del
  | .conditions found _ | .elements found _ | .members found _ | .tuple _ found _
  | .decorators found _ | .functionDef _ _ found _ | .compound found _ =>
    ∀ value ∈ found, value.UsedAs .load
  | .pairs keys values _ =>
    (∀ key ∈ keys, optionalLoads key) ∧ ∀ value ∈ values, value.UsedAs .load
  | .dimensions found _ _ => ∀ slice ∈ found, slice.Loads
  | .argument found _ | .arguments found _ => found.Load
  | .nextParameter _ found _ | .parameters _ found _ => found.parameters.Loads
  | .assignment found value _ _ =>
    (∀ target ∈ found, target.UsedAs .store) ∧ value.UsedAs .load
  | .moreSmall found _ | .block found _ | .body found _ => ∀ stmt ∈ found, stmt.ContextsFit
  | .withItems found _ => ∀ item ∈ found, item.ContextsFit
  | .elifs found _ => ∀ branch ∈ found, BranchFits branch
  | .handlers found _ => ∀ handler ∈ found, handler.ContextsFit
  | .operand .. | .start _ | .optionalOperand .. | .optional .. | .expr .. | .optionalTarget ..
  | .target .. | .forIn .. | .clause _ | .braces _ | .pair .. | .comparison _ | .dimension _
  | .parameter .. | .default _ | .names .. | .dotted .. | .dottedName _ | .asName _ | .modules ..
  | .points .. | .importedNames .. | .importedList _ | .small _ | .line _ | .suite _
  | .colonSuite _ | .optionalSuite .. | .returns _ | .classArguments _ | .forLoop .. | .withItem _
  | .withBlock .. | .condition .. | .handler _ | .statement _ | .lineEnds | .root _ => True

/-- The contexts fit in what a phrase makes. -/
@[simp] def MadeFits : Phrase → Prop
  | .operand _ out | .start out | .climb _ _ out | .join _ _ out | .elements _ out | .braces out
  | .pairs _ _ out | .members _ out => out.expr.UsedAs .load
  | .optionalOperand _ out => ∀ parsed ∈ out, parsed.expr.UsedAs .load
  | .optional _ out | .default out | .returns out => optionalLoads out
  | .expr _ out => out.UsedAs .load
  | .optionalTarget context _ out => ∀ target ∈ out, target.UsedAs context
  | .target context _ out => out.UsedAs context
  | .moreTargets _ out => ∀ target ∈ out, target.UsedAs .store
  | .deleteTargets _ out => ∀ target ∈ out, target.UsedAs .del
  | .forIn _ element iter => element.UsedAs .store ∧ iter.UsedAs .load
  | .conditions _ out | .tuple _ _ out | .decorators _ out => ∀ value ∈ out, value.UsedAs .load
  | .clause out => out.ContextsFit
  | .pair key value => optionalLoads key ∧ value.UsedAs .load
  | .dimension out => out.Loads
  | .dimensions _ _ out => ∀ slice ∈ out.1, slice.Loads
  | .argument _ out | .arguments _ out | .classArguments out => out.Load
  | .parameter _ out => out.Loads
  | .nextParameter _ _ out => out.parameters.Loads
  | .parameters _ _ out => out.Loads
  | .assignment _ _ targets last =>
    (∀ target ∈ targets, target.UsedAs .store) ∧ last.UsedAs .load
  | .small out | .functionDef _ _ _ out | .forLoop _ out | .withBlock _ out | .compound _ out =>
    out.ContextsFit
  | .moreSmall _ out | .line out | .block _ out | .suite out | .colonSuite out
  | .optionalSuite _ out | .statement out | .body _ out => ∀ stmt ∈ out, stmt.ContextsFit
  | .withItem out => out.ContextsFit
  | .withItems _ out => ∀ item ∈ out, item.ContextsFit
  | .condition _ test inside => BranchFits (test, inside)
  | .elifs _ out => ∀ branch ∈ out, BranchFits branch
  | .handler out => out.ContextsFit
  | .handlers _ out => ∀ handler ∈ out, handler.ContextsFit
  | .root out => out.ContextsFit
  | .comparison _ | .names .. | .dotted .. | .dottedName _ | .asName _ | .modules .. | .points ..
  | .importedNames .. | .importedList _ | .lineEnds => True

end Phrase

/-- The contexts fit in what a symbol makes, if they fit in what it was given. -/
@[simp] def Symbol.ContextsFit : Symbol → Prop
  | .phrase inner => inner.GivenFits → inner.MadeFits
  | .terminal _ | .dropped _ => True

/-- A string literal is a value. -/
@[simp] theorem Literal.Quoted.expr_usedAs (value : Quoted) : value.expr.UsedAs .load := by
  cases value <;> rfl

/-- The element and the clauses of a comprehension without brackets fit if it is a value. -/
theorem Parsed.fits_of_clauses {parsed : Parsed} {element : Expr} {clauses : List Comprehension}
    (open_ : parsed.clauses? = some (element, clauses)) (loads : parsed.expr.UsedAs .load) :
    element.UsedAs .load ∧ ∀ clause ∈ clauses, clause.ContextsFit := by
  unfold Parsed.clauses? at open_
  split at open_
  · rename_i found rest form same
    obtain ⟨rfl, rfl⟩ := Prod.mk.inj (Option.some.inj open_)
    rw [same, Expr.UsedAs, clausesFit_iff] at loads
    exact loads.2
  · contradiction

/-- Parameters are values if all their parts are. -/
theorem Arguments.loads_iff (parameters : Arguments) :
    parameters.Loads ↔ (∀ arg ∈ parameters.args, arg.Loads) ∧ optionalArgLoads parameters.vararg ∧
      (∀ arg ∈ parameters.kwonlyargs, arg.Loads) ∧
      (∀ value ∈ parameters.kwDefaults, optionalLoads value) ∧
      optionalArgLoads parameters.kwarg ∧
      ∀ value ∈ parameters.defaults, value.UsedAs .load := by
  cases parameters
  simp [Arguments.Loads]

/-- The slice of dimensions holds values if they do. -/
theorem Slice.ofDimensions_loads {found : List Slice} (commas : Bool)
    (load : ∀ slice ∈ found, slice.Loads) : (Slice.ofDimensions found commas).Loads := by
  rcases Slice.ofDimensions_cases found commas with ⟨slice, rfl, made⟩ | ⟨values, rfl, made⟩ | ⟨-, made⟩
  · rw [made]
    exact load slice (List.mem_singleton_self slice)
  · rw [made]
    simpa [Slice.Loads, Expr.UsedAs] using load
  · rw [made]
    simpa [Slice.Loads] using load

/-- The contexts fit in an annotated target. -/
theorem Expr.annotated_contextsFit {target annotation : Expr} {value : Option Expr}
    {grouped : Bool} {out : Stmt} (made : target.annotated? annotation value grouped = some out)
    (stored : target.UsedAs .store) (loads : annotation.UsedAs .load)
    (given : optionalLoads value) : out.ContextsFit := by
  unfold Expr.annotated? at made
  split at made
  · contradiction
  · contradiction
  · obtain rfl := Option.some.inj made
    exact ⟨stored, loads, given⟩
  · obtain rfl := Option.some.inj made
    exact ⟨stored, loads, given⟩

/-- The contexts fit in a choice if they fit in its parts. -/
theorem Stmt.choice_contextsFit {test : Expr} {body last : List Stmt}
    {others : List (Expr × List Stmt)} (first : BranchFits (test, body))
    (further : ∀ branch ∈ others, BranchFits branch) (otherwise : ∀ stmt ∈ last, stmt.ContextsFit) :
    (Stmt.choice test body others last).ContextsFit := by
  induction others generalizing test body with
  | nil =>
    simp only [Stmt.choice, List.foldr_nil, Stmt.ContextsFit, stmtsFit_iff]
    exact ⟨first.1, first.2, otherwise⟩
  | cons branch rest ih =>
    obtain ⟨here, later⟩ := List.forall_mem_cons.1 further
    have inner : (Stmt.choice branch.1 branch.2 rest last).ContextsFit := ih here later
    simp only [Stmt.choice, List.foldr_cons, Stmt.ContextsFit, stmtsFit_iff,
      List.forall_mem_singleton] at inner ⊢
    exact ⟨first.1, first.2, inner⟩

/-- Parameters of values stay such with a further parameter. -/
theorem ExprProduction.nextParameter_loads {signature : Signature} {found out : Collected}
    {body : List Symbol} (production : ExprProduction (.nextParameter signature found out) body)
    (parts : body.Forall Symbol.ContextsFit) (given : found.parameters.Loads) :
    out.parameters.Loads := by
  rw [Arguments.loads_iff] at given ⊢
  cases production with
  | bareStar => exact given
  | starParameter | doubleStarParameter | plainParameter =>
    simp [optionalArgLoads, or_imp, forall_and] at parts given ⊢
    grind
  | namedParameter | defaultParameter =>
    simp [optionalLoads, or_imp, forall_and] at parts given ⊢
    grind

/-- The contexts fit in what a production of an expression makes. -/
theorem ExprProduction.contextsFit {phrase : Phrase} {body : List Symbol}
    (production : ExprProduction phrase body) (parts : body.Forall Symbol.ContextsFit) :
    (Symbol.phrase phrase).ContextsFit := by
  cases production
  case someTarget fits =>
    simp [optionalLoads] at parts ⊢
    exact parts.withContext fits
  case furtherClause open_ =>
    simp at parts
    intro loads
    have found := Parsed.fits_of_clauses open_ loads
    simpa [Parsed.comprehension, Expr.UsedAs, or_imp, forall_and, parts] using found
  case listComprehension open_ | setComprehension open_ =>
    simp at parts
    have found := Parsed.fits_of_clauses open_ parts
    exact fun _ => ⟨rfl, found.1, (clausesFit_iff _).2 found.2⟩
  case dictComprehension open_ =>
    simp at parts
    have found := Parsed.fits_of_clauses open_ parts.2
    exact fun _ => ⟨rfl, parts.1, found.1, (clausesFit_iff _).2 found.2⟩
  case generatorArgument open_ =>
    simp at parts
    have found := Parsed.fits_of_clauses open_ parts
    rintro ⟨positional, keywords⟩
    simpa [CallArguments.addPositional, Expr.UsedAs, or_imp, forall_and] using
      ⟨⟨positional, found⟩, keywords⟩
  case subscript =>
    simp at parts
    intro loads
    exact ⟨rfl, loads, Slice.ofDimensions_loads _ parts⟩
  case starParameter first fresh => exact nextParameter_loads (.starParameter first fresh) parts
  case doubleStarParameter fresh => exact nextParameter_loads (.doubleStarParameter fresh) parts
  case namedParameter behind => exact nextParameter_loads (.namedParameter behind) parts
  case defaultParameter before => exact nextParameter_loads (.defaultParameter before) parts
  case plainParameter before first => exact nextParameter_loads (.plainParameter before first) parts
  case lambda =>
    simp [Arguments.loads_iff, Arguments.none, optionalArgLoads] at parts
    simpa [Parsed.plain, Expr.UsedAs, Arguments.loads_iff] using parts
  -- The other productions put their parts together as they are.
  all_goals
    simp [Parsed.plain, Parsed.comprehension, Expr.UsedAs, Slice.Loads, Arg.Loads, Keyword.Loads,
      Comprehension.ContextsFit, CallArguments.addPositional, CallArguments.addKeyword,
      optionalLoads, or_imp, forall_and] at parts ⊢
  all_goals grind

/-- The contexts fit in what a production of a statement makes. -/
theorem StmtProduction.contextsFit {phrase : Phrase} {body : List Symbol}
    (production : StmtProduction phrase body) (parts : body.Forall Symbol.ContextsFit) :
    (Symbol.phrase phrase).ContextsFit := by
  cases production
  case assign fits | augment fits =>
    simp [Stmt.ContextsFit] at parts ⊢
    have stored := parts.1.withContext fits
    grind
  case annotate fits made =>
    simp at parts
    exact fun _ => Expr.annotated_contextsFit made (parts.1.withContext fits) parts.2 trivial
  case annotateAssign fits made =>
    simp at parts
    obtain ⟨loads, hint, next, goesOn⟩ := parts
    obtain ⟨stored, value⟩ := goesOn (loads.withContext fits) next
    exact fun _ => Expr.annotated_contextsFit made stored hint value
  case assignment fits =>
    simp [or_imp, forall_and] at parts
    rintro ⟨found, loads⟩
    obtain ⟨next, targets, last⟩ := parts
    have stored := loads.withContext fits
    exact ⟨targets found stored next, last found stored next⟩
  case choice =>
    simp at parts
    obtain ⟨first, further, otherwise⟩ := parts
    exact fun _ => Stmt.choice_contextsFit first (by simpa using further) otherwise
  -- The other productions put their parts together as they are.
  all_goals
    simp [Stmt.ContextsFit, ExceptHandler.ContextsFit, WithItem.ContextsFit, Arguments.loads_iff,
      Arguments.none, optionalArgLoads, optionalLoads, Root.ContextsFit, or_imp, forall_and]
      at parts ⊢
  all_goals grind

/-- The contexts fit in what a production makes. -/
theorem Production.contextsFit {phrase : Phrase} {body : List Symbol}
    (production : Production phrase body) (parts : ∀ symbol ∈ body, symbol.ContextsFit) :
    (Symbol.phrase phrase).ContextsFit := by
  rw [← List.forall_iff_forall_mem] at parts
  cases production with
  | expr production => exact production.contextsFit parts
  | stmt production => exact production.contextsFit parts

/-- The contexts fit in every tree that a source text is parsed as. -/
theorem parse_contextsFit {source : String} {file : Option String} {mode : Mode} {root : Root}
    (parsed : parse source file mode = .ok root) : root.ContextsFit := by
  obtain ⟨between, dropped, derives⟩ := parse_covers parsed
  have fits := derives.invariant Symbol.ContextsFit (fun _ => trivial) (fun _ => trivial)
    (fun _ _ _ _ _ production _ _ parts => production.contextsFit parts) (List.suffix_refl _)
  exact fits _ List.mem_cons_self trivial

/-- The target of a loop is a tuple, a member of which is a value, and so is the index of what is
deleted. -/
theorem parse_contextsFit_of_loop :
    ∃ root, parse "for a.b, c in d: del e[f]\n" none .exec = .ok root ∧ root.ContextsFit := by
  have accepted : (parse "for a.b, c in d: del e[f]\n" none .exec).toBool = true := by
    decide +kernel
  cases parsed : parse "for a.b, c in d: del e[f]\n" none .exec with
  | error fault =>
    rw [parsed] at accepted
    contradiction
  | ok root => exact ⟨root, rfl, parse_contextsFit parsed⟩

end Offside
