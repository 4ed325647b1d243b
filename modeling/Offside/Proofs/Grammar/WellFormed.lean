import Offside.Proofs.Grammar.Invariant
import Offside.Proofs.Layout.Blocks
import Offside.Proofs.Tree.WellFormed

/-!
# Well-formed trees in derivations

In each production what the phrase makes is well formed, if what it was given and what its parts
make is (`Production.wellFormed`). One fact needs the layout: a block that is indented is not
empty, as a token of a logical line stands behind the mark that opens it
(`block_ne_nil`). So every tree that a source text is parsed as is well formed
(`parse_wellFormed`); tokens from elsewhere may open a block and close it at once.
-/
namespace Offside

open Literal

/-- A list of statements that a phrase makes is not empty, or grows from one that is not. -/
def Symbol.Fills : Symbol → Prop
  | .phrase (.moreSmall found out) | .phrase (.block found out) => found ≠ [] → out ≠ []
  | .phrase (.line out) | .phrase (.statement out) => out ≠ []
  | _ => True

/-- Statement lines hold statements. -/
theorem Production.fills {phrase : Phrase} {body : List Symbol}
    (production : Production phrase body) (parts : ∀ symbol ∈ body, symbol.Fills) :
    (Symbol.phrase phrase).Fills := by
  rw [← List.forall_iff_forall_mem] at parts
  cases production with
  | expr production => cases production <;> trivial
  | stmt production =>
    cases production
    case line => simpa [Symbol.Fills] using parts
    case smallEnd | smallSemicolon | blockEnd => exact id
    case moreSmall | block => simp_all [Symbol.Fills]
    case compound => simp [Symbol.Fills]
    case simple => simpa [Symbol.Fills] using parts
    all_goals trivial

/-- Symbols that cover tokens fill what they make. -/
theorem Derives.fills {symbols : List Symbol} {dropped : List Expr} {ahead behind : List Token}
    (derives : Derives symbols dropped ahead behind) : ∀ symbol ∈ symbols, symbol.Fills :=
  derives.invariant Symbol.Fills (fun _ => trivial) (fun _ => trivial)
    (fun _ _ _ _ _ production _ _ parts => production.fills parts) (List.suffix_refl _)

/-- A block that is indented is not empty. -/
theorem block_ne_nil {out : List Stmt} {dropped : List Expr} {ahead behind : List Token}
    (filled : BlocksFilled ahead)
    (derives : Derives [.newline, .terminal (.layout .indent), .phrase (.block [] out)] dropped
      ahead behind) : out ≠ [] := by
  cases derives with
  | terminal _ derives =>
    cases derives with
    | @terminal _ _ _ opening ahead _ opens derives =>
      obtain ⟨inner, follows, -, closesNot, -⟩ := filled.2.1 opens.1
      cases derives with
      | phrase production inside _ =>
        cases production with
        | expr production => cases production
        | stmt production =>
          cases production with
          | blockEnd =>
            cases inside with
            | terminal closes _ =>
              obtain rfl := Option.some.inj follows
              exact absurd closes.1 closesNot
          | block =>
            obtain ⟨statement, block⟩ := List.forall_mem_cons.1 inside.fills
            exact block _ List.mem_cons_self statement

/-- The arguments of a call are well formed. -/
@[simp] def CallArguments.WellFormed (found : CallArguments) : Prop :=
  (∀ value ∈ found.positional, value.All Part.Proper) ∧
    ∀ keyword ∈ found.keywords, keyword.All Part.Proper

/-- A condition is well formed, and so is its block, which is not empty. -/
@[simp] def BranchWellFormed (branch : Expr × List Stmt) : Prop :=
  branch.1.All Part.Proper ∧ branch.2 ≠ [] ∧ ∀ stmt ∈ branch.2, stmt.All Part.Proper

namespace Phrase

/-- What has been found before a phrase goes on is well formed. -/
@[simp] def GivenWellFormed : Phrase → Prop
  | .climb _ left _ | .join _ left _ => left.expr.All Part.Proper
  | .moreTargets found _ | .deleteTargets found _ | .conditions found _ | .elements found _
  | .members found _ | .tuple _ found _ | .decorators found _ | .functionDef _ _ found _
  | .compound found _ => ∀ value ∈ found, value.All Part.Proper
  | .pairs keys values _ =>
    keys.length = values.length ∧ (∀ key ∈ keys, optionalAll Part.Proper key) ∧
      ∀ value ∈ values, value.All Part.Proper
  | .dimensions found _ _ => ∀ slice ∈ found, slice.All Part.Proper ∧ ¬slice.IsDimensions
  | .argument found _ | .arguments found _ => found.WellFormed
  | .nextParameter _ found _ | .parameters _ found _ => found.parameters.All Part.Proper
  | .assignment found value _ _ =>
    found ≠ [] ∧ (∀ target ∈ found, target.All Part.Proper) ∧ value.All Part.Proper
  | .names found _ => found ≠ []
  | .moreSmall found _ => found ≠ [] ∧ ∀ stmt ∈ found, stmt.All Part.Proper
  | .block found _ | .body found _ => ∀ stmt ∈ found, stmt.All Part.Proper
  | .withItems found _ => ∀ item ∈ found, item.All Part.Proper
  | .elifs found _ => ∀ branch ∈ found, BranchWellFormed branch
  | .handlers found _ => ∀ handler ∈ found, handler.All Part.Proper
  | .operand .. | .start _ | .optionalOperand .. | .optional .. | .expr .. | .optionalTarget ..
  | .target .. | .forIn .. | .clause _ | .braces _ | .pair .. | .comparison _ | .dimension _
  | .parameter .. | .default _ | .dotted .. | .dottedName _ | .asName _ | .modules .. | .points ..
  | .importedNames .. | .importedList _ | .small _ | .line _ | .suite _ | .colonSuite _
  | .optionalSuite .. | .returns _ | .classArguments _ | .forLoop .. | .withItem _ | .withBlock ..
  | .condition .. | .handler _ | .statement _ | .lineEnds | .root _ => True

/-- What a phrase makes is well formed. -/
@[simp] def MadeWellFormed : Phrase → Prop
  | .operand _ out | .start out | .climb _ _ out | .join _ _ out | .elements _ out | .braces out
  | .pairs _ _ out | .members _ out => out.expr.All Part.Proper
  | .optionalOperand _ out => ∀ parsed ∈ out, parsed.expr.All Part.Proper
  | .optional _ out | .optionalTarget _ _ out | .default out | .returns out =>
    optionalAll Part.Proper out
  | .expr _ out | .target _ _ out => out.All Part.Proper
  | .moreTargets _ out | .deleteTargets _ out | .conditions _ out | .tuple _ _ out
  | .decorators _ out => ∀ value ∈ out, value.All Part.Proper
  | .forIn _ element iter => element.All Part.Proper ∧ iter.All Part.Proper
  | .clause out => out.All Part.Proper
  | .pair key value => optionalAll Part.Proper key ∧ value.All Part.Proper
  | .dimension out => out.All Part.Proper ∧ ¬out.IsDimensions
  | .dimensions _ _ out => ∀ slice ∈ out.1, slice.All Part.Proper ∧ ¬slice.IsDimensions
  | .argument _ out | .arguments _ out | .classArguments out => out.WellFormed
  | .parameter _ out => out.All Part.Proper
  | .nextParameter _ _ out => out.parameters.All Part.Proper
  | .parameters _ _ out => out.All Part.Proper
  | .assignment _ _ targets last =>
    targets ≠ [] ∧ (∀ target ∈ targets, target.All Part.Proper) ∧ last.All Part.Proper
  | .names _ out => out ≠ []
  | .modules _ out | .importedNames _ _ out | .importedList out => out ≠ []
  | .small out | .functionDef _ _ _ out | .forLoop _ out | .withBlock _ out | .compound _ out =>
    out.All Part.Proper
  | .moreSmall _ out | .line out | .suite out | .colonSuite out | .statement out =>
    out ≠ [] ∧ ∀ stmt ∈ out, stmt.All Part.Proper
  | .block _ out | .optionalSuite _ out | .body _ out => ∀ stmt ∈ out, stmt.All Part.Proper
  | .withItem out => out.All Part.Proper
  | .withItems _ out => out ≠ [] ∧ ∀ item ∈ out, item.All Part.Proper
  | .condition _ test inside => BranchWellFormed (test, inside)
  | .elifs _ out => ∀ branch ∈ out, BranchWellFormed branch
  | .handler out => out.All Part.Proper
  | .handlers _ out => ∀ handler ∈ out, handler.All Part.Proper
  | .root out => out.All Part.Proper
  | .comparison _ | .dotted .. | .dottedName _ | .asName _ | .points .. | .lineEnds => True

end Phrase

/-- What a symbol makes is well formed, if what it was given is. -/
@[simp] def Symbol.WellFormed : Symbol → Prop
  | .phrase inner => inner.GivenWellFormed → inner.MadeWellFormed
  | .terminal _ | .dropped _ => True

/-- A string literal is well formed. -/
@[simp] theorem Literal.Quoted.expr_proper (value : Quoted) : value.expr.All Part.Proper := by
  cases value <;> trivial

/-- The element and the clauses of a comprehension without brackets are well formed if it is, and
there are clauses. -/
theorem Parsed.proper_of_clauses {parsed : Parsed} {element : Expr}
    {clauses : List Comprehension} (open_ : parsed.clauses? = some (element, clauses))
    (whole : parsed.expr.All Part.Proper) :
    clauses ≠ [] ∧ element.All Part.Proper ∧ ∀ clause ∈ clauses, clause.All Part.Proper := by
  unfold Parsed.clauses? at open_
  split at open_
  · rename_i found rest form same
    obtain ⟨rfl, rfl⟩ := Prod.mk.inj (Option.some.inj open_)
    rw [same, Expr.All, clausesAll_iff] at whole
    exact whole
  · contradiction

/-- The slice of dimensions is well formed if they are. -/
theorem Slice.ofDimensions_proper {found : List Slice} (commas : Bool)
    (each : ∀ slice ∈ found, slice.All Part.Proper ∧ ¬slice.IsDimensions) :
    (Slice.ofDimensions found commas).All Part.Proper := by
  rcases Slice.ofDimensions_cases found commas with
    ⟨slice, rfl, made⟩ | ⟨values, rfl, made⟩ | ⟨⟨slice, member, other⟩, made⟩
  · rw [made]
    exact (each slice (List.mem_singleton_self slice)).1
  · rw [made]
    simpa [Slice.All, Expr.All, Part.Proper, Slice.Proper, Expr.Proper, Slice.IsDimensions] using
      each
  · have range : slice.IsRange := by
      cases slice with
      | range => trivial
      | index => contradiction
      | dimensions => exact absurd trivial (each _ member).2
    rw [made, Slice.All, slicesAll_iff]
    exact ⟨⟨⟨slice, member, range⟩, fun found inside => (each found inside).2⟩,
      fun found inside => (each found inside).1⟩

/-- An annotated target meets its condition. -/
theorem Expr.annotated_proper {target annotation : Expr} {value : Option Expr} {grouped : Bool}
    {out : Stmt} (made : target.annotated? annotation value grouped = some out)
    (whole : target.All Part.Proper) (hint : annotation.All Part.Proper)
    (given : optionalAll Part.Proper value) : out.All Part.Proper := by
  unfold Expr.annotated? at made
  split at made
  · contradiction
  · contradiction
  · obtain rfl := Option.some.inj made
    exact ⟨⟨id, fun _ => trivial⟩, whole, hint, given⟩
  · rename_i notTuple notList notName
    obtain rfl := Option.some.inj made
    refine ⟨⟨?_, nofun⟩, whole, hint, given⟩
    intro sequence
    cases target with
    | tuple => exact notTuple _ _ rfl
    | list => exact notList _ _ rfl
    | _ => contradiction

/-- A choice is well formed if its parts are. -/
theorem Stmt.choice_proper {test : Expr} {body last : List Stmt}
    {others : List (Expr × List Stmt)} (first : BranchWellFormed (test, body))
    (further : ∀ branch ∈ others, BranchWellFormed branch)
    (otherwise : ∀ stmt ∈ last, stmt.All Part.Proper) :
    (Stmt.choice test body others last).All Part.Proper := by
  induction others generalizing test body with
  | nil =>
    simp only [Stmt.choice, List.foldr_nil, Stmt.All, stmtsAll_iff]
    exact ⟨first.2.1, first.1, first.2.2, otherwise⟩
  | cons branch rest ih =>
    obtain ⟨here, later⟩ := List.forall_mem_cons.1 further
    have inner : (Stmt.choice branch.1 branch.2 rest last).All Part.Proper := ih here later
    simp only [Stmt.choice, List.foldr_cons, Stmt.All, stmtsAll_iff,
      List.forall_mem_singleton] at inner ⊢
    exact ⟨first.2.1, first.1, first.2.2, inner⟩

/-- Well-formed parameters stay such with a further parameter. -/
theorem ExprProduction.nextParameter_proper {signature : Signature} {found out : Collected}
    {body : List Symbol} (production : ExprProduction (.nextParameter signature found out) body)
    (parts : body.Forall Symbol.WellFormed) (given : found.parameters.All Part.Proper) :
    out.parameters.All Part.Proper := by
  rw [Arguments.all_iff] at given ⊢
  cases production with
  | bareStar => exact given
  | starParameter | doubleStarParameter =>
    simp [Part.Proper, Arguments.Proper, optionalArgAll] at parts given ⊢
    grind
  | namedParameter | defaultParameter | plainParameter =>
    simp [Part.Proper, Arguments.Proper, optionalAll, or_imp, forall_and] at parts given ⊢
    grind

/-- What a production of an expression makes is well formed. -/
theorem ExprProduction.wellFormed {phrase : Phrase} {body : List Symbol}
    (production : ExprProduction phrase body) (parts : body.Forall Symbol.WellFormed) :
    (Symbol.phrase phrase).WellFormed := by
  cases production
  case someTarget fits =>
    simp [optionalAll] at parts ⊢
    exact Expr.withContext_proper parts fits
  case furtherClause open_ =>
    simp at parts
    intro whole
    have found := Parsed.proper_of_clauses open_ whole
    simpa [Parsed.comprehension, Expr.All, Part.Proper, Expr.Proper, or_imp, forall_and, parts]
      using found.2
  case listComprehension open_ | setComprehension open_ =>
    simp at parts
    have found := Parsed.proper_of_clauses open_ parts
    exact fun _ => ⟨found.1, found.2.1, (clausesAll_iff _).2 found.2.2⟩
  case dictComprehension open_ =>
    simp at parts
    have found := Parsed.proper_of_clauses open_ parts.2
    exact fun _ => ⟨found.1, parts.1, found.2.1, (clausesAll_iff _).2 found.2.2⟩
  case generatorArgument open_ =>
    simp at parts
    have found := Parsed.proper_of_clauses open_ parts
    rintro ⟨positional, keywords⟩
    simpa [CallArguments.addPositional, Expr.All, Part.Proper, Expr.Proper, or_imp, forall_and]
      using ⟨⟨positional, found⟩, keywords⟩
  case subscript =>
    simp at parts
    exact fun whole => ⟨trivial, whole, Slice.ofDimensions_proper _ parts⟩
  case starParameter first fresh => exact nextParameter_proper (.starParameter first fresh) parts
  case doubleStarParameter fresh => exact nextParameter_proper (.doubleStarParameter fresh) parts
  case namedParameter behind => exact nextParameter_proper (.namedParameter behind) parts
  case defaultParameter before => exact nextParameter_proper (.defaultParameter before) parts
  case plainParameter before first => exact nextParameter_proper (.plainParameter before first) parts
  case lambda =>
    simp [Arguments.all_iff, Arguments.none, Part.Proper, Arguments.Proper, optionalArgAll] at parts
    simpa [Parsed.plain, Expr.All, Part.Proper, Expr.Proper, Arguments.all_iff, Arguments.Proper]
      using parts
  -- The other productions put their parts together as they are.
  all_goals
    simp [Parsed.plain, Parsed.comprehension, Expr.All, Slice.All, Arg.All, Keyword.All,
      Comprehension.All, Part.Proper, Expr.Proper, Slice.Proper, Slice.IsDimensions,
      CallArguments.addPositional, CallArguments.addKeyword, optionalAll, or_imp, forall_and]
      at parts ⊢
  all_goals grind

/-- What a production of a statement makes is well formed, in tokens whose blocks are filled. -/
theorem StmtProduction.wellFormed {phrase : Phrase} {body : List Symbol} {dropped : List Expr}
    {ahead behind : List Token} (production : StmtProduction phrase body)
    (filled : BlocksFilled ahead) (inside : Derives body dropped ahead behind)
    (parts : body.Forall Symbol.WellFormed) : (Symbol.phrase phrase).WellFormed := by
  cases production
  case indented =>
    simp at parts
    exact fun _ => ⟨block_ne_nil filled inside, parts⟩
  case assign fits | augment fits =>
    simp [Stmt.All, Part.Proper, Stmt.Proper] at parts ⊢
    have target := Expr.withContext_proper parts.1 fits
    grind
  case annotate fits made =>
    simp at parts
    obtain ⟨whole, hint⟩ := parts
    exact fun _ => Expr.annotated_proper made (Expr.withContext_proper whole fits) hint trivial
  case annotateAssign fits made =>
    simp at parts
    obtain ⟨whole, hint, next, goesOn⟩ := parts
    obtain ⟨target, value⟩ := goesOn (Expr.withContext_proper whole fits) next
    exact fun _ => Expr.annotated_proper made target hint value
  case assignment fits =>
    simp [or_imp, forall_and] at parts
    rintro ⟨-, found, whole⟩
    obtain ⟨next, some_, targets, last⟩ := parts
    have target := Expr.withContext_proper whole fits
    exact ⟨some_ found target next, targets found target next, last found target next⟩
  case choice =>
    simp at parts
    obtain ⟨first, further, otherwise⟩ := parts
    exact fun _ => Stmt.choice_proper first (by simpa using further) otherwise
  -- The other productions put their parts together as they are.
  all_goals
    simp [Stmt.All, ExceptHandler.All, WithItem.All, aliasesAll, Arguments.all_iff, Arguments.none,
      optionalArgAll, optionalAll, Root.All, Part.Proper, Stmt.Proper, Arguments.Proper, or_imp,
      forall_and] at parts ⊢
  all_goals grind

/-- What a production makes is well formed, in tokens whose blocks are filled. -/
theorem Production.wellFormed {phrase : Phrase} {body : List Symbol} {dropped : List Expr}
    {ahead behind : List Token} (production : Production phrase body)
    (filled : BlocksFilled ahead) (inside : Derives body dropped ahead behind)
    (parts : ∀ symbol ∈ body, symbol.WellFormed) : (Symbol.phrase phrase).WellFormed := by
  rw [← List.forall_iff_forall_mem] at parts
  cases production with
  | expr production => exact production.wellFormed parts
  | stmt production => exact production.wellFormed filled inside parts

/-- Every tree that a source text is parsed as is well formed. -/
theorem parse_wellFormed {source : String} {file : Option String} {mode : Mode} {root : Root}
    (parsed : parse source file mode = .ok root) : root.WellFormed := by
  obtain ⟨between, dropped, derives⟩ := parse_covers parsed
  have filled := Stream.ofSource_filled source file
  have whole := derives.invariant Symbol.WellFormed (fun _ => trivial) (fun _ => trivial)
    (fun _ _ _ _ _ production within inside parts =>
      production.wellFormed (filled.suffix within) inside parts) (List.suffix_refl _)
  exact (Root.all_iff root).1 (whole _ List.mem_cons_self trivial)

/-- A choice, a function and a comprehension, each with a part that must not be empty. -/
theorem parse_wellFormed_of_blocks :
    ∃ root, parse "def f(a, b=1):\n  if a: pass\n  return [c for c in b]\n" none .exec = .ok root ∧
      root.WellFormed := by
  have accepted : (parse "def f(a, b=1):\n  if a: pass\n  return [c for c in b]\n" none
      .exec).toBool = true := by
    decide +kernel
  cases parsed : parse "def f(a, b=1):\n  if a: pass\n  return [c for c in b]\n" none .exec with
  | error fault =>
    rw [parsed] at accepted
    contradiction
  | ok root => exact ⟨root, rfl, parse_wellFormed parsed⟩

end Offside
