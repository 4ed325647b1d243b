import Offside.Proofs.Grammar.Phrase
import Offside.Proofs.Tree.Atoms

/-!
# Balanced productions

What a phrase has been given and what it makes, as atoms. In each production the parts make just
what the phrase makes beyond what it was given (`Production.balanced`): no part is left out and
none is used twice. Only elements before a comprehension in square brackets are dropped
(`Production.eq_of_dropped`). The texts that a production asks for are no identifiers, so they
hold no atoms themselves (`Production.fixed`).
-/
namespace Offside

open Literal

/-- The atoms of the arguments of a call. -/
@[simp] def CallArguments.atoms (found : CallArguments) : List Atom :=
  exprAtoms found.positional ++ keywordAtoms found.keywords

/-- The atoms of a condition with its block. -/
@[simp] def branchAtoms (branch : Expr × List Stmt) : List Atom :=
  branch.1.atoms ++ stmtAtoms branch.2

/-- The atoms of what a terminal makes. -/
@[simp] def Terminal.atoms : Terminal → List Atom
  | .identifier id | .name id => [.word id]
  | .number value => [.number value]
  | _ => []

namespace Phrase

/-- The atoms of what has been found before a phrase goes on. -/
@[simp] def given : Phrase → List Atom
  | .climb _ left _ | .join _ left _ => left.expr.atoms
  | .moreTargets found _ | .conditions found _ | .elements found _ | .members found _
  | .tuple _ found _ | .deleteTargets found _ | .decorators found _ => exprAtoms found
  | .pairs keys values _ => keyAtoms keys ++ exprAtoms values
  | .dimensions found _ _ => sliceAtoms found
  | .argument found _ | .arguments found _ => found.atoms
  | .nextParameter _ found _ | .parameters _ found _ => found.parameters.atoms
  | .assignment found value _ _ => exprAtoms found ++ value.atoms
  | .names found _ => found.map .word
  | .dotted found _ => dottedAtoms found
  | .modules found _ | .importedNames _ found _ => found.flatMap Alias.atoms
  | .moreSmall found _ | .block found _ | .body found _ => stmtAtoms found
  | .functionDef _ _ waiting _ | .compound waiting _ => exprAtoms waiting
  | .withItems found _ => found.flatMap WithItem.atoms
  | .elifs found _ => found.flatMap branchAtoms
  | .handlers found _ => handlerAtoms found
  | _ => []

/-- The atoms of what a phrase makes. -/
@[simp] def made : Phrase → List Atom
  | .operand _ out | .start out | .climb _ _ out | .join _ _ out | .elements _ out | .braces out
  | .pairs _ _ out | .members _ out => out.expr.atoms
  | .optionalOperand _ out => optionalAtoms (out.map Parsed.expr)
  | .optional _ out | .optionalTarget _ _ out | .default out | .returns out => optionalAtoms out
  | .expr _ out | .target _ _ out => out.atoms
  | .moreTargets _ out | .conditions _ out | .tuple _ _ out | .deleteTargets _ out
  | .decorators _ out => exprAtoms out
  | .forIn _ element iter => element.atoms ++ iter.atoms
  | .clause out => out.atoms
  | .pair key value => optionalAtoms key ++ value.atoms
  | .comparison _ | .points .. | .lineEnds => []
  | .dimension out => out.atoms
  | .dimensions _ _ out => sliceAtoms out.1
  | .argument _ out | .arguments _ out | .classArguments out => out.atoms
  | .parameter _ out => out.atoms
  | .nextParameter _ _ out => out.parameters.atoms
  | .parameters _ _ out => out.atoms
  | .assignment _ _ targets last => exprAtoms targets ++ last.atoms
  | .names _ out => out.map .word
  | .dotted _ out | .dottedName out => dottedAtoms out
  | .asName out => wordAtoms out
  | .modules _ out | .importedNames _ _ out | .importedList out => out.flatMap Alias.atoms
  | .small out | .functionDef _ _ _ out | .forLoop _ out | .withBlock _ out | .compound _ out =>
    out.atoms
  | .moreSmall _ out | .line out | .block _ out | .suite out | .colonSuite out
  | .optionalSuite _ out | .statement out | .body _ out => stmtAtoms out
  | .withItem out => out.atoms
  | .withItems _ out => out.flatMap WithItem.atoms
  | .condition _ test inside => branchAtoms (test, inside)
  | .elifs _ out => out.flatMap branchAtoms
  | .handler out => out.atoms
  | .handlers _ out => handlerAtoms out
  | .root out => out.atoms

end Phrase

namespace Symbol

/-- The atoms of what has been found before a symbol, and of what is dropped. -/
@[simp] def given : Symbol → List Atom
  | .terminal _ => []
  | .phrase inner => inner.given
  | .dropped elements => exprAtoms elements

/-- The atoms of what a symbol makes. -/
@[simp] def made : Symbol → List Atom
  | .terminal token => token.atoms
  | .phrase inner => inner.made
  | .dropped _ => []

/-- An identifier in front is one without points. -/
def IsPlain : Symbol → Prop
  | .terminal (.identifier id) => '.' ∉ id.toList
  | _ => True

end Symbol

/-- What the parts of a production make, with what was found before, is what the phrase makes with
what its parts were given. -/
def Balanced (atom : Atom) (phrase : Phrase) (body : List Symbol) : Prop :=
  (body.flatMap Symbol.made).count atom + phrase.given.count atom =
    phrase.made.count atom + (body.flatMap Symbol.given).count atom


/-- A string literal has no atoms. -/
@[simp] theorem Literal.Quoted.expr_atoms (value : Quoted) : value.expr.atoms = [] := by
  cases value <;> rfl

/-- A comprehension without brackets has the atoms of its element and its clauses. -/
theorem Parsed.atoms_of_clauses {parsed : Parsed} {element : Expr} {clauses : List Comprehension}
    (open_ : parsed.clauses? = some (element, clauses)) :
    parsed.expr.atoms = element.atoms ++ clauseAtoms clauses := by
  unfold Parsed.clauses? at open_
  split at open_
  · rename_i found rest form same
    obtain ⟨rfl, rfl⟩ := Prod.mk.inj (Option.some.inj open_)
    rw [same, Expr.atoms]
  · contradiction

/-- The atoms of parameters, part by part. -/
@[simp] theorem Arguments.atoms_eq (parameters : Arguments) :
    parameters.atoms = argAtoms parameters.args ++ optionalArgAtoms parameters.vararg ++
      argAtoms parameters.kwonlyargs ++ keyAtoms parameters.kwDefaults ++
      optionalArgAtoms parameters.kwarg ++ exprAtoms parameters.defaults := by
  cases parameters
  rfl

/-- The atoms of an annotated target. -/
theorem Expr.annotated_atoms {target annotation : Expr} {value : Option Expr} {grouped : Bool}
    {out : Stmt} (made : target.annotated? annotation value grouped = some out) :
    out.atoms = target.atoms ++ annotation.atoms ++ optionalAtoms value := by
  unfold Expr.annotated? at made
  split at made
  · contradiction
  · contradiction
  · obtain rfl := Option.some.inj made
    rfl
  · obtain rfl := Option.some.inj made
    rfl

/-- The atoms of a choice. -/
@[simp] theorem Stmt.choice_atoms (test : Expr) (body last : List Stmt)
    (others : List (Expr × List Stmt)) (atom : Atom) :
    (Stmt.choice test body others last).atoms.count atom = test.atoms.count atom +
      (stmtAtoms body).count atom + (others.flatMap branchAtoms).count atom +
      (stmtAtoms last).count atom := by
  induction others generalizing test body with
  | nil => simp [Stmt.choice]; omega
  | cons first rest ih =>
    have inner := ih first.1 first.2
    simp [Stmt.choice] at inner ⊢
    omega

/-- Each production of an expression is balanced. -/
theorem ExprProduction.balanced {phrase : Phrase} {body : List Symbol} (atom : Atom)
    (production : ExprProduction phrase body) : Balanced atom phrase body := by
  unfold Balanced
  cases production
  case someTarget fits => simp [Expr.withContext_atoms fits]
  case furtherClause open_ =>
    simp [Parsed.atoms_of_clauses open_, Parsed.comprehension]
    omega
  case listComprehension open_ | setComprehension open_ | dictComprehension open_ =>
    simp [Parsed.atoms_of_clauses open_, Parsed.plain]
  case generatorArgument open_ =>
    simp [Parsed.atoms_of_clauses open_, CallArguments.addPositional]
    omega
  case keywordArgument named =>
    simp [named, CallArguments.addKeyword]
    omega
  case mappingArgument => simp [CallArguments.addKeyword]; omega
  case starredArgument | plainArgument =>
    simp [CallArguments.addPositional]
    omega
  case lambda => simp [Parsed.plain, Arguments.none]
  case starParameter fresh | doubleStarParameter fresh =>
    simp [fresh]
    omega
  -- The other productions put their parts together as they are.
  all_goals simp [Parsed.plain, Parsed.comprehension]
  all_goals omega

/-- Each production of a statement is balanced, up to atoms that are no names. -/
theorem StmtProduction.balanced {phrase : Phrase} {body : List Symbol} {atom : Atom}
    (kept : atom.isKept = true) (plain : ∀ symbol ∈ body, symbol.IsPlain)
    (production : StmtProduction phrase body) : Balanced atom phrase body := by
  unfold Balanced
  cases production
  case augment fits => simp [Expr.withContext_atoms fits]
  case assign fits | assignment fits =>
    simp [Expr.withContext_atoms fits]
    omega
  case annotate fits made => simp [Expr.annotated_atoms made, Expr.withContext_atoms fits]
  case annotateAssign fits made =>
    simp [Expr.annotated_atoms made, Expr.withContext_atoms fits]
    omega
  case dotted | dottedName | lastImport | commaImport | importedNames =>
    -- A part of a name has no point, so it is one word.
    simp [Symbol.IsPlain] at plain
    simp [dottedAtoms_of_plain plain, List.count_cons] <;> omega
  case importStar =>
    have other : atom ≠ .word "*" := by
      rintro rfl
      contradiction
    simp [dottedAtoms_of_plain, other.symm]
  case functionDef => simp [List.count_cons, Arguments.none]; omega
  -- The other productions put their parts together as they are.
  all_goals simp [List.count_cons]
  all_goals omega

/-- Each production is balanced, up to atoms that are no names. -/
theorem Production.balanced {phrase : Phrase} {body : List Symbol} {atom : Atom}
    (kept : atom.isKept = true) (plain : ∀ symbol ∈ body, symbol.IsPlain)
    (production : Production phrase body) : Balanced atom phrase body := by
  cases production with
  | expr production => exact production.balanced atom
  | stmt production => exact production.balanced kept plain

/-- Only the elements before a comprehension in square brackets are dropped. -/
theorem Production.eq_of_dropped {phrase : Phrase} {body : List Symbol} {elements : List Expr}
    (production : Production phrase body) (drops : .dropped elements ∈ body) :
    ∃ parsed element clauses, parsed.clauses? = some (element, clauses) ∧
      phrase = .elements elements (.plain (.listComp element clauses)) ∧
      body = [.operand Power.untilComma parsed, .text "]", .dropped elements] := by
  cases production with
  | expr production =>
    cases production
    case listComprehension found parsed element clauses open_ =>
      obtain rfl : elements = found := by simpa using drops
      exact ⟨parsed, element, clauses, open_, rfl, rfl⟩
    all_goals simp at drops
  | stmt production =>
    cases production
    all_goals simp at drops

/-- A text that a symbol asks for is no identifier. -/
@[simp] def Symbol.Fixed : Symbol → Prop
  | .terminal (.text written) | .terminal (.word written _) | .phrase (.condition written _ _)
  | .phrase (.optionalSuite written _) => isIdentifier written = false
  | _ => True

/-- A text with a meaning of its own in expressions is no identifier. -/
theorem PrefixRule.fixed {rule : PrefixRule} {text : String} (listed : text ∈ rule.texts) :
    isIdentifier text = false := by
  have texts : ∀ entry ∈ Grammar.standard.byText, isIdentifier entry.1 = false := by decide
  obtain ⟨entry, member, rfl⟩ := List.mem_map.1 listed
  exact texts entry (List.mem_filter.1 member).1

/-- The text of a comparison is no identifier. -/
theorem Comparison.fixed {text : String} {operator : Comparison}
    (written : Comparison.ofText? text = some operator) : isIdentifier text = false := by
  have texts : ∀ entry ∈ Comparison.table, isIdentifier entry.1 = false := by decide
  obtain ⟨front, back, same, -⟩ := List.lookup_eq_some_iff.1 written
  exact texts (text, operator) (same ▸ List.mem_append_right front List.mem_cons_self)

/-- The texts in the productions of expressions are no identifiers. -/
theorem ExprProduction.fixed {phrase : Phrase} {body : List Symbol}
    (production : ExprProduction phrase body) : ∀ symbol ∈ body, symbol.Fixed := by
  cases production
  case constant listed | unary listed => simpa using PrefixRule.fixed listed
  case comparison written => simpa using Comparison.fixed written
  case boolean operator _ _ | booleanChain operator _ _ => cases operator <;> simp <;> decide
  case binary operator _ _ _ => cases operator <;> simp <;> decide
  all_goals simp
  all_goals decide

/-- The texts in a production are no identifiers, if the phrase asks for none. -/
theorem Production.fixed {phrase : Phrase} {body : List Symbol}
    (production : Production phrase body) (fixed : (Symbol.phrase phrase).Fixed) :
    ∀ symbol ∈ body, symbol.Fixed := by
  cases production with
  | expr production => exact production.fixed
  | stmt production =>
    cases production
    case someSuite | condition => simpa using fixed
    all_goals simp
    all_goals decide

end Offside
