import Offside.Proofs.Grammar.Targets
import Offside.Proofs.Tree.Everywhere
import Offside.Proofs.Tree.Words

/-!
# Where words and starred operands come from

Each word of a tree that names something is no reserved word, each member is a name behind a point,
and each starred expression that something works on is written with a star and what a target may be
behind it (`Part.Traced`). Each production passes this on from its parts to its phrase
(`Production.traced`), so it holds of all parts of a tree that is parsed from a source text
(`parse_traced`).
-/
namespace Offside

open Text Literal

/-- Somewhere among tokens a point stands, and directly behind it the name of a member. -/
def MemberWritten (tokens : List Token) (id : String) : Prop :=
  ∃ point token, [point, token] <:+: tokens ∧ point.isText "." = true ∧ token.kind = .name ∧
    token.value = id

/-- Somewhere among tokens a star stands, and directly behind it an expression at the power of
targets. It takes in an operator between operands only if a parenthesis opens there. -/
def StarWritten (tokens : List Token) (value : Expr) : Prop :=
  ∃ star inside behind, star :: inside <:+ tokens ∧ star.isText "*" = true ∧
    Covers [.expr Power.target value] inside behind ∧
    (value.isJoined = true → (Token.front inside).isText "(" = true)

/-- The expression is starred. -/
@[simp] def Expr.isStarred : Expr → Bool
  | .starred .. => true
  | .boolOp .. | .binOp .. | .unaryOp .. | .lambda .. | .ifExp .. | .dict .. | .set _
  | .listComp .. | .setComp .. | .dictComp .. | .generator .. | .await _ | .yield _ | .yieldFrom _
  | .compare .. | .call .. | .num _ | .str _ | .bytes _ | .constant _ | .ellipsis | .attribute ..
  | .subscript .. | .name .. | .list .. | .tuple .. => false

/-- If the expression is starred, its star is written. -/
structure Expr.StarTraced (tokens : List Token) (operand : Expr) : Prop where
  /-- The star of a starred expression is written. -/
  written : ∀ value context, operand = .starred value context → StarWritten tokens value

/-- An expression that is not starred has no star. -/
@[simp] theorem Expr.starTraced_of_unstarred {tokens : List Token} {operand : Expr}
    (unstarred : ¬operand.isStarred) : operand.StarTraced tokens := by
  constructor
  rintro value context rfl
  exact absurd rfl unstarred

/-- Words that name something are not reserved, a member is written behind a point, and starred
operands are written with a star. -/
structure Part.Traced (tokens : List Token) (part : Part) : Prop where
  /-- Words that name something are not reserved. -/
  words : ∀ word ∈ part.words, isReserved word = false
  /-- A member is written behind a point. -/
  member : ∀ id ∈ part.member?, MemberWritten tokens id
  /-- Starred operands are written with a star. -/
  operands : ∀ operand ∈ part.operands, operand.StarTraced tokens

/-- The conditions of a part, one by one. -/
theorem Part.traced_iff {tokens : List Token} {part : Part} :
    part.Traced tokens ↔ (∀ word ∈ part.words, isReserved word = false) ∧
      (∀ id ∈ part.member?, MemberWritten tokens id) ∧
      ∀ operand ∈ part.operands, operand.StarTraced tokens :=
  ⟨fun traced => ⟨traced.words, traced.member, traced.operands⟩, fun traced =>
    ⟨traced.1, traced.2.1, traced.2.2⟩⟩

section parts

variable {tokens : List Token}

/-- The conditions of an expression. -/
@[simp] theorem Part.expr_traced (value : Expr) :
    (Part.expr value).Traced tokens ↔ (∀ word ∈ value.words, isReserved word = false) ∧
      (∀ id ∈ value.member?, MemberWritten tokens id) ∧
      ∀ operand ∈ value.operands, operand.StarTraced tokens :=
  Part.traced_iff

/-- A statement has words. -/
@[simp] theorem Part.stmt_traced (value : Stmt) :
    (Part.stmt value).Traced tokens ↔ ∀ word ∈ value.words, isReserved word = false := by
  simp [Part.traced_iff, Part.words, Part.member?, Part.operands]

/-- A parameter has a word. -/
@[simp] theorem Part.arg_traced (value : Arg) :
    (Part.arg value).Traced tokens ↔ isReserved value.name = false := by
  simp [Part.traced_iff, Part.words, Part.member?, Part.operands]

/-- A named argument may have a word. -/
@[simp] theorem Part.keyword_traced (value : Keyword) :
    (Part.keyword value).Traced tokens ↔ ∀ word ∈ value.name, isReserved word = false := by
  simp [Part.traced_iff, Part.words, Part.member?, Part.operands]

/-- An imported name has words, and may have another one. -/
@[simp] theorem Part.imported_traced (value : Alias) :
    (Part.imported value).Traced tokens ↔
      (∀ word ∈ dottedWords value.name, isReserved word = false) ∧
        ∀ word ∈ value.asname, isReserved word = false := by
  simp [Part.traced_iff, Part.words, Part.member?, Part.operands, or_imp, forall_and]

/-- A handler may have a word. -/
@[simp] theorem Part.handler_traced (value : ExceptHandler) :
    (Part.handler value).Traced tokens ↔ ∀ word ∈ value.name, isReserved word = false := by
  simp [Part.traced_iff, Part.words, Part.member?, Part.operands]

/-- The other parts have neither words nor operands. -/
@[simp] theorem Part.other_traced :
    (∀ root, (Part.root root).Traced tokens) ∧ (∀ slice, (Part.slice slice).Traced tokens) ∧
      (∀ parameters, (Part.arguments parameters).Traced tokens) ∧
      (∀ item, (Part.withItem item).Traced tokens) ∧
      ∀ clause, (Part.comprehension clause).Traced tokens := by
  simp [Part.traced_iff, Part.words, Part.member?, Part.operands]

end parts

/-- All parts of an expression are traced, and so is its star if it is starred. -/
@[simp] def Expr.Loose (tokens : List Token) (value : Expr) : Prop :=
  value.All (Part.Traced tokens) ∧ value.StarTraced tokens

/-- All parts of the arguments of a call are traced. -/
@[simp] def CallArguments.Traced (tokens : List Token) (found : CallArguments) : Prop :=
  (∀ value ∈ found.positional, value.All (Part.Traced tokens)) ∧
    ∀ keyword ∈ found.keywords, keyword.All (Part.Traced tokens)

/-- All parts of a condition and of its block are traced. -/
@[simp] def BranchTraced (tokens : List Token) (branch : Expr × List Stmt) : Prop :=
  branch.1.All (Part.Traced tokens) ∧ ∀ stmt ∈ branch.2, stmt.All (Part.Traced tokens)

namespace Phrase

/-- What has been found before a phrase goes on is traced. -/
@[simp] def GivenTraced (tokens : List Token) : Phrase → Prop
  | .climb _ left _ | .join _ left _ => left.expr.Loose tokens
  | .moreTargets found _ | .deleteTargets found _ | .conditions found _ | .elements found _
  | .members found _ | .tuple _ found _ | .decorators found _ | .functionDef _ _ found _
  | .compound found _ => ∀ value ∈ found, value.All (Part.Traced tokens)
  | .pairs keys values _ =>
    (∀ key ∈ keys, optionalAll (Part.Traced tokens) key) ∧
      ∀ value ∈ values, value.All (Part.Traced tokens)
  | .dimensions found _ _ => ∀ slice ∈ found, slice.All (Part.Traced tokens)
  | .argument found _ | .arguments found _ => found.Traced tokens
  | .nextParameter _ found _ | .parameters _ found _ =>
    found.parameters.All (Part.Traced tokens)
  | .assignment found value _ _ =>
    (∀ target ∈ found, target.All (Part.Traced tokens)) ∧ value.All (Part.Traced tokens)
  | .names found _ => ∀ name ∈ found, isReserved name = false
  | .dotted found _ => ∀ word ∈ dottedWords found, isReserved word = false
  | .modules found _ | .importedNames _ found _ =>
    ∀ imported ∈ found, (Part.imported imported).Traced tokens
  | .moreSmall found _ | .block found _ | .body found _ =>
    ∀ stmt ∈ found, stmt.All (Part.Traced tokens)
  | .withItems found _ => ∀ item ∈ found, item.All (Part.Traced tokens)
  | .elifs found _ => ∀ branch ∈ found, BranchTraced tokens branch
  | .handlers found _ => ∀ handler ∈ found, handler.All (Part.Traced tokens)
  | .operand .. | .start _ | .optionalOperand .. | .optional .. | .expr .. | .optionalTarget ..
  | .target .. | .forIn .. | .clause _ | .braces _ | .pair .. | .comparison _ | .dimension _
  | .parameter .. | .default _ | .dottedName _ | .asName _ | .points .. | .importedList _
  | .small _ | .line _ | .suite _ | .colonSuite _ | .optionalSuite .. | .returns _
  | .classArguments _ | .forLoop .. | .withItem _ | .withBlock .. | .condition .. | .handler _
  | .statement _ | .lineEnds | .root _ => True

/-- What a phrase makes is traced. -/
@[simp] def MadeTraced (tokens : List Token) : Phrase → Prop
  | .operand _ out | .start out | .climb _ _ out | .join _ _ out | .elements _ out | .braces out
  | .pairs _ _ out | .members _ out => out.expr.Loose tokens
  | .optionalOperand _ out => ∀ parsed ∈ out, parsed.expr.Loose tokens
  | .optional _ out =>
    optionalAll (Part.Traced tokens) out ∧ ∀ value ∈ out, value.StarTraced tokens
  | .optionalTarget _ _ out | .default out | .returns out => optionalAll (Part.Traced tokens) out
  | .expr _ out => out.Loose tokens
  | .target _ _ out => out.All (Part.Traced tokens)
  | .moreTargets _ out | .deleteTargets _ out | .conditions _ out | .tuple _ _ out
  | .decorators _ out => ∀ value ∈ out, value.All (Part.Traced tokens)
  | .forIn _ element iter =>
    element.All (Part.Traced tokens) ∧ iter.All (Part.Traced tokens)
  | .clause out => out.All (Part.Traced tokens)
  | .pair key value => optionalAll (Part.Traced tokens) key ∧ value.All (Part.Traced tokens)
  | .dimension out => out.All (Part.Traced tokens)
  | .dimensions _ _ out => ∀ slice ∈ out.1, slice.All (Part.Traced tokens)
  | .argument _ out | .arguments _ out | .classArguments out => out.Traced tokens
  | .parameter _ out => out.All (Part.Traced tokens)
  | .nextParameter _ _ out => out.parameters.All (Part.Traced tokens)
  | .parameters _ _ out => out.All (Part.Traced tokens)
  | .assignment _ _ targets last =>
    (∀ target ∈ targets, target.All (Part.Traced tokens)) ∧ last.All (Part.Traced tokens)
  | .names _ out => ∀ name ∈ out, isReserved name = false
  | .dotted _ out | .dottedName out => ∀ word ∈ dottedWords out, isReserved word = false
  | .asName out => ∀ name ∈ out, isReserved name = false
  | .modules _ out | .importedNames _ _ out | .importedList out =>
    ∀ imported ∈ out, (Part.imported imported).Traced tokens
  | .small out | .functionDef _ _ _ out | .forLoop _ out | .withBlock _ out | .compound _ out =>
    out.All (Part.Traced tokens)
  | .moreSmall _ out | .line out | .block _ out | .suite out | .colonSuite out
  | .optionalSuite _ out | .statement out | .body _ out =>
    ∀ stmt ∈ out, stmt.All (Part.Traced tokens)
  | .withItem out => out.All (Part.Traced tokens)
  | .withItems _ out => ∀ item ∈ out, item.All (Part.Traced tokens)
  | .condition _ test inside => BranchTraced tokens (test, inside)
  | .elifs _ out => ∀ branch ∈ out, BranchTraced tokens branch
  | .handler out => out.All (Part.Traced tokens)
  | .handlers _ out => ∀ handler ∈ out, handler.All (Part.Traced tokens)
  | .root out => out.All (Part.Traced tokens)
  | .comparison _ | .points .. | .lineEnds => True

end Phrase

/-- An identifier is one word that is not reserved. -/
@[simp] def Terminal.Traced : Terminal → Prop
  | .identifier id => isReserved id = false ∧ dottedWords id = [id]
  | .text _ | .word .. | .name _ | .number _ | .string _ | .layout _ | .augmented _ => True

/-- What a symbol makes is traced, if what it was given is. -/
@[simp] def Symbol.Traced (tokens : List Token) : Symbol → Prop
  | .phrase inner => inner.GivenTraced tokens → inner.MadeTraced tokens
  | .terminal inner => inner.Traced
  | .dropped _ => True

section parts

variable {tokens : List Token}

/-- A value that is made a target is traced as the value is. -/
theorem Expr.withContext_traced {context : Context} {value out : Expr}
    (whole : value.All (Part.Traced tokens)) (made : value.withContext context = .ok out) :
    out.All (Part.Traced tokens) := by
  have several {values targets : List Expr}
      (each : List.Forall₂
        (fun value out => value.All (Part.Traced tokens) → out.All (Part.Traced tokens)) values
        targets) (all : exprsAll (Part.Traced tokens) values) :
      exprsAll (Part.Traced tokens) targets := by
    induction each with
    | nil => trivial
    | cons first _ ih => exact ⟨first all.1, ih all.2⟩
  have bare {value : Expr} (words : value.words = []) (member : value.member? = none)
      (operands : value.operands = []) : (Part.expr value).Traced tokens := by
    simp [words, member, operands]
  have relates : Expr.RelatesTargets context
      fun value out => value.All (Part.Traced tokens) → out.All (Part.Traced tokens) :=
    { name := fun id found (whole : (Part.expr (.name id found)).Traced tokens) =>
        ⟨whole.words, whole.member, whole.operands⟩
      member := fun _ _ _ whole => ⟨⟨whole.1.words, whole.1.member, whole.1.operands⟩, whole.2⟩
      subscript := fun _ _ _ whole => ⟨bare rfl rfl rfl, whole.2⟩
      starred := fun _ _ _ inside whole => ⟨bare rfl rfl rfl, inside whole.2⟩
      list := fun _ _ _ each whole => ⟨bare rfl rfl rfl, several each whole.2⟩
      tuple := fun _ _ _ each whole => ⟨bare rfl rfl rfl, several each whole.2⟩ }
  exact Expr.withContext_related relates made whole

/-- A string literal is traced, and it is not starred. -/
@[simp] theorem Literal.Quoted.expr_traced (value : Quoted) : value.expr.Loose tokens := by
  cases value <;>
    simp [Quoted.expr, Expr.All, Expr.words, Expr.member?, Expr.operands]

/-- The element and the clauses of a comprehension without brackets are traced if it is. -/
theorem Parsed.traced_of_clauses {parsed : Parsed} {element : Expr} {clauses : List Comprehension}
    (open_ : parsed.clauses? = some (element, clauses))
    (whole : parsed.expr.All (Part.Traced tokens)) :
    element.All (Part.Traced tokens) ∧ ∀ clause ∈ clauses, clause.All (Part.Traced tokens) := by
  unfold Parsed.clauses? at open_
  split at open_
  · rename_i found rest form same
    obtain ⟨rfl, rfl⟩ := Prod.mk.inj (Option.some.inj open_)
    rw [same, Expr.All, clausesAll_iff] at whole
    exact whole.2
  · contradiction

/-- The slice of dimensions is traced if they are. -/
theorem Slice.ofDimensions_traced {found : List Slice} (commas : Bool)
    (each : ∀ slice ∈ found, slice.All (Part.Traced tokens)) :
    (Slice.ofDimensions found commas).All (Part.Traced tokens) := by
  rcases Slice.ofDimensions_cases found commas with
    ⟨slice, rfl, made⟩ | ⟨values, rfl, made⟩ | ⟨-, made⟩
  · rw [made]
    exact each slice (List.mem_singleton_self slice)
  · rw [made]
    simpa [Slice.All, Expr.All, Expr.words, Expr.member?, Expr.operands] using each
  · rw [made]
    simpa [Slice.All] using each

/-- An annotated target is traced if its parts are. -/
theorem Expr.annotated_traced {target annotation : Expr} {value : Option Expr} {grouped : Bool}
    {out : Stmt} (made : target.annotated? annotation value grouped = some out)
    (whole : target.All (Part.Traced tokens)) (hint : annotation.All (Part.Traced tokens))
    (given : optionalAll (Part.Traced tokens) value) : out.All (Part.Traced tokens) := by
  have node (simple : UInt8) :
      (Part.stmt (.annAssign target annotation value simple)).Traced tokens := by
    simp [Stmt.words]
  unfold Expr.annotated? at made
  split at made
  · contradiction
  · contradiction
  · obtain rfl := Option.some.inj made
    exact ⟨node _, whole, hint, given⟩
  · obtain rfl := Option.some.inj made
    exact ⟨node 0, whole, hint, given⟩

/-- A choice is traced if its parts are. -/
theorem Stmt.choice_traced {test : Expr} {body last : List Stmt}
    {others : List (Expr × List Stmt)} (first : BranchTraced tokens (test, body))
    (further : ∀ branch ∈ others, BranchTraced tokens branch)
    (otherwise : ∀ stmt ∈ last, stmt.All (Part.Traced tokens)) :
    (Stmt.choice test body others last).All (Part.Traced tokens) := by
  have node (test : Expr) (body orelse : List Stmt) :
      (Part.stmt (.ifElse test body orelse)).Traced tokens := by
    simp [Stmt.words]
  induction others generalizing test body with
  | nil =>
    simp only [Stmt.choice, List.foldr_nil, Stmt.All, stmtsAll_iff]
    exact ⟨node _ _ _, first.1, first.2, otherwise⟩
  | cons branch rest ih =>
    obtain ⟨here, later⟩ := List.forall_mem_cons.1 further
    have inner : (Stmt.choice branch.1 branch.2 rest last).All (Part.Traced tokens) :=
      ih here later
    simp only [Stmt.choice, List.foldr_cons, Stmt.All, stmtsAll_iff,
      List.forall_mem_singleton] at inner ⊢
    exact ⟨node _ _ _, first.1, first.2, inner⟩

/-- Traced parameters stay such with a further parameter. -/
theorem ExprProduction.nextParameter_traced {signature : Signature} {found out : Collected}
    {body : List Symbol} (production : ExprProduction (.nextParameter signature found out) body)
    (parts : body.Forall (Symbol.Traced tokens))
    (given : found.parameters.All (Part.Traced tokens)) :
    out.parameters.All (Part.Traced tokens) := by
  rw [Arguments.all_iff] at given ⊢
  refine ⟨by simp, ?_⟩
  cases production with
  | bareStar => exact given.2
  | starParameter | doubleStarParameter =>
    simp [optionalArgAll] at parts given ⊢
    grind
  | namedParameter | defaultParameter | plainParameter =>
    simp [optionalAll, or_imp, forall_and] at parts given ⊢
    grind

/-- What a production of an expression makes is traced. -/
theorem ExprProduction.traced {phrase : Phrase} {body : List Symbol} {dropped : List Expr}
    {ahead behind : List Token} (production : ExprProduction phrase body)
    (within : ahead <:+ tokens) (inside : Derives body dropped ahead behind)
    (parts : body.Forall (Symbol.Traced tokens)) : (Symbol.phrase phrase).Traced tokens := by
  cases production
  case starred value =>
    obtain ⟨star, later, rfl, isStar, operand⟩ := inside.of_terminal
    have written : StarWritten tokens value :=
      ⟨star, later, behind, within, isStar, ⟨dropped, operand⟩, operand.joined_of_target⟩
    have here : (Expr.starred value .load).StarTraced tokens := by
      constructor
      rintro value context same
      cases same
      exact written
    simp at parts
    simpa [Parsed.plain, Expr.All, Expr.words, Expr.member?, Expr.operands, here] using parts.1
  case member left id bare =>
    obtain ⟨point, later, rfl, isPoint, named⟩ := inside.of_terminal
    obtain ⟨token, rest, rfl, ⟨kind, value⟩, -⟩ := named.of_terminal
    have front : [point, token] <+: point :: token :: rest := List.prefix_append [point, token] rest
    have written : MemberWritten tokens id :=
      ⟨point, token, front.isInfix.trans within.isInfix, isPoint, kind, value⟩
    rintro ⟨whole, star⟩
    simpa [Parsed.plain, Expr.All, Expr.words, Expr.member?, Expr.operands]
      using ⟨⟨written, star⟩, whole⟩
  case string value => exact fun _ => value.expr_traced
  case someTarget fits =>
    simp [optionalAll] at parts ⊢
    exact Expr.withContext_traced parts.1 fits
  case furtherClause open_ =>
    simp at parts
    rintro ⟨whole, -⟩
    have found := Parsed.traced_of_clauses open_ whole
    simpa [Parsed.comprehension, Expr.All, Expr.words, Expr.member?, Expr.operands, or_imp,
      forall_and, parts] using found
  case listComprehension open_ =>
    simp at parts
    have found := Parsed.traced_of_clauses open_ parts.1
    intro earlier
    simpa [Parsed.plain, Expr.All, Expr.words, Expr.member?, Expr.operands] using found
  case setComprehension open_ =>
    simp at parts
    have found := Parsed.traced_of_clauses open_ parts.1
    simpa [Parsed.plain, Expr.All, Expr.words, Expr.member?, Expr.operands] using found
  case dictComprehension open_ =>
    simp at parts
    have found := Parsed.traced_of_clauses open_ parts.2.1
    simpa [Parsed.plain, Expr.All, Expr.words, Expr.member?, Expr.operands]
      using ⟨parts.1.1, found.1, found.2⟩
  case generatorArgument open_ =>
    simp at parts
    have found := Parsed.traced_of_clauses open_ parts.1
    rintro ⟨positional, keywords⟩
    simpa [CallArguments.addPositional, Expr.All, Expr.words, Expr.member?, Expr.operands, or_imp,
      forall_and]
      using ⟨⟨positional, found⟩, keywords⟩
  case keywordArgument named =>
    rw [List.forall_cons, Symbol.operand] at parts
    simp [named, Expr.All, Expr.words] at parts
    rintro ⟨positional, keywords⟩
    simpa [CallArguments.addKeyword, Keyword.All, or_imp, forall_and]
      using ⟨positional, keywords, parts.1.1, parts.2.1⟩
  case subscript commas bare =>
    simp at parts
    rintro ⟨whole, -⟩
    have slice := Slice.ofDimensions_traced commas parts
    simpa [Parsed.plain, Expr.All, Expr.words, Expr.member?, Expr.operands] using ⟨whole, slice⟩
  case starParameter first fresh => exact nextParameter_traced (.starParameter first fresh) parts
  case doubleStarParameter fresh => exact nextParameter_traced (.doubleStarParameter fresh) parts
  case namedParameter behind => exact nextParameter_traced (.namedParameter behind) parts
  case defaultParameter before => exact nextParameter_traced (.defaultParameter before) parts
  case plainParameter before first =>
    exact nextParameter_traced (.plainParameter before first) parts
  case lambda =>
    simp [Arguments.all_iff, Arguments.none, optionalArgAll] at parts
    simpa [Parsed.plain, Expr.All, Arguments.all_iff, Expr.words, Expr.member?, Expr.operands]
      using ⟨parts.1, parts.2.1⟩
  -- The other productions put their parts together as they are.
  all_goals
    simp [Parsed.plain, Parsed.comprehension, Expr.All, Slice.All, Arg.All, Keyword.All,
      Comprehension.All, Expr.words, Expr.member?, Expr.operands, CallArguments.addPositional,
      CallArguments.addKeyword, optionalAll, or_imp, forall_and] at parts ⊢
  all_goals grind

/-- What a production of a statement within a line makes is traced. -/
theorem StmtProduction.small_traced {out : Stmt} {body : List Symbol}
    (production : StmtProduction (.small out) body) (parts : body.Forall (Symbol.Traced tokens)) :
    out.All (Part.Traced tokens) := by
  cases production
  case assign fits | augment fits =>
    simp [Stmt.All, Stmt.words] at parts ⊢
    have target := Expr.withContext_traced parts.1.1 fits
    grind
  case annotate fits made =>
    simp at parts
    obtain ⟨whole, hint⟩ := parts
    exact Expr.annotated_traced made (Expr.withContext_traced whole.1 fits) hint.1 trivial
  case annotateAssign fits made =>
    simp at parts
    obtain ⟨whole, hint, next, goesOn⟩ := parts
    obtain ⟨target, value⟩ := goesOn (Expr.withContext_traced whole.1 fits) next.1
    exact Expr.annotated_traced made target hint.1 value
  -- The other statements are put together from their parts as they are.
  all_goals
    simp [Stmt.All, aliasesAll, optionalAll, Stmt.words, forall_and] at parts ⊢
  all_goals grind

/-- What a production of a statement with blocks makes is traced. -/
theorem StmtProduction.compound_traced {decorators : List Expr} {out : Stmt} {body : List Symbol}
    (production : StmtProduction (.compound decorators out) body)
    (parts : body.Forall (Symbol.Traced tokens)) :
    (Symbol.phrase (.compound decorators out)).Traced tokens := by
  cases production
  case choice =>
    simp at parts
    obtain ⟨first, further, otherwise⟩ := parts
    exact fun _ => Stmt.choice_traced first (by simpa using further) otherwise
  -- The other statements are put together from their parts as they are.
  all_goals
    simp [Stmt.All, Stmt.words, forall_and] at parts ⊢
  all_goals grind

/-- What a production of a statement makes is traced. -/
theorem StmtProduction.traced {phrase : Phrase} {body : List Symbol}
    (production : StmtProduction phrase body) (parts : body.Forall (Symbol.Traced tokens)) :
    (Symbol.phrase phrase).Traced tokens := by
  cases phrase
  case small => exact fun _ => production.small_traced parts
  case compound => exact production.compound_traced parts
  all_goals cases production
  case importStar =>
    have word : dottedWords "*" = ["*"] := dottedWords_of_plain (by decide)
    have free : isReserved "*" = false := by decide
    simp [word, free]
  case assignment fits =>
    simp [or_imp, forall_and] at parts
    rintro ⟨found, whole⟩
    obtain ⟨next, targets, last⟩ := parts
    have target := Expr.withContext_traced whole fits
    exact ⟨targets found target next.1, last found target next.1⟩
  -- The other productions put their parts together as they are.
  all_goals
    simp [Stmt.All, ExceptHandler.All, WithItem.All, Arguments.all_iff, Arguments.none,
      optionalArgAll, optionalAll, Root.All, Stmt.words, or_imp, forall_and] at parts ⊢
  all_goals grind

/-- What a production makes is traced. -/
theorem Production.traced {phrase : Phrase} {body : List Symbol} {dropped : List Expr}
    {ahead behind : List Token} (production : Production phrase body) (within : ahead <:+ tokens)
    (inside : Derives body dropped ahead behind) (parts : ∀ symbol ∈ body, symbol.Traced tokens) :
    (Symbol.phrase phrase).Traced tokens := by
  rw [← List.forall_iff_forall_mem] at parts
  cases production with
  | expr production => exact production.traced within inside parts
  | stmt production => exact production.traced parts

/-- An identifier that a plain token is read as is one word that is not reserved. -/
theorem Terminal.traced_of_admits {terminal : Terminal} {token : Token} (plain : token.IsPlain)
    (admits : Terminal.Admits token terminal) : terminal.Traced := by
  cases terminal with
  | identifier id =>
    obtain ⟨kind, rfl, free⟩ := admits
    have noPoint : '.' ∉ token.value.toList := by
      intro point
      have part : isNamePart '.' = true := plain kind '.' point
      contradiction
    exact ⟨free, dottedWords_of_plain noPoint⟩
  | text | word | name | number | string | layout | augmented => trivial

end parts

/-- Each part of a tree that a source text is parsed as is traced in its tokens. -/
theorem parse_traced {source : String} {file : Option String} {mode : Mode} {root : Root}
    (parsed : parse source file mode = .ok root) :
    ∀ part ∈ root.walk everyPart,
      part.Traced ((Stream.ofSource source file).tokens.filter Token.isSignificant) := by
  obtain ⟨between, dropped, derives⟩ := parse_covers parsed
  have plain := Token.holdsOfSteps_isPlain.ofSource source file
  have whole := derives.invariant_of_admits (Symbol.Traced _)
    (fun terminal token member admits =>
      Terminal.traced_of_admits (plain token (List.mem_filter.1 member).1) admits)
    (fun _ => trivial)
    (fun _ _ _ _ _ production within inside parts => production.traced within inside parts)
    (List.suffix_refl _)
  exact (Root.all_iff root).1 (whole _ List.mem_cons_self trivial)

end Offside
