import Offside.Proofs.Grammar.MirrorExpressions
import Offside.Proofs.Grammar.Modules
import Offside.Proofs.Grammar.Pairs

/-!
# Expressions in step

The rules of expressions go in step, if what reads the operands inside does. At a seam an operand
cannot start, so that a rule that would look there for the mark of the other text does not get that
far. By induction on the depth operands of any depth go in step (`Inner.pairs_upTo`).
-/
namespace Offside

open Parse Literal

/-- The entries in braces with each word in them renamed. -/
def Inner.Entries.relabel (word : String → String) (entries : Inner.Entries) : Inner.Entries :=
  ⟨entries.keyed, relabelKeys word entries.keys, relabelExprs word entries.values⟩

/-- Parameters that are being collected with each word in them renamed. -/
def Collected.relabel (word : String → String) (collected : Collected) : Collected :=
  ⟨collected.parameters.relabel word, collected.starred⟩

/-- The arguments of a call with each word in them renamed. -/
def CallArguments.relabel (word : String → String) (found : CallArguments) : CallArguments :=
  ⟨relabelExprs word found.positional, relabelKeywords word found.keywords⟩

/-- What reads operands goes in step. -/
structure Inner.Pairs (pairing : Pairing) (room : Nat) (inner other : Inner) : Prop where
  /-- The bound on the other side is enough. -/
  bound : pairing.Enough room inner.bound other.bound
  /-- Operands are renamed. -/
  operand (power : Power) : (inner.operand power).Pairs pairing room
    (Carries (Parsed.relabel pairing.rename.word)) (other.operand power)
  /-- At a seam there is no operand. -/
  stuck (power : Power) {state : State} (standard : state.grammar = .standard)
    (seam : state.current.kind = .newline) (out : Parsed) (behind : State) :
    inner.operand power state ≠ .ok out behind

variable {pairing : Pairing} {room : Nat}

/-- What goes in step with more room does so with less. -/
theorem Inner.Pairs.less {less : Nat} {inner other : Inner} (alike : inner.Pairs pairing room other)
    (fewer : less ≤ room) : inner.Pairs pairing less other :=
  ⟨alike.bound.less fewer, fun power => (alike.operand power).less fewer, alike.stuck⟩

namespace Inner

variable {inner other : Inner} (alike : inner.Pairs pairing room other) {left : Parsed}

section forms

include alike

/-- An operand, if one may start here. -/
theorem optionalOperand_pairs (power : Power) :
    (inner.optionalOperand power).Pairs pairing room
      (Carries (Option.map (Parsed.relabel pairing.rename.word))) (other.optionalOperand power) := by
  refine .atDelimiter fun ended => ?_
  cases ended with
  | true => exact .pure rfl
  | false =>
    refine .check (pairing.tells rfl) fun comma => .ite (fun _ => .pure rfl) fun _ => ?_
    exact (alike.operand power).bind_carried fun parsed => .pure rfl

/-- An expression, if one may start here. -/
theorem optionalExpr_pairs (power : Power) :
    (inner.optionalExpr power).Pairs pairing room
      (Carries (relabelOptional pairing.rename.word)) (other.optionalExpr power) := by
  refine (optionalOperand_pairs alike power).bind_carried fun found => ?_
  cases found with
  | none => exact .pure rfl
  | some parsed => exact .finish (.pure rfl)

/-- An expression. -/
theorem expr_pairs (power : Power) :
    (inner.expr power).Pairs pairing room (Carries (Expr.relabel pairing.rename.word))
      (other.expr power) := by
  refine (optionalExpr_pairs alike power).bind_carried fun found => ?_
  cases found with
  | none => exact failExpression_pairs
  | some expr => exact .pure rfl

/-- A target, if an expression may start here. -/
theorem optionalTarget_pairs (context : Context) (power : Power) :
    (inner.optionalTarget context power).Pairs pairing room
      (Carries (relabelOptional pairing.rename.word)) (other.optionalTarget context power) := by
  refine (optionalExpr_pairs alike power).bind_carried fun found => ?_
  cases found with
  | none => exact .pure rfl
  | some expr => exact .lift (Expr.withContext_relabel _ _ _) fun target _ => .pure rfl

/-- The target of a loop or a clause. -/
theorem loopTarget_pairs :
    inner.loopTarget.Pairs pairing room (Carries (Expr.relabel pairing.rename.word))
      other.loopTarget := by
  refine (optionalTarget_pairs alike _ _).bind_carried fun found => ?_
  cases found with
  | none => exact failExpression_pairs
  | some target => exact .pure rfl

/-- The further targets of a loop or a clause. -/
theorem moreTargets_pairs (first : Expr) :
    (inner.moreTargets first).Pairs pairing room (Carries (relabelExprs pairing.rename.word))
      (other.moreTargets (first.relabel pairing.rename.word)) := by
  refine .loop_carried (relabelExprs pairing.rename.word) (fun targets => ?_) alike.bound
  refine .eat (pairing.tells rfl) ?_ (.ended rfl)
  refine .check (pairing.tells rfl) fun ended => ?_
  cases ended with
  | true => exact .pure (.done rfl)
  | false =>
    exact (loopTarget_pairs alike).bind_carried fun target => .pure (.again (by simp [Carries]))

/-- The target of a loop or a clause and what it runs over. -/
theorem forIn_pairs (power : Power) :
    (inner.forIn power).Pairs pairing room
      (Carries (Prod.map (Expr.relabel pairing.rename.word) (Expr.relabel pairing.rename.word)))
      (other.forIn power) := by
  have rest (target : Expr) : (do
      let _ ← expect "in"
      return (target, ← inner.expr power) : Parse (Expr × Expr)).Pairs pairing room
      (Carries (Prod.map (Expr.relabel pairing.rename.word) (Expr.relabel pairing.rename.word))) (do
      let _ ← expect "in"
      return (target.relabel pairing.rename.word, ← other.expr power)) :=
    .expect rfl fun _ _ => (expr_pairs alike power).bind_carried fun iter => .pure rfl
  refine (loopTarget_pairs alike).bind_carried fun first => ?_
  refine .check (pairing.tells rfl) fun several => ?_
  cases several with
  | true => exact (moreTargets_pairs alike first).bind_carried fun targets => rest _
  | false => exact rest first

end forms

section parameters

include alike

/-- A parameter with its annotation. -/
theorem parameter_pairs (signature : Signature) :
    (inner.parameter signature).Pairs pairing room (Carries (Arg.relabel pairing.rename.word))
      (other.parameter signature) := by
  refine .expectName fun name left within state start beside => ?_
  refine .check beside (pairing.tells rfl) (.ite (fun colon => ?_) fun _ => .pure beside rfl)
  rw [Bool.and_eq_true] at colon
  refine .advance beside (beside.inside_of_isText colon.2) fun less between onward fewer => ?_
  have annotated : (do return ⟨name, some (← inner.expr Power.untilComma)⟩ : Parse Arg).Pairs
      pairing room (Carries (Arg.relabel pairing.rename.word))
      (do return ⟨pairing.rename.word name, some (← other.expr Power.untilComma)⟩) :=
    (expr_pairs alike _).bind_carried fun annotation => .pure rfl
  exact annotated less (Nat.le_trans (Nat.le_of_lt fewer) within) between onward

/-- A default. -/
theorem parameterDefault_pairs :
    inner.parameterDefault.Pairs pairing room (Carries (relabelOptional pairing.rename.word))
      other.parameterDefault := by
  refine .eat (pairing.tells rfl) ?_ (.pure rfl)
  exact (expr_pairs alike _).bind_carried fun value => .pure rfl

/-- The parameter behind a star. -/
theorem starParameter_pairs (signature : Signature) (found : Collected) :
    (inner.starParameter signature found).Pairs pairing room
      (Carries (Collected.relabel pairing.rename.word))
      (other.starParameter signature (found.relabel pairing.rename.word)) := by
  obtain ⟨⟨args, vararg, kwonlyargs, kwDefaults, kwarg, defaults⟩, starred⟩ := found
  refine .ite (fun _ => .fail (.refl _)) fun _ => .check (pairing.tells rfl) fun comma => ?_
  refine .ite (fun _ => .pure rfl) fun _ => ?_
  exact (parameter_pairs alike signature).bind_carried fun arg => .pure rfl

/-- The parameter behind two stars. -/
theorem doubleStarParameter_pairs (signature : Signature) (found : Collected) :
    (inner.doubleStarParameter signature found).Pairs pairing room
      (Carries (Collected.relabel pairing.rename.word))
      (other.doubleStarParameter signature (found.relabel pairing.rename.word)) := by
  obtain ⟨⟨args, vararg, kwonlyargs, kwDefaults, kwarg, defaults⟩, starred⟩ := found
  exact (parameter_pairs alike signature).bind_carried fun _ => .pure rfl

/-- A parameter without a star. -/
theorem plainParameter_pairs (signature : Signature) (found : Collected) :
    (inner.plainParameter signature found).Pairs pairing room
      (Carries (Collected.relabel pairing.rename.word))
      (other.plainParameter signature (found.relabel pairing.rename.word)) := by
  obtain ⟨⟨args, vararg, kwonlyargs, kwDefaults, kwarg, defaults⟩, starred⟩ := found
  refine (parameter_pairs alike signature).bind_carried fun arg => ?_
  refine (parameterDefault_pairs alike).bind_carried fun given => ?_
  have gathered {made other : Arguments} (same : other = made.relabel pairing.rename.word) :
      Carries (Collected.relabel pairing.rename.word) ⟨made, starred⟩ ⟨other, starred⟩ := by
    rw [same]
    rfl
  refine .ite (fun _ => .pure (gathered ?_)) fun _ => ?_
  · simp [Arguments.relabel, Collected.relabel]
  · cases given with
    | some value => exact .pure (gathered (by simp [Arguments.relabel, Collected.relabel]))
    | none =>
      cases defaults with
      | nil => exact .pure (gathered (by simp [Collected.relabel, Arguments.relabel]))
      | cons value rest => exact .fail (.refl _)

/-- The parameter in front. -/
theorem nextParameter_pairs (signature : Signature) (found : Collected) :
    (inner.nextParameter signature found).Pairs pairing room
      (Carries (Collected.relabel pairing.rename.word))
      (other.nextParameter signature (found.relabel pairing.rename.word)) := by
  have same : (found.relabel pairing.rename.word).parameters.kwarg.isSome =
      found.parameters.kwarg.isSome := by
    obtain ⟨⟨args, vararg, kwonlyargs, kwDefaults, kwarg, defaults⟩, starred⟩ := found
    cases kwarg <;> rfl
  unfold nextParameter
  rw [same]
  refine .ite (fun _ => ?_) fun _ => .eat (pairing.tells rfl) ?_ (.eat (pairing.tells rfl) ?_ ?_)
  · refine .check (pairing.tells rfl) fun again => ?_
    exact .ite (fun _ => .fail (.refl _)) fun _ => .fail (.refl _)
  · exact starParameter_pairs alike signature found
  · exact doubleStarParameter_pairs alike signature found
  · exact plainParameter_pairs alike signature found

/-- Parameters. -/
theorem parameters_pairs {signature : Signature} (closes : pairing.Tells signature.closing) :
    (inner.parameters signature).Pairs pairing room (Carries (Arguments.relabel pairing.rename.word))
      (other.parameters signature) := by
  refine .loop_carried (Collected.relabel pairing.rename.word) (fun found => ?_) alike.bound
  have gathered (found : Collected) : (found.relabel pairing.rename.word).parameters =
      found.parameters.relabel pairing.rename.word := rfl
  refine .check closes fun ended => ?_
  cases ended with
  | true => exact .ended rfl
  | false =>
    refine .bind_carried (nextParameter_pairs alike signature found) fun more => ?_
    exact .eat (pairing.tells rfl) (.pure (.again rfl)) (.ended rfl)

end parameters

section starts

/-- A name. -/
theorem nameRule_pairs :
    nameRule.Pairs pairing room (Carries (Parsed.relabel pairing.rename.word)) nameRule := by
  intro left within state start beside
  refine .current ?_
  rcases beside.current_cases with tokens | ⟨seam, -, ends, -⟩
  · rw [tokens.kind, tokens.isKeyword]
    refine .ite (fun named => ?_) fun _ => failExpression_pairs left within state start beside
    have kind : state.current.kind = .name := by
      rw [Bool.and_eq_true, decide_eq_true_eq] at named
      exact named.1
    obtain ⟨inside, renamed⟩ := beside.name_in_front kind
    refine .advance beside inside fun less between onward _ behind => .pure behind ?_
    rw [renamed]
    rfl
  · refine .of_stuck seam fun out behind => ?_
    rw [ends]
    exact failExpression_fails.ne

/-- A number literal. -/
theorem numberRule_leads :
    numberRule.Leads pairing room (Carries (Parsed.relabel pairing.rename.word)) numberRule := by
  refine .current fun token found _ same => ?_
  rw [same]
  refine .lift id ?_ fun value _ => .advance fun _ _ _ _ => .pure rfl
  cases decodeNumber token.value <;> rfl

/-- A string literal. -/
theorem stringRule_leads :
    stringRule.Leads pairing room (Carries (Parsed.relabel pairing.rename.word)) stringRule := by
  refine .current fun token found _ same => ?_
  rw [same]
  refine .lift id ?_ fun value _ => .advance fun _ _ _ _ => .pure ?_
  · cases decodeString token.value <;> rfl
  · cases value <;> rfl

/-- Three points. -/
theorem ellipsisRule_leads :
    ellipsisRule.Leads pairing room (Carries (Parsed.relabel pairing.rename.word)) ellipsisRule :=
  .advance fun _ _ _ _ => .pure rfl

/-- A constant. -/
theorem constantRule_leads :
    constantRule.Leads pairing room (Carries (Parsed.relabel pairing.rename.word)) constantRule := by
  refine .advance fun token found _ same => ?_
  rw [same]
  exact .pure rfl

include alike

/-- An operator before its operand. -/
theorem unaryRule_leads :
    inner.unaryRule.Leads pairing room (Carries (Parsed.relabel pairing.rename.word))
      other.unaryRule := by
  refine .advance fun token found _ same => ?_
  rw [same]
  exact (expr_pairs alike _).bind_carried fun operand => .pure rfl

/-- A star before an expression. -/
theorem starredRule_leads :
    inner.starredRule.Leads pairing room (Carries (Parsed.relabel pairing.rename.word))
      other.starredRule :=
  .advance fun _ _ _ _ => (expr_pairs alike _).bind_carried fun _ => .pure rfl

/-- The word await. -/
theorem awaitRule_leads :
    inner.awaitRule.Leads pairing room (Carries (Parsed.relabel pairing.rename.word))
      other.awaitRule :=
  .advance fun _ _ _ _ => (expr_pairs alike _).bind_carried fun _ => .pure rfl

/-- The word yield. -/
theorem yieldRule_leads :
    inner.yieldRule.Leads pairing room (Carries (Parsed.relabel pairing.rename.word))
      other.yieldRule := by
  refine .advance fun _ _ _ _ => .eat (pairing.tells rfl) ?_ ?_
  · exact (expr_pairs alike _).bind_carried fun value => .pure rfl
  · exact (optionalExpr_pairs alike _).bind_carried fun value => .pure rfl

/-- A function without a name. -/
theorem lambdaRule_leads :
    inner.lambdaRule.Leads pairing room (Carries (Parsed.relabel pairing.rename.word))
      other.lambdaRule := by
  refine .advance fun _ _ _ _ => ?_
  refine (parameters_pairs alike (pairing.tells rfl)).bind_carried fun parameters => ?_
  exact .expect rfl fun _ _ => (expr_pairs alike _).bind_carried fun body => .pure rfl

/-- Parentheses. At the seam nothing stands behind the first one. -/
theorem groupingRule_leads :
    inner.groupingRule.Leads pairing room (Carries (Parsed.relabel pairing.rename.word))
      other.groupingRule := by
  refine .advance fun _ _ _ _ left within state start beside => ?_
  have grouped : (do
      let parsed ← inner.operand Power.any
      let _ ← expect ")"
      return ⟨parsed.expr, .grouped⟩ : Parse Parsed).Pairs pairing room
      (Carries (Parsed.relabel pairing.rename.word)) (do
      let parsed ← other.operand Power.any
      let _ ← expect ")"
      return ⟨parsed.expr, .grouped⟩) :=
    (alike.operand _).bind_carried fun parsed => .expect rfl fun _ _ => .pure rfl
  refine .eat_or_stuck beside rfl (fun _ _ _ _ behind => .pure behind rfl)
    (grouped left within state start beside) fun ends out behind read => ?_
  obtain ⟨parsed, between, first, -⟩ := bind_ok read
  exact alike.stuck _ beside.grammar ends parsed between first

/-- Square brackets. -/
theorem listRule_leads :
    inner.listRule.Leads pairing room (Carries (Parsed.relabel pairing.rename.word))
      other.listRule := by
  refine .advance fun _ _ _ _ => ?_
  refine .loop_carried (relabelExprs pairing.rename.word) (fun elements => ?_) alike.bound
  refine .eat (pairing.tells rfl) (.pure (.done rfl)) ?_
  refine .bind_carried (alike.operand _) fun parsed => ?_
  rw [Parsed.relabel_clauses?]
  cases parsed.clauses? with
  | some found => exact .of_pairs (.expect rfl fun _ _ => .pure (.done rfl))
  | none =>
    refine .finish (.eat (pairing.tells rfl) (.pure (.again ?_)) (.of_pairs ?_))
    · simp [Carries]
    · exact .expect rfl fun _ _ => .pure (.done (by simp [Carries, Parsed.relabel, Parsed.plain, Expr.relabel]))

omit alike in
/-- The end of a comprehension in braces. -/
theorem closeComprehension_pairs {again : Entries → Entries → Prop} (expr : Expr) :
    (closeComprehension expr).Pairs pairing room
      (Turn.Related again (Carries (Expr.relabel pairing.rename.word)))
      (closeComprehension (expr.relabel pairing.rename.word)) :=
  .expect rfl fun _ _ => .pure (.done rfl)

/-- The value behind a key. -/
theorem keyedEntry_pairs (entries : Entries) (key : Expr) :
    (inner.keyedEntry entries key).Pairs pairing room
      (Turn.Related (Carries (Entries.relabel pairing.rename.word))
        (Carries (Expr.relabel pairing.rename.word)))
      (other.keyedEntry (entries.relabel pairing.rename.word) (key.relabel pairing.rename.word)) := by
  refine .expect rfl fun _ _ => (alike.operand _).bind_carried fun parsed => ?_
  obtain ⟨keyed, keys, values⟩ := entries
  rw [Parsed.relabel_clauses?]
  cases parsed.clauses? with
  | some found =>
    cases keys with
    | nil => exact closeComprehension_pairs _
    | cons => exact .fail (.refl _)
  | none =>
    exact .finish (.pure (.again (by simp [Carries, Entries.relabel])))

/-- An entry in braces. -/
theorem entry_pairs (entries : Entries) :
    (inner.entry entries).Pairs pairing room
      (Turn.Related (Carries (Entries.relabel pairing.rename.word))
        (Carries (Expr.relabel pairing.rename.word)))
      (other.entry (entries.relabel pairing.rename.word)) := by
  refine .check (pairing.tells rfl) fun stars => .ite (fun _ => .fail (.refl _)) fun _ => ?_
  refine .eat (pairing.tells rfl) ?_ ?_
  · refine (expr_pairs alike _).bind_carried fun value => .pure (.again ?_)
    simp [Carries, Entries.relabel]
  · have plain (parsed : Parsed) : (do
        let key ← parsed.finish
        if entries.keyed.getD (← check ":") then inner.keyedEntry entries key
        else return .again ⟨some false, entries.keys, entries.values ++ [key]⟩ :
          Parse (Turn Entries Expr)).Pairs pairing room
        (Turn.Related (Carries (Entries.relabel pairing.rename.word))
          (Carries (Expr.relabel pairing.rename.word))) (do
        let key ← (parsed.relabel pairing.rename.word).finish
        if entries.keyed.getD (← check ":") then
          other.keyedEntry (entries.relabel pairing.rename.word) key
        else return .again ⟨some false, relabelKeys pairing.rename.word entries.keys,
          relabelExprs pairing.rename.word entries.values ++ [key]⟩) := by
      refine .finish (.check (pairing.tells rfl) fun colon => ?_)
      refine .ite (fun _ => keyedEntry_pairs alike _ _) fun _ => .pure (.again ?_)
      simp [Carries, Entries.relabel]
    refine (alike.operand _).bind_carried fun parsed => ?_
    rw [Parsed.relabel_clauses?]
    cases parsed.clauses? with
    | none => exact plain parsed
    | some found =>
      cases keyed : entries.keyed with
      | none =>
        simp only [Entries.relabel, keyed]
        exact closeComprehension_pairs _
      | some known =>
        have keyedPlain := plain parsed
        rw [keyed] at keyedPlain
        simp only [Entries.relabel, keyed]
        exact keyedPlain

/-- Braces. -/
theorem braceRule_leads :
    inner.braceRule.Leads pairing room (Carries (Parsed.relabel pairing.rename.word))
      other.braceRule := by
  have displayed (entries : Entries) : (entries.relabel pairing.rename.word).display =
      entries.display.relabel pairing.rename.word := by
    obtain ⟨keyed, keys, values⟩ := entries
    rw [Entries.display, Entries.display]
    show (if keyed.getD true = true then _ else _) = _
    split <;> rfl
  refine .advance fun _ _ _ _ => ?_
  refine .loop_carried (Entries.relabel pairing.rename.word) (fun entries => ?_) alike.bound
  refine .eat (pairing.tells rfl) (.pure (.done ?_)) (.bind (entry_pairs alike entries) ?_)
  · rw [displayed]
    rfl
  · rintro _ _ (fits | fits)
    · rename_i more found
      obtain rfl := fits
      refine .eat (pairing.tells rfl) (.pure (.again rfl)) (.of_pairs (.expect rfl fun _ _ => ?_))
      refine .pure (.done ?_)
      rw [displayed]
      rfl
    · obtain rfl := fits
      exact .ended rfl

end starts

section joins

include alike

/-- A comma and the further elements of a tuple. -/
theorem tupleRule_leads (power : Power) :
    (inner.tupleRule left power).Leads pairing room (Carries (Parsed.relabel pairing.rename.word))
      (other.tupleRule (left.relabel pairing.rename.word) power) := by
  refine .advance fun _ _ _ _ => .finish ?_
  refine Pairs.bind_carried (.loop_carried (relabelExprs pairing.rename.word) (fun elements => ?_)
    alike.bound) fun elements => .pure rfl
  refine .atDelimiter fun ended => ?_
  cases ended with
  | true => exact .ended rfl
  | false =>
    refine .bind_carried (expr_pairs alike _) fun value => ?_
    exact .eat (pairing.tells rfl) (.pure (.again (by simp [Carries]))) (.ended (by simp [Carries]))

/-- The conditions of a clause. -/
theorem conditions_pairs :
    inner.conditions.Pairs pairing room (Carries (relabelExprs pairing.rename.word))
      other.conditions := by
  refine .loop_carried (relabelExprs pairing.rename.word) (fun conditions => ?_) alike.bound
  refine .eat (pairing.tells rfl) ?_ (.ended rfl)
  exact (expr_pairs alike _).bind_carried fun test => .pure (.again (by simp [Carries]))

omit alike in
/-- The comprehension with one more clause. -/
theorem withClause_pairs (clause : Comprehension) :
    (withClause left clause).Pairs pairing room (Carries (Parsed.relabel pairing.rename.word))
      (withClause (left.relabel pairing.rename.word) (clause.relabel pairing.rename.word)) := by
  unfold withClause
  rw [Parsed.relabel_clauses?]
  cases left.clauses? with
  | some found =>
    refine .pure ?_
    simp [Carries, Parsed.relabel, Parsed.comprehension, Expr.relabel]
  | none => exact .finish (.pure rfl)

/-- A clause of a comprehension. -/
theorem comprehensionRule_leads :
    (inner.comprehensionRule left).Leads pairing room
      (Carries (Parsed.relabel pairing.rename.word))
      (other.comprehensionRule (left.relabel pairing.rename.word)) := by
  have rest (isAsync : Bool) : (do
      let found ← inner.forIn Power.conditional
      withClause left ⟨found.1, found.2, ← inner.conditions, isAsync.toUInt8⟩).Pairs pairing room
      (Carries (Parsed.relabel pairing.rename.word)) (do
      let found ← other.forIn Power.conditional
      withClause (left.relabel pairing.rename.word)
        ⟨found.1, found.2, ← other.conditions, isAsync.toUInt8⟩) := by
    refine (forIn_pairs alike _).bind_carried fun found => ?_
    exact (conditions_pairs alike).bind_carried fun conditions => withClause_pairs _
  refine .advance fun token found _ same => ?_
  rw [same]
  exact .ite (fun _ => .expect rfl fun _ _ => rest _) fun _ => rest _

/-- A condition and the other expression. -/
theorem conditionalRule_leads :
    (inner.conditionalRule left).Leads pairing room (Carries (Parsed.relabel pairing.rename.word))
      (other.conditionalRule (left.relabel pairing.rename.word)) := by
  refine .advance fun _ _ _ _ => .finish ?_
  refine (expr_pairs alike _).bind_carried fun test => .expect rfl fun _ _ => ?_
  exact (expr_pairs alike _).bind_carried fun orelse => .pure rfl

/-- The operators and and or. -/
theorem booleanRule_leads (power : Power) :
    (inner.booleanRule left power).Leads pairing room (Carries (Parsed.relabel pairing.rename.word))
      (other.booleanRule (left.relabel pairing.rename.word) power) := by
  refine .advance fun token found _ same => ?_
  rw [same]
  refine (expr_pairs alike _).bind_carried fun right => ?_
  have joined : (do
      return Parsed.plain (.boolOp (if token.value = "and" then .and else .or)
        [← left.finish, right])).Pairs pairing room (Carries (Parsed.relabel pairing.rename.word)) (do
      return Parsed.plain (.boolOp (if token.value = "and" then .and else .or)
        [← (left.relabel pairing.rename.word).finish, right.relabel pairing.rename.word])) :=
    .finish (.pure rfl)
  obtain ⟨expr, form⟩ := left
  cases form with
  | grouped | comprehension => exact joined
  | plain =>
    cases expr with
    | boolOp =>
      refine .ite (fun _ => .pure ?_) fun _ => joined
      simp [Carries, Parsed.relabel, Parsed.plain, Expr.relabel]
    | _ => exact joined

omit alike in
/-- The words of a comparison. -/
theorem comparisonOperator_pairs (token found : Token) (same : found.value = token.value) :
    (comparisonOperator token).Pairs pairing room Eq (comparisonOperator found) := by
  unfold comparisonOperator
  rw [same]
  refine .ite (fun _ => .expect rfl fun _ _ => .pure rfl) fun _ left within state start beside => ?_
  refine .check beside (pairing.tells rfl) (.ite (fun both => ?_) fun _ => ?_)
  · rw [Bool.and_eq_true] at both
    exact .advance beside (beside.inside_of_isText both.2) fun _ _ _ _ behind => .pure behind rfl
  · cases Comparison.ofText? token.value with
    | some operator => exact .pure beside rfl
    | none =>
      have refused : (fail (.unexpectedToken token.value) : Parse Comparison).Pairs pairing room Eq
          (fail (.unexpectedToken token.value)) := .fail (.refl _)
      exact refused left within state start beside

/-- A comparison. -/
theorem comparisonRule_leads (power : Power) :
    (inner.comparisonRule left power).Leads pairing room
      (Carries (Parsed.relabel pairing.rename.word))
      (other.comparisonRule (left.relabel pairing.rename.word) power) := by
  refine .advance fun token found _ same => (comparisonOperator_pairs token found same).bind ?_
  rintro operator _ rfl
  refine (expr_pairs alike _).bind_carried fun right => ?_
  have joined : (do
      return Parsed.plain (.compare (← left.finish) [operator] [right])).Pairs pairing room
      (Carries (Parsed.relabel pairing.rename.word)) (do
      return Parsed.plain (.compare (← (left.relabel pairing.rename.word).finish) [operator]
        [right.relabel pairing.rename.word])) :=
    .finish (.pure rfl)
  obtain ⟨expr, form⟩ := left
  cases form with
  | grouped | comprehension => exact joined
  | plain =>
    cases expr with
    | compare =>
      refine .pure ?_
      simp [Carries, Parsed.relabel, Parsed.plain, Expr.relabel]
    | _ => exact joined

/-- A binary operator that groups to the left. -/
theorem binaryRule_leads (power : Power) :
    (inner.binaryRule left power).Leads pairing room (Carries (Parsed.relabel pairing.rename.word))
      (other.binaryRule (left.relabel pairing.rename.word) power) := by
  refine .advance fun token found _ same => ?_
  rw [same]
  cases BinaryOperator.ofText? token.value with
  | none => exact .fail (.refl _)
  | some operator => exact .finish ((expr_pairs alike _).bind_carried fun right => .pure rfl)

/-- The operator that groups to the right. -/
theorem powerRule_leads (power : Power) :
    (inner.powerRule left power).Leads pairing room (Carries (Parsed.relabel pairing.rename.word))
      (other.powerRule (left.relabel pairing.rename.word) power) :=
  .advance fun _ _ _ _ => .finish ((expr_pairs alike _).bind_carried fun _ => .pure rfl)

omit alike in
/-- A literal beside another one, whatever the words in it. -/
theorem joinLiterals_relabel (word : String → String) (expr : Expr) (value : Quoted)
    {token found : Token} (same : found.value = token.value) :
    joinLiterals (expr.relabel word) value found =
      (joinLiterals expr value token).map (Expr.relabel word) := by
  cases expr <;> cases value <;> simp only [joinLiterals, Expr.relabel, same] <;> rfl

omit alike in
/-- A further string literal. -/
theorem adjacentRule_leads :
    (adjacentRule left).Leads pairing room (Carries (Parsed.relabel pairing.rename.word))
      (adjacentRule (left.relabel pairing.rename.word)) := by
  refine .current fun token found _ same => ?_
  rw [same]
  refine .lift id ?_ fun value _ => ?_
  · cases decodeString token.value <;> rfl
  · refine .lift (Expr.relabel pairing.rename.word) (joinLiterals_relabel _ _ _ same) fun expr _ => ?_
    exact .advance fun _ _ _ _ => .pure rfl

omit alike in
/-- A member. -/
theorem memberRule_leads :
    (memberRule left).Leads pairing room (Carries (Parsed.relabel pairing.rename.word))
      (memberRule (left.relabel pairing.rename.word)) := by
  refine .advance fun _ _ _ _ => .finish fun room_ within state start beside => ?_
  have same : decide (start.current.kind = .name) = decide (state.current.kind = .name) := by
    refine beside.look (fun token => decide (token.kind = .name)) ?_ ?_
    · intro token found tokens
      rw [tokens.kind]
    · intro token found seam ends kind value
      rw [ends, kind]
      rfl
  refine .look (fun state => decide (state.current.kind = .name)) rfl same (.ite (fun named => ?_)
    fun _ => failExpected_pairs room_ within state start beside)
  obtain ⟨inside, renamed⟩ := beside.name_in_front (of_decide_eq_true named)
  refine .advance beside inside fun less between onward _ behind => .pure behind ?_
  rw [renamed]
  rfl

/-- One dimension of a subscript. -/
theorem dimension_pairs :
    inner.dimension.Pairs pairing room (Carries (Slice.relabel pairing.rename.word))
      other.dimension := by
  have bound := optionalExpr_pairs alike Power.untilComma
  refine bound.bind_carried fun lower => .eat (pairing.tells rfl) ?_ ?_
  · refine bound.bind_carried fun upper => .eat (pairing.tells rfl) ?_ (.pure rfl)
    exact bound.bind_carried fun step => .pure rfl
  · cases lower with
    | none => exact .fail (.refl _)
    | some value => exact .pure rfl

/-- The dimensions of a subscript. -/
theorem dimensions_pairs :
    inner.dimensions.Pairs pairing room
      (Carries (Prod.map (relabelSlices pairing.rename.word) id)) other.dimensions := by
  refine .loop_carried (Prod.map (relabelSlices pairing.rename.word) id) (fun found => ?_) alike.bound
  refine .bind_carried (dimension_pairs alike) fun slice => .eat (pairing.tells rfl) ?_ (.ended ?_)
  · refine .check (pairing.tells rfl) fun ended => .ite (fun _ => .pure (.done ?_)) fun _ => .pure (.again ?_)
    · simp [Carries]
    · simp [Carries]
  · simp [Carries]

/-- A subscript. -/
theorem subscriptRule_leads :
    (inner.subscriptRule left).Leads pairing room (Carries (Parsed.relabel pairing.rename.word))
      (other.subscriptRule (left.relabel pairing.rename.word)) := by
  refine .advance fun _ _ _ _ => .finish ((dimensions_pairs alike).bind_carried fun found => ?_)
  refine .expect rfl fun _ _ => .pure ?_
  rw [Carries, id_eq, Slice.ofDimensions_relabel]
  rfl

/-- An argument without stars. -/
theorem plainArgument_pairs (found : CallArguments) :
    (inner.plainArgument found).Pairs pairing room
      (Carries (CallArguments.relabel pairing.rename.word))
      (other.plainArgument (found.relabel pairing.rename.word)) := by
  refine (alike.operand _).bind_carried fun parsed => .eat (pairing.tells rfl) ?_ ?_
  · obtain ⟨expr, form⟩ := parsed
    cases expr with
    | name =>
      refine (expr_pairs alike _).bind_carried fun value => .pure ?_
      simp [Carries, CallArguments.relabel, CallArguments.addKeyword, Keyword.relabel]
    | _ => exact .fail (.refl _)
  · rw [Parsed.relabel_clauses?]
    cases parsed.clauses? with
    | some clauses =>
      refine .pure ?_
      simp [Carries, CallArguments.relabel, CallArguments.addPositional, Expr.relabel]
    | none =>
      refine .finish (.pure ?_)
      simp [Carries, CallArguments.relabel, CallArguments.addPositional]

/-- An argument. -/
theorem argument_pairs (found : CallArguments) :
    (inner.argument found).Pairs pairing room (Carries (CallArguments.relabel pairing.rename.word))
      (other.argument (found.relabel pairing.rename.word)) := by
  refine .eat (pairing.tells rfl) ?_ (.eat (pairing.tells rfl) ?_ (plainArgument_pairs alike found))
  · refine (expr_pairs alike _).bind_carried fun value => .pure ?_
    simp [Carries, CallArguments.relabel, CallArguments.addKeyword, Keyword.relabel]
  · refine (expr_pairs alike _).bind_carried fun value => .pure ?_
    simp [Carries, CallArguments.relabel, CallArguments.addPositional, Expr.relabel]

/-- The arguments of a call. At the seam nothing stands behind the opening parenthesis or a comma. -/
theorem callArguments_pairs :
    inner.callArguments.Pairs pairing room (Carries (CallArguments.relabel pairing.rename.word))
      other.callArguments := by
  refine Pairs.bind_carried (.loop_carried (CallArguments.relabel pairing.rename.word)
    (fun found left within state start beside => ?_) alike.bound) fun found =>
      .expect rfl fun _ _ => .pure rfl
  have further : (do
      let found ← inner.argument found
      if ← eat "," then return .again found else return .done found :
        Parse (Turn CallArguments CallArguments)).Turns pairing room
      (Carries (CallArguments.relabel pairing.rename.word))
      (Carries (CallArguments.relabel pairing.rename.word)) (do
      let found ← other.argument (found.relabel pairing.rename.word)
      if ← eat "," then return .again found else return .done found) := by
    refine .bind_carried (argument_pairs alike found) fun more => ?_
    exact .eat (pairing.tells rfl) (.pure (.again rfl)) (.ended rfl)
  refine .check_or_stuck beside rfl ?_ fun ends out behind read => ?_
  · exact .ite (fun _ => .pure beside (.done rfl)) fun _ => further left within state start beside
  · obtain ⟨given, between, first, -⟩ := bind_ok read
    have plain : inner.argument found state = inner.plainArgument found state :=
      (eat_missing (isText_of_newline ends _)).trans (eat_missing (isText_of_newline ends _))
    rw [plain] at first
    obtain ⟨parsed, next, operand, -⟩ := bind_ok first
    exact alike.stuck _ beside.grammar ends parsed next operand

/-- A call. -/
theorem callRule_leads :
    (inner.callRule left).Leads pairing room (Carries (Parsed.relabel pairing.rename.word))
      (other.callRule (left.relabel pairing.rename.word)) :=
  .advance fun _ _ _ _ => .finish ((callArguments_pairs alike).bind_carried fun _ => .pure rfl)

end joins

end Inner

section operands

variable {inner other : Inner} (alike : inner.Pairs pairing room other)
include alike

/-- The start of an operand that is no name goes in step. -/
theorem PrefixRule.parse_leads {rule : PrefixRule} (unnamed : rule ≠ .name) :
    (rule.parse inner).Leads pairing room (Carries (Parsed.relabel pairing.rename.word))
      (rule.parse other) := by
  cases rule with
  | name => exact absurd rfl unnamed
  | number => exact Inner.numberRule_leads
  | string => exact Inner.stringRule_leads
  | constant => exact Inner.constantRule_leads
  | ellipsis => exact Inner.ellipsisRule_leads
  | unary => exact Inner.unaryRule_leads alike
  | starred => exact Inner.starredRule_leads alike
  | await => exact Inner.awaitRule_leads alike
  | yield => exact Inner.yieldRule_leads alike
  | lambda => exact Inner.lambdaRule_leads alike
  | grouping => exact Inner.groupingRule_leads alike
  | list => exact Inner.listRule_leads alike
  | brace => exact Inner.braceRule_leads alike

/-- What is read on behind an operand goes in step. -/
theorem InfixRule.parse_leads (rule : InfixRule) (left : Parsed) (power : Power) :
    (rule.parse inner left power).Leads pairing room
      (Carries (Parsed.relabel pairing.rename.word))
      (rule.parse other (left.relabel pairing.rename.word) power) := by
  cases rule with
  | tuple => exact Inner.tupleRule_leads alike power
  | comprehension => exact Inner.comprehensionRule_leads alike
  | conditional => exact Inner.conditionalRule_leads alike
  | boolean => exact Inner.booleanRule_leads alike power
  | comparison => exact Inner.comparisonRule_leads alike power
  | binary => exact Inner.binaryRule_leads alike power
  | power => exact Inner.powerRule_leads alike power
  | adjacent => exact Inner.adjacentRule_leads
  | member => exact Inner.memberRule_leads
  | subscript => exact Inner.subscriptRule_leads alike
  | call => exact Inner.callRule_leads alike

end operands

section depth

variable {inner other : Inner} (inside : ∀ less < room, inner.Pairs pairing less other)
include inside

/-- One turn of reading on behind an operand goes in step. -/
theorem climb_pairs (power : Power) (left : Parsed) :
    (inner.climb power left).Turns pairing room (Carries (Parsed.relabel pairing.rename.word))
      (Carries (Parsed.relabel pairing.rename.word))
      (other.climb power (left.relabel pairing.rename.word)) := by
  unfold Inner.climb
  intro count within state start beside
  rw [infixRule?_bind, infixRule?_bind]
  have same : start.grammar.behavior? start.current = state.grammar.behavior? state.current := by
    rw [beside.otherGrammar, beside.grammar, beside.behavior?]
  refine .look (fun state => state.grammar.behavior? state.current) rfl same ?_
  cases known : state.grammar.behavior? state.current with
  | none => exact .pure beside (.done rfl)
  | some behavior =>
    cases means : (some behavior).bind fun behavior =>
      if behavior.power ≤ power then none else behavior.infixRule.map (·, behavior.power) with
    | none => exact .pure beside (.done rfl)
    | some found =>
      rw [beside.grammar] at known
      obtain ⟨front, text⟩ := beside.leads_of_behavior known
      obtain ⟨count, rfl⟩ := beside.exists_room front
      have leads := found.1.parse_leads (inside count within) left found.2
      refine (leads count (Nat.le_refl count) state start beside front text).bind ?_
      rintro parsed _ less between onward ⟨fewer, rfl⟩ - behind
      exact .pure behind (.again (Nat.lt_succ_of_le fewer) rfl)

/-- An operand goes in step, if the number of turns on the other side is enough. -/
theorem operandWith_pairs {turns otherTurns : Nat}
    (enough : pairing.Enough room turns otherTurns) (power : Power) :
    (operandWith inner turns power).Pairs pairing room
      (Carries (Parsed.relabel pairing.rename.word)) (operandWith other otherTurns power) := by
  intro count within state start beside
  have same : ((start.grammar.behavior? start.current).bind Behavior.prefixRule).getD .name =
      ((state.grammar.behavior? state.current).bind Behavior.prefixRule).getD .name := by
    rw [beside.otherGrammar, beside.grammar, beside.behavior?]
  refine .look (fun state => ((state.grammar.behavior? state.current).bind
    Behavior.prefixRule).getD .name) rfl same ?_
  generalize means : ((state.grammar.behavior? state.current).bind
    Behavior.prefixRule).getD .name = rule
  have first : PairsAt pairing count (fun _ => Carries (Parsed.relabel pairing.rename.word)) state
      start (rule.parse inner) (rule.parse other) := by
    by_cases named : rule = .name
    · rw [named]
      exact Inner.nameRule_pairs count (Nat.le_refl count) state start beside
    · cases known : state.grammar.behavior? state.current with
      | none =>
        rw [known] at means
        exact absurd means.symm named
      | some behavior =>
        rw [beside.grammar] at known
        obtain ⟨front, text⟩ := beside.leads_of_behavior known
        obtain ⟨count, rfl⟩ := beside.exists_room front
        have leads := PrefixRule.parse_leads (inside count within) named
        refine (leads count (Nat.le_refl count) state start beside front text).weaken ?_
        exact fun _ _ _ _ fits => fits.2
  refine first.bind ?_
  rintro parsed _ less between onward rfl fewer behind
  have climbs : (loop (inner.climb power) turns parsed).Pairs pairing room
      (Carries (Parsed.relabel pairing.rename.word))
      (loop (other.climb power) otherTurns (parsed.relabel pairing.rename.word)) :=
    .loop_carried (Parsed.relabel pairing.rename.word) (climb_pairs inside power) enough
  exact climbs less (Nat.le_trans fewer within) between onward behind

end depth

/-- Operands of any depth go in step, if the depth on the other side is enough. -/
theorem operandAt_pairs {depth otherDepth : Nat} (enough : pairing.Enough room depth otherDepth)
    (power : Power) :
    (operandAt depth power).Pairs pairing room (Carries (Parsed.relabel pairing.rename.word))
      (operandAt otherDepth power) := by
  induction depth generalizing room otherDepth power with
  | zero =>
    rcases enough with rfl | ⟨seam, -⟩
    · exact failExpression_pairs
    · exact fun _ _ _ _ _ => .of_stuck seam fun _ _ => failExpression_fails.ne
  | succ depth ih =>
    obtain ⟨further, rfl⟩ : ∃ further, otherDepth = further + 1 := by
      rcases enough with rfl | ⟨-, more⟩
      · exact ⟨depth, rfl⟩
      · exact Nat.exists_eq_add_of_le' (Nat.one_le_of_lt more)
    refine operandWith_pairs (fun less fewer => ?_) enough power
    have inside := (enough.less fewer).pred
    exact ⟨inside, fun power => ih inside power, fun power _ standard seam out behind =>
      operandAt_unfit standard (.of_isLayout (by rw [seam]; rfl)) depth power out⟩

/-- What reads operands up to a bound goes in step. -/
theorem Inner.pairs_upTo {bound otherBound : Nat} (enough : pairing.Enough room bound otherBound) :
    (Inner.upTo bound).Pairs pairing room (Inner.upTo otherBound) :=
  ⟨enough, operandAt_pairs enough, fun power _ standard seam out behind =>
    operandAt_unfit standard (.of_isLayout (by rw [seam]; rfl)) bound power out⟩

end Offside
