import Offside.Proofs.Grammar.Mirror
import Offside.Proofs.Grammar.Operands

/-!
# Expressions side by side

The rules of expressions give the same on both sides, if what reads the operands inside does. By
induction on the depth, operands of any depth are the same on both sides, also where the other
side allows for a greater depth (`Inner.mirrors_upTo`).
-/
namespace Offside

open Parse Literal

/-- What reads operands is mirrored, with a bound that is no smaller. -/
structure Inner.Mirrors (frame : Frame) (inner other : Inner) : Prop where
  /-- The bound on the other side is no smaller. -/
  bound : inner.bound ≤ other.bound
  /-- Operands are the same on both sides. -/
  operand (power : Power) : (inner.operand power).Mirrors frame false Eq (other.operand power)

variable {frame : Frame}

namespace Inner

variable {inner other : Inner} (alike : inner.Mirrors frame other) {left : Parsed}

section forms

include alike

/-- An operand, if one may start here. -/
theorem optionalOperand_mirrors (power : Power) :
    (inner.optionalOperand power).Mirrors frame false Eq (other.optionalOperand power) := by
  refine .atDelimiter fun ended => ?_
  cases ended with
  | true => exact .pure rfl
  | false =>
    refine .check fun comma => .ite (fun _ => .pure rfl) fun _ => ?_
    exact (alike.operand power).bind_eq fun parsed => .pure rfl

/-- An expression, if one may start here. -/
theorem optionalExpr_mirrors (power : Power) :
    (inner.optionalExpr power).Mirrors frame false Eq (other.optionalExpr power) := by
  refine (optionalOperand_mirrors alike power).bind_eq fun found => ?_
  cases found with
  | none => exact .pure rfl
  | some parsed => exact .finish (.pure rfl)

/-- An expression. -/
theorem expr_mirrors (power : Power) :
    (inner.expr power).Mirrors frame false Eq (other.expr power) := by
  refine (optionalExpr_mirrors alike power).bind_eq fun found => ?_
  cases found with
  | none => exact .of_fails failExpression_fails
  | some expr => exact .pure rfl

/-- A target, if an expression may start here. -/
theorem optionalTarget_mirrors (context : Context) (power : Power) :
    (inner.optionalTarget context power).Mirrors frame false Eq
      (other.optionalTarget context power) := by
  refine (optionalExpr_mirrors alike power).bind_eq fun found => ?_
  cases found with
  | none => exact .pure rfl
  | some expr => exact .lift fun target _ => .pure rfl

/-- The target of a loop or a clause. -/
theorem loopTarget_mirrors : inner.loopTarget.Mirrors frame false Eq other.loopTarget := by
  refine (optionalTarget_mirrors alike _ _).bind_eq fun found => ?_
  cases found with
  | none => exact .of_fails failExpression_fails
  | some target => exact .pure rfl

/-- The further targets of a loop or a clause. -/
theorem moreTargets_mirrors (first : Expr) :
    (inner.moreTargets first).Mirrors frame false Eq (other.moreTargets first) := by
  refine .loop (fun targets => .eat ?_ ?_) alike.bound _
  · refine .check fun ended => ?_
    cases ended with
    | true => exact .pure rfl
    | false => exact (loopTarget_mirrors alike).bind_eq fun target => .pure rfl
  · exact .pure rfl

/-- The target of a loop or a clause and what it runs over. -/
theorem forIn_mirrors (power : Power) :
    (inner.forIn power).Mirrors frame false Eq (other.forIn power) := by
  have rest (target : Expr) : (do
      let _ ← expect "in"
      return (target, ← inner.expr power) : Parse (Expr × Expr)).Mirrors frame false Eq (do
      let _ ← expect "in"
      return (target, ← other.expr power)) :=
    .expect fun _ _ => (expr_mirrors alike power).bind_eq fun iter => .pure rfl
  refine (loopTarget_mirrors alike).bind_eq fun first => .check fun several => ?_
  cases several with
  | true => exact (moreTargets_mirrors alike first).bind_eq fun targets => rest _
  | false => exact rest first

end forms

section parameters

include alike

/-- A parameter with its annotation. -/
theorem parameter_mirrors (signature : Signature) :
    (inner.parameter signature).Mirrors frame false Eq (other.parameter signature) := by
  refine .expectName fun name => .check fun colon => .ite (fun _ => ?_) fun _ => .pure rfl
  refine .advance fun _ _ _ => ?_
  exact (expr_mirrors alike _).bind_eq fun annotation => .pure rfl

/-- A default. -/
theorem parameterDefault_mirrors :
    inner.parameterDefault.Mirrors frame false Eq other.parameterDefault := by
  refine .eat ?_ (.pure rfl)
  exact (expr_mirrors alike _).bind_eq fun value => .pure rfl

/-- The parameter behind a star. -/
theorem starParameter_mirrors (signature : Signature) (found : Collected) :
    (inner.starParameter signature found).Mirrors frame false Eq
      (other.starParameter signature found) := by
  refine .ite (fun _ => .fail) fun _ => .check fun comma => .ite (fun _ => .pure rfl) fun _ => ?_
  exact (parameter_mirrors alike signature).bind_eq fun arg => .pure rfl

/-- The parameter behind two stars. -/
theorem doubleStarParameter_mirrors (signature : Signature) (found : Collected) :
    (inner.doubleStarParameter signature found).Mirrors frame false Eq
      (other.doubleStarParameter signature found) :=
  (parameter_mirrors alike signature).bind_eq fun _ => .pure rfl

/-- A parameter without a star. -/
theorem plainParameter_mirrors (signature : Signature) (found : Collected) :
    (inner.plainParameter signature found).Mirrors frame false Eq
      (other.plainParameter signature found) := by
  refine (parameter_mirrors alike signature).bind_eq fun arg => ?_
  refine (parameterDefault_mirrors alike).bind_eq fun given => ?_
  refine .ite (fun _ => .pure rfl) fun _ => ?_
  cases given with
  | some value => exact .pure rfl
  | none => exact .ite (fun _ => .pure rfl) fun _ => .fail

/-- The parameter in front. -/
theorem nextParameter_mirrors (signature : Signature) (found : Collected) :
    (inner.nextParameter signature found).Mirrors frame false Eq
      (other.nextParameter signature found) := by
  refine .ite (fun _ => ?_) fun _ => .eat ?_ (.eat ?_ ?_)
  · exact .check fun again => .ite (fun _ => .fail) fun _ => .fail
  · exact starParameter_mirrors alike signature found
  · exact doubleStarParameter_mirrors alike signature found
  · exact plainParameter_mirrors alike signature found

/-- Parameters. -/
theorem parameters_mirrors (signature : Signature) :
    (inner.parameters signature).Mirrors frame false Eq (other.parameters signature) := by
  refine .loop (fun found => .check fun ended => ?_) alike.bound _
  cases ended with
  | true => exact .pure rfl
  | false =>
    refine (nextParameter_mirrors alike signature found).bind_eq fun more => ?_
    exact .eat (.pure rfl) (.pure rfl)

end parameters

section starts

/-- A name. -/
theorem nameRule_mirrors : nameRule.Mirrors frame false Eq nameRule := by
  refine .current ?_
  rintro _ _ ⟨moved⟩
  refine .ite (fun _ => ?_) fun _ => .of_fails failExpression_fails
  exact .advance fun _ _ _ => .pure rfl

/-- A number literal. -/
theorem numberRule_mirrors : numberRule.Mirrors frame false Eq numberRule := by
  refine .current ?_
  rintro _ _ ⟨moved⟩
  exact .lift fun value _ => .advance fun _ _ _ => .pure rfl

/-- A string literal. -/
theorem stringRule_mirrors : stringRule.Mirrors frame false Eq stringRule := by
  refine .current ?_
  rintro _ _ ⟨moved⟩
  exact .lift fun value _ => .advance fun _ _ _ => .pure rfl

/-- A constant. -/
theorem constantRule_mirrors : constantRule.Mirrors frame false Eq constantRule := by
  refine .advance ?_
  rintro _ _ ⟨moved⟩
  exact .pure rfl

/-- Three points. -/
theorem ellipsisRule_mirrors : ellipsisRule.Mirrors frame false Eq ellipsisRule :=
  .advance fun _ _ _ => .pure rfl

include alike

/-- An operator before its operand. -/
theorem unaryRule_mirrors : inner.unaryRule.Mirrors frame false Eq other.unaryRule := by
  refine .advance ?_
  rintro _ _ ⟨moved⟩
  exact (expr_mirrors alike _).bind_eq fun operand => .pure rfl

/-- A star before an expression. -/
theorem starredRule_mirrors : inner.starredRule.Mirrors frame false Eq other.starredRule :=
  .advance fun _ _ _ => (expr_mirrors alike _).bind_eq fun _ => .pure rfl

/-- The word await. -/
theorem awaitRule_mirrors : inner.awaitRule.Mirrors frame false Eq other.awaitRule :=
  .advance fun _ _ _ => (expr_mirrors alike _).bind_eq fun _ => .pure rfl

/-- The word yield. -/
theorem yieldRule_mirrors : inner.yieldRule.Mirrors frame false Eq other.yieldRule := by
  refine .advance fun _ _ _ => .eat ?_ ?_
  · exact (expr_mirrors alike _).bind_eq fun value => .pure rfl
  · exact (optionalExpr_mirrors alike _).bind_eq fun value => .pure rfl

/-- A function without a name. -/
theorem lambdaRule_mirrors : inner.lambdaRule.Mirrors frame false Eq other.lambdaRule := by
  refine .advance fun _ _ _ => (parameters_mirrors alike _).bind_eq fun parameters => ?_
  exact .expect fun _ _ => (expr_mirrors alike _).bind_eq fun body => .pure rfl

/-- Parentheses. -/
theorem groupingRule_mirrors : inner.groupingRule.Mirrors frame false Eq other.groupingRule := by
  refine .advance fun _ _ _ => .eat (.pure rfl) ?_
  exact (alike.operand _).bind_eq fun parsed => .expect fun _ _ => .pure rfl

/-- Square brackets. -/
theorem listRule_mirrors : inner.listRule.Mirrors frame false Eq other.listRule := by
  refine .advance fun _ _ _ => .loop (fun elements => .eat (.pure rfl) ?_) alike.bound _
  refine (alike.operand _).bind_eq fun parsed => ?_
  cases parsed.clauses? with
  | some found => exact .expect fun _ _ => .pure rfl
  | none => exact .finish (.eat (.pure rfl) (.expect fun _ _ => .pure rfl))

omit alike in
/-- The end of a comprehension in braces. -/
theorem closeComprehension_mirrors (expr : Expr) :
    (closeComprehension expr).Mirrors frame false Eq (closeComprehension expr) :=
  .expect fun _ _ => .pure rfl

/-- The value behind a key. -/
theorem keyedEntry_mirrors (entries : Entries) (key : Expr) :
    (inner.keyedEntry entries key).Mirrors frame false Eq (other.keyedEntry entries key) := by
  refine .expect fun _ _ => (alike.operand _).bind_eq fun parsed => ?_
  cases parsed.clauses? with
  | some found => exact .ite (fun _ => closeComprehension_mirrors _) fun _ => .fail
  | none => exact .finish (.pure rfl)

/-- An entry in braces. -/
theorem entry_mirrors (entries : Entries) :
    (inner.entry entries).Mirrors frame false Eq (other.entry entries) := by
  refine .check fun stars => .ite (fun _ => .fail) fun _ => .eat ?_ ?_
  · exact (expr_mirrors alike _).bind_eq fun value => .pure rfl
  · have plain (parsed : Parsed) : (do
        let key ← parsed.finish
        if entries.keyed.getD (← check ":") then inner.keyedEntry entries key
        else return .again ⟨some false, entries.keys, entries.values ++ [key]⟩ :
          Parse (Turn Entries Expr)).Mirrors frame false Eq (do
        let key ← parsed.finish
        if entries.keyed.getD (← check ":") then other.keyedEntry entries key
        else return .again ⟨some false, entries.keys, entries.values ++ [key]⟩) :=
      .finish (.check fun colon => .ite (fun _ => keyedEntry_mirrors alike _ _) fun _ => .pure rfl)
    refine (alike.operand _).bind_eq fun parsed => ?_
    cases parsed.clauses? with
    | none => exact plain parsed
    | some found =>
      cases keyed : entries.keyed with
      | none => exact closeComprehension_mirrors _
      | some known =>
        have keyedPlain := plain parsed
        rw [keyed] at keyedPlain
        exact keyedPlain

/-- Braces. -/
theorem braceRule_mirrors : inner.braceRule.Mirrors frame false Eq other.braceRule := by
  refine .advance fun _ _ _ => .loop (fun entries => .eat (.pure rfl) ?_) alike.bound _
  refine (entry_mirrors alike entries).bind_eq fun turn => ?_
  cases turn with
  | done expr => exact .pure rfl
  | again entries => exact .eat (.pure rfl) (.expect fun _ _ => .pure rfl)

end starts

section joins

include alike

/-- A comma and the further elements of a tuple. -/
theorem tupleRule_mirrors (power : Power) :
    (inner.tupleRule left power).Mirrors frame false Eq (other.tupleRule left power) := by
  refine .advance fun _ _ _ => .finish (Mirrors.bind_eq (.loop (fun elements => ?_) alike.bound _)
    fun elements => .pure rfl)
  refine .atDelimiter fun ended => ?_
  cases ended with
  | true => exact .pure rfl
  | false => exact (expr_mirrors alike _).bind_eq fun value => .eat (.pure rfl) (.pure rfl)

/-- The conditions of a clause. -/
theorem conditions_mirrors : inner.conditions.Mirrors frame false Eq other.conditions := by
  refine .loop (fun conditions => .eat ?_ (.pure rfl)) alike.bound _
  exact (expr_mirrors alike _).bind_eq fun test => .pure rfl

omit alike in
/-- The comprehension with one more clause. -/
theorem withClause_mirrors (clause : Comprehension) :
    (withClause left clause).Mirrors frame false Eq (withClause left clause) := by
  unfold withClause
  cases left.clauses? with
  | some found => exact .pure rfl
  | none => exact .finish (.pure rfl)

/-- A clause of a comprehension. -/
theorem comprehensionRule_mirrors :
    (inner.comprehensionRule left).Mirrors frame false Eq (other.comprehensionRule left) := by
  have rest (isAsync : Bool) : (do
      let found ← inner.forIn Power.conditional
      withClause left ⟨found.1, found.2, ← inner.conditions, isAsync.toUInt8⟩).Mirrors frame false
      Eq (do
      let found ← other.forIn Power.conditional
      withClause left ⟨found.1, found.2, ← other.conditions, isAsync.toUInt8⟩) := by
    refine (forIn_mirrors alike _).bind_eq fun found => ?_
    exact (conditions_mirrors alike).bind_eq fun conditions => withClause_mirrors _
  refine .advance ?_
  rintro _ _ ⟨moved⟩
  exact .ite (fun _ => .expect fun _ _ => rest _) fun _ => rest _

/-- A condition and the other expression. -/
theorem conditionalRule_mirrors :
    (inner.conditionalRule left).Mirrors frame false Eq (other.conditionalRule left) := by
  refine .advance fun _ _ _ => .finish ?_
  refine (expr_mirrors alike _).bind_eq fun test => .expect fun _ _ => ?_
  exact (expr_mirrors alike _).bind_eq fun orelse => .pure rfl

/-- The operators and and or. -/
theorem booleanRule_mirrors (power : Power) :
    (inner.booleanRule left power).Mirrors frame false Eq (other.booleanRule left power) := by
  refine .advance ?_
  rintro _ _ ⟨moved⟩
  refine (expr_mirrors alike _).bind_eq fun right => ?_
  obtain ⟨expr, form⟩ := left
  cases form with
  | grouped | comprehension => exact .finish (.pure rfl)
  | plain =>
    cases expr with
    | boolOp => exact .ite (fun _ => .pure rfl) fun _ => .finish (.pure rfl)
    | _ => exact .finish (.pure rfl)

omit alike in
/-- The words of a comparison. -/
theorem comparisonOperator_mirrors {token found : Token} (same : token.Alike frame.move found) :
    (comparisonOperator token).Mirrors frame false Eq (comparisonOperator found) := by
  obtain ⟨moved⟩ := same
  refine .ite (fun _ => .expect fun _ _ => .pure rfl) fun _ => ?_
  refine .check fun negated => .ite (fun _ => .advance fun _ _ _ => .pure rfl) fun _ => ?_
  dsimp only
  split
  · exact .pure rfl
  · exact .fail

/-- A comparison. -/
theorem comparisonRule_mirrors (power : Power) :
    (inner.comparisonRule left power).Mirrors frame false Eq (other.comparisonRule left power) := by
  refine .advance fun token found same => (comparisonOperator_mirrors same).bind_eq fun operator => ?_
  refine (expr_mirrors alike _).bind_eq fun right => ?_
  obtain ⟨expr, form⟩ := left
  cases form with
  | grouped | comprehension => exact .finish (.pure rfl)
  | plain =>
    cases expr with
    | compare => exact .pure rfl
    | _ => exact .finish (.pure rfl)

/-- A binary operator that groups to the left. -/
theorem binaryRule_mirrors (power : Power) :
    (inner.binaryRule left power).Mirrors frame false Eq (other.binaryRule left power) := by
  refine .advance ?_
  rintro _ _ ⟨moved⟩
  dsimp only
  cases BinaryOperator.ofText? _ with
  | none => exact .fail
  | some operator => exact .finish ((expr_mirrors alike _).bind_eq fun right => .pure rfl)

/-- The operator that groups to the right. -/
theorem powerRule_mirrors (power : Power) :
    (inner.powerRule left power).Mirrors frame false Eq (other.powerRule left power) :=
  .advance fun _ _ _ => .finish ((expr_mirrors alike _).bind_eq fun _ => .pure rfl)

omit alike in
/-- A further string literal. -/
theorem adjacentRule_mirrors : (adjacentRule left).Mirrors frame false Eq (adjacentRule left) := by
  refine .current ?_
  rintro _ _ ⟨moved⟩
  exact .lift fun value _ => .lift fun expr _ => .advance fun _ _ _ => .pure rfl

omit alike in
/-- A member. -/
theorem memberRule_mirrors : (memberRule left).Mirrors frame false Eq (memberRule left) := by
  refine .advance fun _ _ _ => .finish (.checkKind fun named => ?_)
  refine .ite (fun _ => .advance ?_) fun _ => .of_fails failExpected_fails
  rintro _ _ ⟨moved⟩
  exact .pure rfl

/-- One dimension of a subscript. -/
theorem dimension_mirrors : inner.dimension.Mirrors frame false Eq other.dimension := by
  have bound := optionalExpr_mirrors alike Power.untilComma
  refine bound.bind_eq fun lower => .eat ?_ ?_
  · refine bound.bind_eq fun upper => .eat ?_ (.pure rfl)
    exact bound.bind_eq fun step => .pure rfl
  · cases lower with
    | none => exact .fail
    | some value => exact .pure rfl

/-- The dimensions of a subscript. -/
theorem dimensions_mirrors : inner.dimensions.Mirrors frame false Eq other.dimensions := by
  refine .loop (fun found => ?_) alike.bound _
  refine (dimension_mirrors alike).bind_eq fun slice => .eat ?_ (.pure rfl)
  exact .check fun ended => .ite (fun _ => .pure rfl) fun _ => .pure rfl

/-- A subscript. -/
theorem subscriptRule_mirrors :
    (inner.subscriptRule left).Mirrors frame false Eq (other.subscriptRule left) := by
  refine .advance fun _ _ _ => .finish ((dimensions_mirrors alike).bind_eq fun found => ?_)
  exact .expect fun _ _ => .pure rfl

/-- An argument without stars. -/
theorem plainArgument_mirrors (found : CallArguments) :
    (inner.plainArgument found).Mirrors frame false Eq (other.plainArgument found) := by
  refine (alike.operand _).bind_eq fun parsed => .eat ?_ ?_
  · obtain ⟨expr, form⟩ := parsed
    cases expr with
    | name => exact (expr_mirrors alike _).bind_eq fun value => .pure rfl
    | _ => exact .fail
  · cases parsed.clauses? with
    | some clauses => exact .pure rfl
    | none => exact .finish (.pure rfl)

/-- An argument. -/
theorem argument_mirrors (found : CallArguments) :
    (inner.argument found).Mirrors frame false Eq (other.argument found) := by
  refine .eat ?_ (.eat ?_ (plainArgument_mirrors alike found))
  · exact (expr_mirrors alike _).bind_eq fun value => .pure rfl
  · exact (expr_mirrors alike _).bind_eq fun value => .pure rfl

/-- The arguments of a call. -/
theorem callArguments_mirrors :
    inner.callArguments.Mirrors frame false Eq other.callArguments := by
  refine Mirrors.bind_eq (.loop (fun found => .check fun ended => ?_) alike.bound _)
    fun found => .expect fun _ _ => .pure rfl
  cases ended with
  | true => exact .pure rfl
  | false =>
    refine (argument_mirrors alike found).bind_eq fun more => ?_
    exact .eat (.pure rfl) (.pure rfl)

/-- A call. -/
theorem callRule_mirrors : (inner.callRule left).Mirrors frame false Eq (other.callRule left) :=
  .advance fun _ _ _ => .finish ((callArguments_mirrors alike).bind_eq fun _ => .pure rfl)

end joins

end Inner

section operands

variable {inner other : Inner} (alike : inner.Mirrors frame other)
include alike

/-- The start of an operand is the same on both sides. -/
theorem PrefixRule.parse_mirrors (rule : PrefixRule) :
    (rule.parse inner).Mirrors frame false Eq (rule.parse other) := by
  cases rule with
  | name => exact Inner.nameRule_mirrors
  | number => exact Inner.numberRule_mirrors
  | string => exact Inner.stringRule_mirrors
  | constant => exact Inner.constantRule_mirrors
  | ellipsis => exact Inner.ellipsisRule_mirrors
  | unary => exact Inner.unaryRule_mirrors alike
  | starred => exact Inner.starredRule_mirrors alike
  | await => exact Inner.awaitRule_mirrors alike
  | yield => exact Inner.yieldRule_mirrors alike
  | lambda => exact Inner.lambdaRule_mirrors alike
  | grouping => exact Inner.groupingRule_mirrors alike
  | list => exact Inner.listRule_mirrors alike
  | brace => exact Inner.braceRule_mirrors alike

/-- What is read on behind an operand is the same on both sides. -/
theorem InfixRule.parse_mirrors (rule : InfixRule) (left : Parsed) (power : Power) :
    (rule.parse inner left power).Mirrors frame false Eq (rule.parse other left power) := by
  cases rule with
  | tuple => exact Inner.tupleRule_mirrors alike power
  | comprehension => exact Inner.comprehensionRule_mirrors alike
  | conditional => exact Inner.conditionalRule_mirrors alike
  | boolean => exact Inner.booleanRule_mirrors alike power
  | comparison => exact Inner.comparisonRule_mirrors alike power
  | binary => exact Inner.binaryRule_mirrors alike power
  | power => exact Inner.powerRule_mirrors alike power
  | adjacent => exact Inner.adjacentRule_mirrors
  | member => exact Inner.memberRule_mirrors
  | subscript => exact Inner.subscriptRule_mirrors alike
  | call => exact Inner.callRule_mirrors alike

omit alike in
/-- A look for the rule of the operand in front. -/
theorem prefixRule_mirrors : prefixRule.Mirrors frame false Eq prefixRule :=
  .behavior? fun _ => .pure rfl

omit alike in
/-- A look for the rule that goes on behind an operand. -/
theorem infixRule?_mirrors (power : Power) :
    (infixRule? power).Mirrors frame false Eq (infixRule? power) := by
  refine .behavior? fun found => ?_
  cases found with
  | none => exact .pure rfl
  | some behavior => exact .ite (fun _ => .pure rfl) fun _ => .pure rfl

/-- An operand is the same on both sides, if the other side allows for as many turns. -/
theorem operandWith_mirrors {turns otherTurns : Nat} (within : turns ≤ otherTurns)
    (power : Power) :
    (operandWith inner turns power).Mirrors frame false Eq
      (operandWith other otherTurns power) := by
  refine prefixRule_mirrors.bind_eq fun rule => ?_
  refine (rule.parse_mirrors alike).bind_eq fun first => .loop (fun left => ?_) within _
  refine (infixRule?_mirrors power).bind_eq fun found => ?_
  cases found with
  | none => exact .pure rfl
  | some found => exact (found.1.parse_mirrors alike left found.2).bind_eq fun parsed => .pure rfl

end operands

/-- Operands of any depth are the same on both sides, if the other side allows for as much
depth. -/
theorem operandAt_mirrors {depth otherDepth : Nat} (within : depth ≤ otherDepth) (power : Power) :
    (operandAt depth power).Mirrors frame false Eq (operandAt otherDepth power) := by
  induction depth generalizing otherDepth power with
  | zero => exact .of_fails failExpression_fails
  | succ depth ih =>
    obtain ⟨further, rfl⟩ := Nat.exists_eq_add_of_le' (Nat.one_le_of_lt within)
    have inside := Nat.le_of_succ_le_succ within
    exact operandWith_mirrors ⟨inside, fun power => ih inside power⟩ within power

/-- What reads operands up to a bound is mirrored by what reads them up to a greater one. -/
theorem Inner.mirrors_upTo {bound otherBound : Nat} (within : bound ≤ otherBound) :
    (Inner.upTo bound).Mirrors frame (Inner.upTo otherBound) :=
  ⟨within, operandAt_mirrors within⟩

end Offside
