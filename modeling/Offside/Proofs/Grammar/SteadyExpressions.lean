import Offside.Proofs.Grammar.Steady
import Offside.Proofs.Grammar.Turns

/-!
# Expressions that bounds do not touch

The rules of expressions are steady, if what reads the operands inside is. Each of them takes the
token that it starts with, so that what is inside stands behind fewer tokens, and each turn that
goes on takes a token. By induction on the depth operands of any depth are steady
(`Inner.steady_upTo`).
-/
namespace Offside

open Parse Literal

variable {guard : Option Fault} {room : Nat}

/-- What reads operands is steady: the bounds are as great as the room, and an operand takes a
token. -/
structure Inner.Steady (guard : Option Fault) (room : Nat) (inner other : Inner) : Prop where
  /-- The first bound is enough. -/
  bound : room ≤ inner.bound
  /-- The second bound is enough. -/
  otherBound : room ≤ other.bound
  /-- Operands are steady. -/
  operand (power : Power) : (inner.operand power).Steady guard room (fun _ => True)
    (other.operand power)

/-- What is steady with more room is so with less. -/
theorem Inner.Steady.less {less : Nat} {inner other : Inner}
    (steady : inner.Steady guard room other) (fewer : less ≤ room) :
    inner.Steady guard less other where
  bound := Nat.le_trans fewer steady.bound
  otherBound := Nat.le_trans fewer steady.otherBound
  operand power := (steady.operand power).less fewer

namespace Inner

variable {inner other : Inner} (steady : inner.Steady guard room other)

section forms

include steady

/-- A loop whose turns are steady. -/
theorem Steady.loop {α β : Type} {turn otherTurn : α → Parse (Turn α β)}
    (turns : ∀ value, (turn value).Steady guard room Turn.GoesOn (otherTurn value)) {value : α} :
    (Parse.loop turn inner.bound value).Steady guard room (fun _ => False)
      (Parse.loop otherTurn other.bound value) :=
  Parse.Steady.loop turns steady.bound steady.otherBound

/-- An operand, if one may start here. -/
theorem optionalOperand_steady (power : Power) :
    (inner.optionalOperand power).Steady guard room (fun found => found.isSome = true)
      (other.optionalOperand power) := by
  refine .atDelimiter fun ended => .ite (fun _ => .pure Bool.false_ne_true) fun _ => ?_
  refine .check fun comma => .ite (fun _ => .pure Bool.false_ne_true) fun _ => ?_
  exact (steady.operand power).bind_taken fun parsed => .pure id

/-- An expression, if one may start here. -/
theorem optionalExpr_steady (power : Power) :
    (inner.optionalExpr power).Steady guard room (fun found => found.isSome = true)
      (other.optionalExpr power) :=
  (optionalOperand_steady steady power).bind_some (.pure Bool.false_ne_true) fun _ =>
    .finish fun _ => .pure id

/-- An expression. -/
theorem expr_steady (power : Power) :
    (inner.expr power).Steady guard room (fun _ => True) (other.expr power) :=
  (optionalExpr_steady steady power).bind_some failExpression_steady fun _ => .pure id

/-- A target, if an expression may start here. -/
theorem optionalTarget_steady (context : Context) (power : Power) :
    (inner.optionalTarget context power).Steady guard room (fun found => found.isSome = true)
      (other.optionalTarget context power) :=
  (optionalExpr_steady steady power).bind_some (.pure Bool.false_ne_true) fun _ =>
    .lift fun _ => .pure id

/-- The target of a loop or a clause. -/
theorem loopTarget_steady :
    inner.loopTarget.Steady guard room (fun _ => True) other.loopTarget :=
  (optionalTarget_steady steady _ _).bind_some failExpression_steady fun _ => .pure id

/-- One turn of reading the further targets of a loop or a clause. -/
theorem targetTurn_steady (targets : List Expr) :
    (inner.targetTurn targets).Steady guard room Turn.GoesOn (other.targetTurn targets) := by
  refine .eat (.check fun ended => .ite (fun _ => .pure id) fun _ => ?_) (.pure id)
  exact (loopTarget_steady steady).bind_taken fun target => .pure id

/-- The further targets of a loop or a clause. -/
theorem moreTargets_steady (first : Expr) :
    (inner.moreTargets first).Steady guard room (fun _ => False) (other.moreTargets first) := by
  rw [moreTargets_eq, moreTargets_eq]
  exact steady.loop (targetTurn_steady steady)

/-- The target of a loop or a clause and what it runs over. -/
theorem forIn_steady (power : Power) :
    (inner.forIn power).Steady guard room (fun _ => False) (other.forIn power) := by
  have rest (target : Expr) : (do
      let _ ← expect "in"
      return (target, ← inner.expr power) : Parse (Expr × Expr)).Steady guard room
      (fun _ => False) (do
      let _ ← expect "in"
      return (target, ← other.expr power)) :=
    .expect fun _ => (expr_steady steady power).bind_taken fun iter => .pure id
  refine (loopTarget_steady steady).bind_taken fun first => .check fun several => ?_
  cases several with
  | true => exact (moreTargets_steady steady first).bind fun targets => rest _
  | false => exact rest first

end forms

section parameters

include steady

/-- A parameter with its annotation. -/
theorem parameter_steady (signature : Signature) :
    (inner.parameter signature).Steady guard room (fun _ => True) (other.parameter signature) := by
  refine .expectName fun name => .eat_if ?_ (.pure id)
  exact (expr_steady steady _).bind_taken fun annotation => .pure id

/-- A default. -/
theorem parameterDefault_steady :
    inner.parameterDefault.Steady guard room (fun _ => False) other.parameterDefault :=
  .eat ((expr_steady steady _).bind_taken fun _ => .pure id) (.pure id)

/-- The parameter behind a star. -/
theorem starParameter_steady (signature : Signature) (found : Collected) :
    (inner.starParameter signature found).Steady guard room (fun _ => False)
      (other.starParameter signature found) := by
  refine .ite (fun _ => .fail) fun _ => .check fun comma => .ite (fun _ => .pure id) fun _ => ?_
  exact (parameter_steady steady signature).bind_taken fun arg => .pure id

/-- The parameter behind two stars. -/
theorem doubleStarParameter_steady (signature : Signature) (found : Collected) :
    (inner.doubleStarParameter signature found).Steady guard room (fun _ => False)
      (other.doubleStarParameter signature found) :=
  (parameter_steady steady signature).bind_taken fun _ => .pure id

/-- A parameter without a star. -/
theorem plainParameter_steady (signature : Signature) (found : Collected) :
    (inner.plainParameter signature found).Steady guard room (fun _ => False)
      (other.plainParameter signature found) := by
  refine (parameter_steady steady signature).bind_taken fun arg => ?_
  refine (parameterDefault_steady steady).bind fun given => .ite (fun _ => .pure id) fun _ => ?_
  cases given with
  | some value => exact .pure id
  | none => exact .ite (fun _ => .pure id) fun _ => .fail

/-- The parameter in front. -/
theorem nextParameter_steady (signature : Signature) (found : Collected) :
    (inner.nextParameter signature found).Steady guard room (fun _ => False)
      (other.nextParameter signature found) := by
  refine .ite (fun _ => .check fun again => .ite (fun _ => .fail) fun _ => .fail) fun _ => ?_
  refine .eat (starParameter_steady steady signature found) ?_
  exact .eat (doubleStarParameter_steady steady signature found)
    (plainParameter_steady steady signature found)

/-- One turn of reading parameters. -/
theorem parametersTurn_steady (signature : Signature) (found : Collected) :
    (parametersTurn inner signature found).Steady guard room Turn.GoesOn
      (parametersTurn other signature found) := by
  refine .check fun ended => .ite (fun _ => .pure id) fun _ => ?_
  refine (nextParameter_steady steady signature found).bind fun more => ?_
  exact .eat (.pure id) (.pure id)

/-- Parameters. -/
theorem parameters_steady (signature : Signature) :
    (inner.parameters signature).Steady guard room (fun _ => False)
      (other.parameters signature) := by
  rw [parameters_eq, parameters_eq]
  exact steady.loop (parametersTurn_steady steady signature)

end parameters

section starts

/-- A name. -/
theorem nameRule_steady : nameRule.Steady guard room (fun _ => True) nameRule :=
  .named failExpression_steady

/-- A number literal. -/
theorem numberRule_consumes : numberRule.Consumes guard room numberRule :=
  .current fun _ => .lift fun _ => .advance fun _ => .pure id

/-- A string literal. -/
theorem stringRule_consumes : stringRule.Consumes guard room stringRule :=
  .current fun _ => .lift fun _ => .advance fun _ => .pure id

/-- A constant. -/
theorem constantRule_consumes : constantRule.Consumes guard room constantRule :=
  .advance fun _ => .pure id

/-- Three points. -/
theorem ellipsisRule_consumes : ellipsisRule.Consumes guard room ellipsisRule :=
  .advance fun _ => .pure id

include steady

/-- An operator before its operand. -/
theorem unaryRule_consumes : inner.unaryRule.Consumes guard room other.unaryRule :=
  .advance fun _ => (expr_steady steady _).bind_taken fun _ => .pure id

/-- A star before an expression. -/
theorem starredRule_consumes : inner.starredRule.Consumes guard room other.starredRule :=
  .advance fun _ => (expr_steady steady _).bind_taken fun _ => .pure id

/-- The word await. -/
theorem awaitRule_consumes : inner.awaitRule.Consumes guard room other.awaitRule :=
  .advance fun _ => (expr_steady steady _).bind_taken fun _ => .pure id

/-- The word yield. -/
theorem yieldRule_consumes : inner.yieldRule.Consumes guard room other.yieldRule := by
  refine .advance fun _ => .eat ?_ ?_
  · exact (expr_steady steady _).bind_taken fun value => .pure id
  · exact (optionalExpr_steady steady _).bind fun value => .pure id

/-- A function without a name. -/
theorem lambdaRule_consumes : inner.lambdaRule.Consumes guard room other.lambdaRule := by
  refine .advance fun _ => (parameters_steady steady .lambda).bind fun parameters => ?_
  exact .expect fun _ => (expr_steady steady _).bind_taken fun body => .pure id

/-- Parentheses. -/
theorem groupingRule_consumes : inner.groupingRule.Consumes guard room other.groupingRule := by
  refine .advance fun _ => .eat (.pure id) ?_
  exact (steady.operand _).bind_taken fun parsed => .expect fun _ => .pure id

/-- One turn of reading a list. -/
theorem listTurn_steady (elements : List Expr) :
    (Expr.listTurn inner elements).Steady guard room Turn.GoesOn
      (Expr.listTurn other elements) := by
  refine .eat (.pure id) ((steady.operand _).bind_taken fun parsed => ?_)
  cases parsed.clauses? with
  | some found => exact .expect fun _ => .pure id
  | none => exact .finish fun value => .eat (.pure id) (.expect fun _ => .pure id)

/-- Square brackets. -/
theorem listRule_consumes : inner.listRule.Consumes guard room other.listRule := by
  rw [Expr.listRule_eq, Expr.listRule_eq]
  exact .advance fun _ => steady.loop (listTurn_steady steady)

omit steady in
/-- The end of a comprehension in braces. -/
theorem closeComprehension_steady (expr : Expr) :
    (closeComprehension expr).Steady guard room (fun _ => False) (closeComprehension expr) :=
  .expect fun _ => .pure id

/-- The value behind a key. -/
theorem keyedEntry_steady (entries : Entries) (key : Expr) :
    (inner.keyedEntry entries key).Steady guard room (fun _ => False)
      (other.keyedEntry entries key) := by
  refine .expect fun _ => (steady.operand _).bind_taken fun parsed => ?_
  cases parsed.clauses? with
  | some found => exact .ite (fun _ => closeComprehension_steady _) fun _ => .fail
  | none => exact .finish fun value => .pure id

/-- An entry in braces. -/
theorem entry_steady (entries : Entries) :
    (inner.entry entries).Steady guard room (fun _ => False) (other.entry entries) := by
  have plain (parsed : Parsed) : (do
      let key ← parsed.finish
      if entries.keyed.getD (← check ":") then inner.keyedEntry entries key
      else return .again ⟨some false, entries.keys, entries.values ++ [key]⟩ :
        Parse (Turn Entries Expr)).Steady guard room (fun _ => False) (do
      let key ← parsed.finish
      if entries.keyed.getD (← check ":") then other.keyedEntry entries key
      else return .again ⟨some false, entries.keys, entries.values ++ [key]⟩) :=
    .finish fun key => .check fun colon =>
      .ite (fun _ => keyedEntry_steady steady entries key) fun _ => .pure id
  refine .check fun stars => .ite (fun _ => .fail) fun _ => .eat ?_ ?_
  · exact (expr_steady steady _).bind_taken fun value => .pure id
  · refine (steady.operand _).bind_taken fun parsed => ?_
    cases parsed.clauses? with
    | none => exact plain parsed
    | some found =>
      cases keyed : entries.keyed with
      | none => exact closeComprehension_steady _
      | some known =>
        have keyedPlain := plain parsed
        rw [keyed] at keyedPlain
        exact keyedPlain

/-- One turn of reading braces. -/
theorem braceTurn_steady (entries : Entries) :
    (inner.braceTurn entries).Steady guard room Turn.GoesOn (other.braceTurn entries) := by
  refine .eat (.pure id) ((entry_steady steady entries).bind fun read => ?_)
  cases read with
  | done expr => exact .pure id
  | again more => exact .eat (.pure id) (.expect fun _ => .pure id)

/-- Braces. -/
theorem braceRule_consumes : inner.braceRule.Consumes guard room other.braceRule := by
  rw [braceRule_eq, braceRule_eq]
  exact .advance fun _ => steady.loop (braceTurn_steady steady)

end starts

section joins

variable {left : Parsed}

include steady

/-- One turn of reading a tuple. -/
theorem tupleTurn_steady (power : Power) (elements : List Expr) :
    (Expr.tupleTurn inner power elements).Steady guard room Turn.GoesOn
      (Expr.tupleTurn other power elements) := by
  refine .atDelimiter fun ended => .ite (fun _ => .pure id) fun _ => ?_
  exact (expr_steady steady power).bind_taken fun value => .eat (.pure id) (.pure id)

/-- A comma and the further elements of a tuple. -/
theorem tupleRule_consumes (power : Power) :
    (inner.tupleRule left power).Consumes guard room (other.tupleRule left power) := by
  rw [Expr.tupleRule_eq, Expr.tupleRule_eq]
  refine .advance fun _ => .finish fun first => ?_
  exact (steady.loop (tupleTurn_steady steady power)).bind fun elements => .pure id

/-- One turn of reading the conditions of a clause. -/
theorem conditionTurn_steady (conditions : List Expr) :
    (inner.conditionTurn conditions).Steady guard room Turn.GoesOn
      (other.conditionTurn conditions) :=
  .eat ((expr_steady steady _).bind_taken fun _ => .pure id) (.pure id)

/-- The conditions of a clause. -/
theorem conditions_steady :
    inner.conditions.Steady guard room (fun _ => False) other.conditions := by
  rw [conditions_eq, conditions_eq]
  exact steady.loop (conditionTurn_steady steady)

/-- A clause of a comprehension. -/
theorem comprehensionRule_consumes :
    (inner.comprehensionRule left).Consumes guard room (other.comprehensionRule left) := by
  have rest (isAsync : Bool) : (do
      let found ← inner.forIn Power.conditional
      withClause left ⟨found.1, found.2, ← inner.conditions, isAsync.toUInt8⟩).Steady guard room
      (fun _ => False) (do
      let found ← other.forIn Power.conditional
      withClause left ⟨found.1, found.2, ← other.conditions, isAsync.toUInt8⟩) := by
    refine (forIn_steady steady _).bind fun found => ?_
    refine (conditions_steady steady).bind fun conditions => ?_
    unfold withClause
    cases left.clauses? with
    | some clauses => exact .pure id
    | none => exact .finish fun element => .pure id
  exact .advance fun token => .ite (fun _ => .expect fun _ => rest _) fun _ => rest _

/-- A condition and the other expression. -/
theorem conditionalRule_consumes :
    (inner.conditionalRule left).Consumes guard room (other.conditionalRule left) := by
  refine .advance fun _ => .finish fun body => (expr_steady steady _).bind_taken fun test => ?_
  exact .expect fun _ => (expr_steady steady _).bind_taken fun orelse => .pure id

/-- The operators and and or. -/
theorem booleanRule_consumes (power : Power) :
    (inner.booleanRule left power).Consumes guard room (other.booleanRule left power) := by
  refine .advance fun token => (expr_steady steady power).bind_taken fun right => ?_
  obtain ⟨expr, form⟩ := left
  cases form with
  | grouped | comprehension => exact .finish fun _ => .pure id
  | plain =>
    cases expr with
    | boolOp => exact .ite (fun _ => .pure id) fun _ => .finish fun _ => .pure id
    | _ => exact .finish fun _ => .pure id

omit steady in
/-- The words of a comparison. -/
theorem comparisonOperator_steady (token : Token) :
    (comparisonOperator token).Steady guard room (fun _ => False) (comparisonOperator token) := by
  refine .ite (fun _ => .expect fun _ => .pure id) fun _ => .eat_if (.pure id) ?_
  cases Comparison.ofText? token.value with
  | some operator => exact .pure id
  | none => exact .fail

/-- A comparison. -/
theorem comparisonRule_consumes (power : Power) :
    (inner.comparisonRule left power).Consumes guard room (other.comparisonRule left power) := by
  refine .advance fun token => (comparisonOperator_steady token).bind fun operator => ?_
  refine (expr_steady steady power).bind_taken fun right => ?_
  obtain ⟨expr, form⟩ := left
  cases form with
  | grouped | comprehension => exact .finish fun _ => .pure id
  | plain =>
    cases expr with
    | compare => exact .pure id
    | _ => exact .finish fun _ => .pure id

/-- A binary operator that groups to the left. -/
theorem binaryRule_consumes (power : Power) :
    (inner.binaryRule left power).Consumes guard room (other.binaryRule left power) := by
  refine .advance fun token => ?_
  cases BinaryOperator.ofText? token.value with
  | none => exact .fail
  | some operator =>
    exact .finish fun value => (expr_steady steady power).bind_taken fun right => .pure id

/-- The operator that groups to the right. -/
theorem powerRule_consumes (power : Power) :
    (inner.powerRule left power).Consumes guard room (other.powerRule left power) :=
  .advance fun _ => .finish fun _ => (expr_steady steady _).bind_taken fun _ => .pure id

omit steady in
/-- A further string literal. -/
theorem adjacentRule_consumes : (adjacentRule left).Consumes guard room (adjacentRule left) :=
  .current fun _ => .lift fun _ => .lift fun _ => .advance fun _ => .pure id

omit steady in
/-- A member. -/
theorem memberRule_consumes : (memberRule left).Consumes guard room (memberRule left) := by
  refine .advance fun _ => .finish fun value state listed within => ?_
  refine .look (fun state => decide (state.current.kind = .name)) rfl
    (by rw [State.guarded_current]) ?_
  by_cases named : state.current.kind = .name
  · rw [decide_eq_true named, if_pos rfl]
    have front := State.ahead_of_kind (by rw [named]; decide)
    exact .advance listed front fun _ onward _ => .pure onward id
  · rw [decide_eq_false named, if_neg Bool.false_ne_true]
    exact failExpected_steady state listed within

/-- One dimension of a subscript. -/
theorem dimension_steady :
    inner.dimension.Steady guard room (fun _ => False) other.dimension := by
  have bound := optionalExpr_steady steady Power.untilComma
  refine bound.bind fun lower => .eat ?_ ?_
  · refine bound.bind fun upper => .eat ?_ (.pure id)
    exact bound.bind fun step => .pure id
  · cases lower with
    | none => exact .fail
    | some value => exact .pure id

/-- One turn of reading the dimensions of a subscript. -/
theorem dimensionTurn_steady (found : List Slice × Bool) :
    (inner.dimensionTurn found).Steady guard room Turn.GoesOn (other.dimensionTurn found) := by
  refine (dimension_steady steady).bind fun slice => .eat ?_ (.pure id)
  exact .check fun ended => .ite (fun _ => .pure id) fun _ => .pure id

/-- The dimensions of a subscript. -/
theorem dimensions_steady :
    inner.dimensions.Steady guard room (fun _ => False) other.dimensions := by
  rw [dimensions_eq, dimensions_eq]
  exact steady.loop (dimensionTurn_steady steady)

/-- A subscript. -/
theorem subscriptRule_consumes :
    (inner.subscriptRule left).Consumes guard room (other.subscriptRule left) := by
  refine .advance fun _ => .finish fun value => (dimensions_steady steady).bind fun found => ?_
  exact .expect fun _ => .pure id

/-- An argument without stars. -/
theorem plainArgument_steady (found : CallArguments) :
    (inner.plainArgument found).Steady guard room (fun _ => False) (other.plainArgument found) := by
  refine (steady.operand _).bind_taken fun parsed => .eat ?_ ?_
  · cases parsed.expr with
    | name => exact (expr_steady steady _).bind_taken fun value => .pure id
    | _ => exact .fail
  · cases parsed.clauses? with
    | some clauses => exact .pure id
    | none => exact .finish fun value => .pure id

/-- An argument. -/
theorem argument_steady (found : CallArguments) :
    (inner.argument found).Steady guard room (fun _ => False) (other.argument found) := by
  have value := expr_steady steady Power.untilComma
  refine .eat (value.bind_taken fun _ => .pure id) ?_
  exact .eat (value.bind_taken fun _ => .pure id) (plainArgument_steady steady found)

/-- One turn of reading the arguments of a call. -/
theorem argumentTurn_steady (found : CallArguments) :
    (Expr.argumentTurn inner found).Steady guard room Turn.GoesOn
      (Expr.argumentTurn other found) := by
  refine .check fun ended => .ite (fun _ => .pure id) fun _ => ?_
  exact (argument_steady steady found).bind fun more => .eat (.pure id) (.pure id)

/-- The arguments of a call. -/
theorem callArguments_steady :
    inner.callArguments.Steady guard room (fun _ => False) other.callArguments := by
  rw [Expr.callArguments_eq, Expr.callArguments_eq]
  exact (steady.loop (argumentTurn_steady steady)).bind fun found => .expect fun _ => .pure id

/-- A call. -/
theorem callRule_consumes : (inner.callRule left).Consumes guard room (other.callRule left) :=
  .advance fun _ => .finish fun _ => (callArguments_steady steady).bind fun _ => .pure id

end joins

end Inner

section operands

variable {inner other : Inner} (steady : inner.Steady guard room other)
include steady

/-- The start of an operand that is no name takes the token in front. -/
theorem PrefixRule.parse_consumes {rule : PrefixRule} (unnamed : rule ≠ .name) :
    (rule.parse inner).Consumes guard room (rule.parse other) := by
  cases rule with
  | name => exact absurd rfl unnamed
  | number => exact Inner.numberRule_consumes
  | string => exact Inner.stringRule_consumes
  | constant => exact Inner.constantRule_consumes
  | ellipsis => exact Inner.ellipsisRule_consumes
  | unary => exact Inner.unaryRule_consumes steady
  | starred => exact Inner.starredRule_consumes steady
  | await => exact Inner.awaitRule_consumes steady
  | yield => exact Inner.yieldRule_consumes steady
  | lambda => exact Inner.lambdaRule_consumes steady
  | grouping => exact Inner.groupingRule_consumes steady
  | list => exact Inner.listRule_consumes steady
  | brace => exact Inner.braceRule_consumes steady

/-- What is read on behind an operand takes the token in front. -/
theorem InfixRule.parse_consumes (rule : InfixRule) (left : Parsed) (power : Power) :
    (rule.parse inner left power).Consumes guard room (rule.parse other left power) := by
  cases rule with
  | tuple => exact Inner.tupleRule_consumes steady power
  | comprehension => exact Inner.comprehensionRule_consumes steady
  | conditional => exact Inner.conditionalRule_consumes steady
  | boolean => exact Inner.booleanRule_consumes steady power
  | comparison => exact Inner.comparisonRule_consumes steady power
  | binary => exact Inner.binaryRule_consumes steady power
  | power => exact Inner.powerRule_consumes steady power
  | adjacent => exact Inner.adjacentRule_consumes
  | member => exact Inner.memberRule_consumes
  | subscript => exact Inner.subscriptRule_consumes steady
  | call => exact Inner.callRule_consumes steady

/-- The rule of the token in front takes it. -/
theorem prefixRule_steady :
    (prefixRule >>= fun rule => rule.parse inner).Steady guard (room + 1) (fun _ => True)
      (prefixRule >>= fun rule => rule.parse other) := by
  intro state listed within
  refine .look (fun state => ((state.grammar.behavior? state.current).bind
    Behavior.prefixRule).getD .name) rfl (by rw [State.guarded_current]; rfl) ?_
  cases known : state.grammar.behavior? state.current with
  | none => exact Inner.nameRule_steady state listed within
  | some behavior =>
    have front := listed.ahead_of_behavior known
    by_cases named : ((some behavior).bind Behavior.prefixRule).getD .name = .name
    · rw [named]
      exact Inner.nameRule_steady state listed within
    · exact PrefixRule.parse_consumes steady named state listed front within

/-- One turn of reading on behind an operand takes the token in front, or ends. -/
theorem Inner.climb_steady (power : Power) (left : Parsed) :
    (inner.climb power left).Steady guard (room + 1) Turn.GoesOn (other.climb power left) := by
  unfold Inner.climb
  intro state listed within
  rw [infixRule?_bind, infixRule?_bind]
  refine .look (fun state => state.grammar.behavior? state.current) rfl
    (by rw [State.guarded_current]; rfl) ?_
  cases known : state.grammar.behavior? state.current with
  | none => exact .pure listed id
  | some behavior =>
    have front := listed.ahead_of_behavior known
    cases (some behavior).bind fun behavior =>
      if behavior.power ≤ power then none else behavior.infixRule.map (·, behavior.power) with
    | none => exact .pure listed id
    | some found =>
      have consumes := found.1.parse_consumes steady left found.2
      exact (consumes state listed front within).bind_taken fun _ _ onward _ => .pure onward id

/-- An operand is steady and takes a token, if the bounds on its turns are enough. -/
theorem operandWith_steady {turns otherTurns : Nat} (enough : room + 1 ≤ turns)
    (otherEnough : room + 1 ≤ otherTurns) (power : Power) :
    (operandWith inner turns power).Steady guard (room + 1) (fun _ => True)
      (operandWith other otherTurns power) := by
  have climbs (first : Parsed) : (loop (inner.climb power) turns first).Steady guard (room + 1)
      (fun _ => False) (loop (other.climb power) otherTurns first) :=
    .loop (Inner.climb_steady steady power) enough otherEnough
  have whole (inner : Inner) (turns : Nat) : operandWith inner turns power =
      ((prefixRule >>= fun rule => rule.parse inner) >>= loop (inner.climb power) turns) := by
    rw [Inner.operandWith_eq, bind_assoc]
  rw [whole, whole]
  exact (prefixRule_steady steady).bind_taken climbs

end operands

/-- Operands of any depth are steady, if the depths are as great as the room. -/
theorem operandAt_steady {depth otherDepth : Nat} (enough : room ≤ depth)
    (otherEnough : room ≤ otherDepth) (power : Power) :
    (operandAt depth power).Steady guard room (fun _ => True) (operandAt otherDepth power) := by
  induction room generalizing depth otherDepth power with
  | zero =>
    intro state listed within
    exact absurd within (Nat.not_lt_zero _)
  | succ room ih =>
    obtain ⟨depth, rfl⟩ : ∃ less, depth = less + 1 := ⟨depth - 1, by omega⟩
    obtain ⟨otherDepth, rfl⟩ : ∃ less, otherDepth = less + 1 := ⟨otherDepth - 1, by omega⟩
    have inside : Inner.Steady guard room ⟨depth, operandAt depth⟩
        ⟨otherDepth, operandAt otherDepth⟩ :=
      ⟨Nat.le_of_succ_le_succ enough, Nat.le_of_succ_le_succ otherEnough,
        ih (Nat.le_of_succ_le_succ enough) (Nat.le_of_succ_le_succ otherEnough)⟩
    exact operandWith_steady inside enough otherEnough power

/-- What reads operands up to a bound is steady. -/
theorem Inner.steady_upTo {bound otherBound : Nat} (enough : room ≤ bound)
    (otherEnough : room ≤ otherBound) :
    (Inner.upTo bound).Steady guard room (Inner.upTo otherBound) :=
  ⟨enough, otherEnough, operandAt_steady enough otherEnough⟩

end Offside
