import Offside.Proofs.Expression.Decimal
import Offside.Proofs.Expression.Slots

/-!
# Reading back operators

Names, literals and operators read back if their operands do. A chain of conditions or comparisons
is read operator by operator, and each one makes the chain longer (`Expr.climbs_boolOp`,
`Expr.climbs_compare`). An operand in parentheses does not become part of the chain.
-/
namespace Offside

open Parse Text Literal

namespace Expr

/-- A name reads back. -/
theorem reads_name {id : String} (identifier : isIdentifier id = true) :
    (name id .load).Reads := by
  intro power rest out left _ _ later
  have free : (Token.word id).isKeyword = false := by
    rw [isIdentifier, Bool.and_eq_true] at identifier
    simpa [Token.isKeyword, Token.word] using identifier.2
  have read : nameRule.Gives (.word id :: rest) (.plain (.name id .load)) rest := by
    refine .current_bind fun found same => ?_
    have named : (decide (found.kind = .name) && !found.isKeyword) = true := by
      rw [show found.kind = .name from congrArg Token.kind same,
        show found.isKeyword = false from (congrArg Token.isKeyword same).trans free]
      rfl
    rw [if_pos named, Token.value_of_bare same]
    exact .advance_bind fun _ _ => .pure _ rest
  have starts : (Token.word id).prefixRule = .name := by
    rw [Token.prefixRule, Token.behavior?_word identifier]
    rfl
  exact .start starts (fun _ _ => read) (Nat.le_refl _) later

/-- An integer that is not negative reads back. -/
theorem reads_num {value : Narrow} (positive : 0 ≤ value.value) : (num (.int value)).Reads := by
  intro power rest out left _ _ later
  have decoded : decodeNumber (Number.int value).text = .ok (.int value) :=
    decodeNumber_decimalText positive
  have read : numberRule.Gives (.number (Number.int value).text :: rest)
      (.plain (.num (.int value))) rest := by
    refine .current_bind fun found same => ?_
    have text : found.value = (Number.int value).text := Token.value_of_bare same
    rw [text, decoded]
    exact .bind (.pure _ _) fun _ => .advance_bind fun _ _ => .pure _ rest
  have starts : (Token.number (Number.int value).text).prefixRule = .number := rfl
  exact .start starts (fun _ _ => read) (Nat.le_refl _) later

/-- A constant reads back. -/
theorem reads_constant (value : Constant) : (constant value).Reads := by
  intro power rest out left _ _ later
  have word : Constant.ofWord value.text = value := by cases value <;> decide
  have read : constantRule.Gives (.word value.text :: rest) (.plain (.constant value)) rest := by
    refine .advance_bind fun found same => ?_
    rw [Token.value_of_bare same, Token.word, word]
    exact .pure _ rest
  have starts : (Token.word value.text).prefixRule = .constant := by cases value <;> decide
  exact .start starts (fun _ _ => read) (Nat.le_refl _) later

/-- An operator before its operand is read with it at any power. -/
theorem yields_unaryOp (operator : UnaryOperator) {operand : Expr} (reads : operand.Reads)
    (led : operand.Led) {power : Nat} {rest left : List Token} {out : Parsed}
    (stops : (Token.front rest).binding ≤ operator.power)
    (later : Climbs power (.plain (unaryOp operator operand)) rest out left) :
    Yields power ((unaryOp operator operand).write ++ rest) out left := by
  have least : 5 ≤ operator.power := by cases operator <;> decide
  have written : unaryOperator operator.token.value = (operator, operator.power) := by
    cases operator <;> decide
  have starts : operator.token.prefixRule = .unary := by cases operator <;> decide
  rw [write, List.cons_append]
  refine .start starts (fun depth deep => ?_) (by simp) later
  refine .advance_bind fun found same => ?_
  rw [Token.value_of_bare same, written]
  exact .bind (reads.expr led least stops deep).2 fun _ => .pure _ rest

/-- An operator before its operand reads back. -/
theorem reads_unaryOp (operator : UnaryOperator) {operand : Expr} (reads : operand.Reads)
    (led : operand.Led) : (unaryOp operator operand).Reads :=
  fun _ _ _ _ _ closed later => yields_unaryOp operator reads led closed later

/-- The word await is read with its operand at any power. -/
theorem yields_await {value : Expr} (reads : value.Reads) (led : value.Led) {power : Nat}
    {rest left : List Token} {out : Parsed} (stops : (Token.front rest).binding ≤ 150)
    (later : Climbs power (.plain (await value)) rest out left) :
    Yields power ((await value).write ++ rest) out left := by
  have starts : (Token.word "await").prefixRule = .await := by decide
  rw [write, List.cons_append]
  refine .start starts (fun depth deep => ?_) (by simp) later
  refine .advance_bind fun _ _ => ?_
  exact .bind (reads.expr led (by decide) stops deep).2 fun _ => .pure _ rest

/-- The word await reads back. -/
theorem reads_await {value : Expr} (reads : value.Reads) (led : value.Led) :
    (await value).Reads :=
  fun _ _ _ _ _ closed later => yields_await reads led closed later

/-- A binary operator binds with its power, and is read on by the rule for its kind. -/
theorem behavior?_binary (operator : BinaryOperator) :
    ∃ behavior rule, (Token.mark operator.text).behavior? = some behavior ∧
      behavior.power = operator.power ∧ behavior.infixRule = some rule ∧
      rule = if operator = .pow then .power else .binary := by
  cases operator <;> exact ⟨_, _, rfl, rfl, rfl, rfl⟩

/-- An operand is read on with a binary operator and its right operand. -/
theorem climbs_binOp (operator : BinaryOperator) {power : Nat} (tight : power < operator.power)
    {left : Parsed} (finished : left.finish = pure left.expr) {second : Expr}
    (right : second.Reads) (rightLed : second.Led) {rest behind : List Token} {out : Parsed}
    (stops : (Token.front rest).binding ≤ operator.rightSlot)
    (later : Climbs power (.plain (binOp left.expr operator second)) rest out behind) :
    Climbs power left
      (.mark operator.text :: (wrapped operator.rightSlot second second.write ++ rest)) out
      behind := by
  have least : 5 ≤ operator.rightSlot := by cases operator <;> decide
  obtain ⟨behavior, rule, means, powers, goesOn, rules⟩ := behavior?_binary operator
  refine .step means (powers ▸ tight) goesOn (fun depth deep => ?_) (by simp) later
  have operand := (right.expr rightLed least stops deep).2
  rw [powers, rules]
  by_cases exponent : operator = .pow
  · subst exponent
    refine .advance_bind fun found same => ?_
    rw [finished]
    exact .bind (.pure _ _) fun _ => .bind operand fun _ => .pure _ rest
  · have slot : operator.rightSlot = operator.power := by
      cases operator <;> first | rfl | contradiction
    have written : BinaryOperator.ofText? operator.text = some operator := by
      cases operator <;> decide
    rw [if_neg exponent]
    refine .advance_bind fun found same => ?_
    rw [Token.value_of_bare same, Token.mark, written]
    dsimp only
    rw [finished]
    exact .bind (.pure _ _) fun _ => .bind (slot ▸ operand) fun _ => .pure _ rest

/-- A binary operator between its operands reads back. -/
theorem reads_binOp (operator : BinaryOperator) {first second : Expr} (left : first.Reads)
    (leftLed : first.Led) (right : second.Reads) (rightLed : second.Led) :
    (binOp first operator second).Reads := by
  intro power rest out behind tight closed later
  have tight : power < operator.power := by simpa [power?] using tight
  have leftLeast : 5 ≤ operator.leftSlot := by cases operator <;> decide
  have within : power ≤ operator.leftSlot := by
    have near : operator.power ≤ operator.leftSlot + 1 := by cases operator <;> decide
    omega
  have follows : Follows operator.leftSlot (Token.mark operator.text).binding := by
    cases operator <;> decide
  rw [write, List.append_assoc, List.cons_append]
  refine left.slot leftLed within leftLeast follows ?_
  exact climbs_binOp operator tight (inSlot_finish _ _) right rightLed closed later

/-- A conditional expression reads back. -/
theorem reads_ifExp {test body orelse : Expr} (condition : test.Reads) (conditionLed : test.Led)
    (holds : body.Reads) (holdsLed : body.Led) (fails : orelse.Reads) (failsLed : orelse.Led) :
    (ifExp test body orelse).Reads := by
  intro power rest out behind tight closed later
  have tight : power < 20 := by simpa [power?] using tight
  have means : (Token.word "if").behavior? = some (.joining 20 .conditional) := by decide
  have follows : Follows 20 (Token.word "if").binding := by decide
  have stops : (Token.word "else").binding ≤ 20 := by decide
  rw [write, List.append_assoc, List.cons_append, List.append_assoc, List.cons_append]
  refine holds.slot holdsLed (Nat.le_of_lt tight) (by decide) follows ?_
  refine .step means tight rfl (fun depth deep => ?_) (by simp; omega) later
  refine .advance_bind fun _ _ => ?_
  rw [inSlot_finish]
  refine .bind (.pure _ _) fun _ => ?_
  refine .bind (condition.expr conditionLed (by decide) stops deep).2 fun shorter => ?_
  refine .expect_bind (by decide) fun _ => ?_
  have less : (wrapped 19 orelse orelse.write ++ rest).length < depth := by
    rw [List.length_cons] at shorter
    omega
  exact .bind (fails.expr failsLed (by decide) closed less).2 fun _ => .pure _ rest

/-- Behind an expression stands a further one behind a separator, or what follows them all. -/
theorem binding_separated (separator : Token) (slot : Nat) {rest : List Token} {bound : Nat}
    (separates : separator.binding ≤ bound) (stops : (Token.front rest).binding ≤ bound)
    (exprs : List Expr) :
    (Token.front ((exprs.flatMap fun expr => separator :: wrapped slot expr expr.write) ++
      rest)).binding ≤ bound := by
  cases exprs with
  | nil => exact stops
  | cons expr exprs => exact separates

/-- The meaning of the word of a boolean operator. -/
theorem behavior?_boolean (operator : BooleanOperator) :
    (Token.word operator.text).behavior? = some (.joining operator.power .boolean) := by
  cases operator <;> decide

/-- The operator of a chain is read from its word. -/
theorem booleanOperator_text {operator : BooleanOperator} {token : Token}
    (same : token.bare = .word operator.text) :
    (if token.value = "and" then BooleanOperator.and else .or) = operator := by
  rw [Token.value_of_bare same]
  cases operator <;> decide

/-- A chain of conditions is read on with further ones. -/
theorem climbs_boolOp (operator : BooleanOperator) {power : Nat} (tight : power < operator.power)
    {rest left : List Token} {out : Parsed} {values more : List Expr}
    (stops : (Token.front rest).binding ≤ operator.power)
    (reads : ∀ value ∈ more, value.Reads) (led : ∀ value ∈ more, value.Led)
    (later : Climbs power (.plain (boolOp operator (values ++ more))) rest out left) :
    Climbs power (.plain (boolOp operator values))
      ((more.flatMap fun value => .word operator.text :: wrapped operator.power value value.write)
        ++ rest) out left := by
  induction more generalizing values with
  | nil => simpa using later
  | cons value more ih =>
    have least : 5 ≤ operator.power := by cases operator <;> decide
    have means := behavior?_boolean operator
    have separates : (Token.word operator.text).binding ≤ operator.power := by
      cases operator <;> decide
    have ends := binding_separated (.word operator.text) operator.power separates stops more
    have behind : Climbs power (.plain (boolOp operator (values ++ [value] ++ more))) rest out
        left := by
      rwa [List.append_assoc, List.singleton_append]
    have next := ih (fun found member => reads found (List.mem_cons_of_mem value member))
      (fun found member => led found (List.mem_cons_of_mem value member)) behind
    rw [List.flatMap_cons, List.append_assoc, List.cons_append]
    refine .step means tight rfl (fun depth deep => ?_) (by simp) next
    refine .advance_bind fun found same => ?_
    rw [booleanOperator_text same]
    have operand := ((reads value List.mem_cons_self).expr (led value List.mem_cons_self) least
      ends deep).2
    refine .bind operand fun _ => ?_
    simp only [Parsed.plain, if_true]
    exact .pure _ _

/-- A bare expression in a place for operands of a boolean operator is no chain of the operator. -/
theorem inSlot_boolOp {expr : Expr} {operator : BooleanOperator} {values : List Expr}
    (form : (expr.inSlot operator.power).form = .plain)
    (found : (expr.inSlot operator.power).expr = boolOp operator values) : False := by
  obtain rfl : expr = boolOp operator values := found
  have placed : (boolOp operator values).isWrapped operator.power = true := by
    simp [isWrapped, power?]
  rw [inSlot, if_pos placed] at form
  contradiction

/-- Two or more conditions read back. -/
theorem reads_boolOp (operator : BooleanOperator) {values : List Expr}
    (several : 2 ≤ values.length) (reads : ∀ value ∈ values, value.Reads)
    (led : ∀ value ∈ values, value.Led) : (boolOp operator values).Reads := by
  intro power rest out behind tight closed later
  match values with
  | [] | [_] => simp at several
  | first :: second :: more =>
    have tight : power < operator.power := by simpa [power?] using tight
    have least : 5 ≤ operator.power := by cases operator <;> decide
    have means := behavior?_boolean operator
    have follows : Follows operator.power (Token.word operator.text).binding := by
      cases operator <;> decide
    have separates : (Token.word operator.text).binding ≤ operator.power := by
      cases operator <;> decide
    have ends := binding_separated (.word operator.text) operator.power separates closed more
    have firstReads := reads first (by simp)
    have firstLed := led first (by simp)
    have secondReads := reads second (by simp)
    have secondLed := led second (by simp)
    have whole : Climbs power (.plain (boolOp operator ([first, second] ++ more))) rest out
        behind := later
    have next := climbs_boolOp operator tight closed
      (fun found member => reads found (by simp [member]))
      (fun found member => led found (by simp [member])) whole
    rw [write, writeSeparated_cons, List.flatMap_cons, List.append_assoc, List.append_assoc,
      List.cons_append]
    refine firstReads.slot firstLed (Nat.le_of_lt tight) least follows ?_
    refine .step means tight rfl (fun depth deep => ?_) (by simp) next
    refine .advance_bind fun found same => ?_
    rw [booleanOperator_text same]
    refine .bind (secondReads.expr secondLed least ends deep).2 fun _ => ?_
    have joined : (do return Parsed.plain (boolOp operator
        [← (first.inSlot operator.power).finish, second]) : Parse Parsed).Gives
        ((more.flatMap fun value => .word operator.text ::
          wrapped operator.power value value.write) ++ rest)
        (.plain (boolOp operator [first, second]))
        ((more.flatMap fun value => .word operator.text ::
          wrapped operator.power value value.write) ++ rest) := by
      rw [inSlot_finish]
      exact .bind (.pure _ _) fun _ => .pure _ _
    split
    · rename_i found values form expr
      have other : found ≠ operator := by
        rintro rfl
        exact inSlot_boolOp form expr
      rw [if_neg other]
      exact joined
    · exact joined

/-- The first token of a comparison goes on behind an operand, and the comparison is read from
it, unless the word not stands behind the comparison. -/
theorem gives_comparison (operator : Comparison) : ∃ token more behavior,
    operator.tokens = token :: more ∧ token.behavior? = some behavior ∧ behavior.power = 60 ∧
      behavior.infixRule = some .comparison ∧
      ∀ found : Token, found.bare = token → ∀ behind,
        (Token.front behind).isText "not" = false →
        (Inner.comparisonOperator found).Gives (more ++ behind) operator behind := by
  have single {text : String} {found : Token} (same : found.bare.value = text)
      (other : text ≠ "not") (written : Comparison.ofText? text = some operator)
      (behind : List Token) (positive : (Token.front behind).isText "not" = false) :
      (Inner.comparisonOperator found).Gives behind operator behind := by
    have value : found.value = text := same
    rw [Inner.comparisonOperator, value, if_neg other]
    refine .bind (.check "not" behind) fun _ => ?_
    rw [positive, Bool.and_false, written]
    exact .pure operator behind
  cases operator with
  | isNot =>
    refine ⟨_, _, _, rfl, rfl, rfl, rfl, fun found same behind _ => ?_⟩
    rw [Inner.comparisonOperator, Token.value_of_bare same, if_neg (by decide)]
    exact .bind (.check "not" _) fun _ => .advance_bind fun _ _ => .pure _ behind
  | notIn =>
    refine ⟨_, _, _, rfl, rfl, rfl, rfl, fun found same behind _ => ?_⟩
    rw [Inner.comparisonOperator, Token.value_of_bare same, if_pos (by decide)]
    exact .expect_bind (by decide) fun _ => .pure _ behind
  | eq | notEq | lt | ltE | gt | gtE | is | isIn =>
    refine ⟨_, _, _, rfl, rfl, rfl, rfl, fun found same behind positive => ?_⟩
    exact single (congrArg Token.value same) (by decide) (by decide) behind positive

/-- What a comparison makes of the operand before it and the one behind it. A bare chain of
comparisons grows. -/
def joinComparison (left : Parsed) (operator : Comparison) (right : Expr) : Parse Parsed :=
  match left.form, left.expr with
  | .plain, .compare first operators comparators =>
    return .plain (.compare first (operators ++ [operator]) (comparators ++ [right]))
  | _, _ => do return .plain (.compare (← left.finish) [operator] [right])

/-- An operand is read on with a comparison. -/
theorem climbs_comparison (operator : Comparison) {power : Nat} (tight : power < 60)
    {expr whole : Expr} (reads : expr.Reads) (led : expr.Led) {left : Parsed}
    {behind rest : List Token} {out : Parsed} (stops : (Token.front behind).binding ≤ 60)
    (joins : (joinComparison left operator expr).Gives behind (.plain whole) behind)
    (later : Climbs power (.plain whole) behind out rest) :
    Climbs power left (operator.tokens ++ (wrapped 60 expr expr.write ++ behind)) out rest := by
  obtain ⟨token, more, behavior, split, means, powers, goesOn, written⟩ :=
    gives_comparison operator
  obtain ⟨first, others, front, -, positive⟩ := led.placed 60
  rw [split, List.cons_append]
  refine .step means (powers ▸ tight) goesOn (fun depth deep => ?_) (by simp; omega) later
  have operand : (Token.front (wrapped 60 expr expr.write ++ behind)).isText "not" = false := by
    rw [Token.front_append front]
    exact positive (by decide)
  refine .advance_bind fun found same => .bind (written found same _ operand) fun shorter => ?_
  rw [powers]
  exact .bind (reads.expr led (by decide) stops (Nat.lt_of_le_of_lt shorter deep)).2 fun _ => joins

/-- Behind an operand of comparisons stands a further comparison, or what follows them all. -/
theorem binding_comparisons {rest : List Token} (stops : (Token.front rest).binding ≤ 60)
    (operators : List Comparison) (exprs : List Expr) :
    (Token.front (writeComparisons operators exprs ++ rest)).binding ≤ 60 := by
  match operators, exprs with
  | [], _ => simpa [writeComparisons] using stops
  | _ :: _, [] => simpa [writeComparisons] using stops
  | operator :: operators, expr :: exprs =>
    obtain ⟨token, more, behavior, split, means, powers, -⟩ := gives_comparison operator
    rw [writeComparisons, split]
    show token.binding ≤ 60
    rw [Token.binding, means]
    exact Nat.le_of_eq powers

/-- A chain of comparisons is read on with further ones. -/
theorem climbs_compare {power : Nat} (tight : power < 60) {rest left : List Token} {out : Parsed}
    {first : Expr} {operators more : List Comparison} {comparators exprs : List Expr}
    (stops : (Token.front rest).binding ≤ 60) (paired : more.length = exprs.length)
    (reads : ∀ expr ∈ exprs, expr.Reads) (led : ∀ expr ∈ exprs, expr.Led)
    (later : Climbs power (.plain (compare first (operators ++ more) (comparators ++ exprs))) rest
      out left) :
    Climbs power (.plain (compare first operators comparators))
      (writeComparisons more exprs ++ rest) out left := by
  induction more generalizing operators comparators exprs with
  | nil =>
    obtain rfl := List.length_eq_zero_iff.1 paired.symm
    simpa [writeComparisons] using later
  | cons operator more ih =>
    cases exprs with
    | nil => simp at paired
    | cons expr exprs =>
      have behind : Climbs power (.plain (compare first (operators ++ [operator] ++ more)
          (comparators ++ [expr] ++ exprs))) rest out left := by
        rwa [List.append_assoc, List.append_assoc, List.singleton_append, List.singleton_append]
      have next := ih (Nat.succ.inj paired)
        (fun found member => reads found (List.mem_cons_of_mem expr member))
        (fun found member => led found (List.mem_cons_of_mem expr member)) behind
      rw [writeComparisons, List.append_assoc, List.append_assoc]
      exact climbs_comparison operator tight (reads expr List.mem_cons_self)
        (led expr List.mem_cons_self) (binding_comparisons stops more exprs) (.pure _ _) next

/-- A bare expression in a place for operands of comparisons is no chain of comparisons. -/
theorem joinComparison_inSlot (expr : Expr) (operator : Comparison) (right : Expr) :
    joinComparison (expr.inSlot 60) operator right =
      pure (.plain (compare expr [operator] [right])) := by
  rw [joinComparison]
  split
  · rename_i first operators comparators form found
    obtain rfl : expr = compare first operators comparators := found
    have placed : (compare first operators comparators).isWrapped 60 = true := by
      simp [isWrapped, power?]
    rw [inSlot, if_pos placed] at form
    contradiction
  · rw [inSlot_finish]
    rfl

/-- A chain of comparisons reads back. -/
theorem reads_compare {first : Expr} {operators : List Comparison} {comparators : List Expr}
    (several : 1 ≤ operators.length) (paired : operators.length = comparators.length)
    (firstReads : first.Reads) (firstLed : first.Led)
    (reads : ∀ expr ∈ comparators, expr.Reads) (led : ∀ expr ∈ comparators, expr.Led) :
    (compare first operators comparators).Reads := by
  intro power rest out behind loose closed later
  match operators, comparators with
  | [], _ => simp at several
  | _ :: _, [] => simp at paired
  | operator :: operators, expr :: exprs =>
    have tight : power < 60 := by simpa [power?] using loose
    have next := climbs_compare tight closed (Nat.succ.inj paired)
      (fun found member => reads found (List.mem_cons_of_mem expr member))
      (fun found member => led found (List.mem_cons_of_mem expr member))
      (show Climbs power (.plain (compare first ([operator] ++ operators) ([expr] ++ exprs))) rest
        out behind from later)
    have stops := binding_comparisons closed operators exprs
    have follows : Follows 60 (Token.front (operator.tokens ++ (wrapped 60 expr expr.write ++
        (writeComparisons operators exprs ++ rest)))).binding := by
      have bound := binding_comparisons closed (operator :: operators) (expr :: exprs)
      rw [writeComparisons, List.append_assoc, List.append_assoc] at bound
      exact .inl bound
    rw [write, writeComparisons]
    simp only [List.append_assoc]
    refine firstReads.slot firstLed (Nat.le_of_lt tight) (by decide) follows ?_
    refine climbs_comparison operator tight (reads expr List.mem_cons_self)
      (led expr List.mem_cons_self) stops ?_ next
    rw [joinComparison_inSlot]
    exact .pure _ _

end Expr

end Offside
