import Offside.Proofs.Grammar.Starts

/-!
# Operands follow the grammar

The rules that read on behind an operand follow their productions. By induction on the depth,
operands of any depth do (`Inner.sound_upTo`).
-/
namespace Offside

open Parse Literal

/-- The texts of the tokens that a rule reads behind an operand, with their powers. -/
def InfixRule.marks (rule : InfixRule) : List (String × Nat) :=
  (Grammar.standard.byText.filter fun entry => entry.2.infixRule = some rule).map
    fun entry => (entry.1, entry.2.power)

/-- A token that a rule reads behind an operand binds more tightly than the power. It is a string
for the rule of strings and one of the texts of the rule for each other one. -/
theorem Token.infixRule?_cases {token : Token} {power found : Nat} {rule : InfixRule}
    (means : token.infixRule? power = some (rule, found)) :
    power < found ∧
      ((token.kind = .string ∧ rule = .adjacent ∧ found = Power.adjacent) ∨
        (token.isText token.value = true ∧ (token.value, found) ∈ rule.marks)) := by
  rw [infixRule?] at means
  split at means
  · rename_i behavior known
    split at means
    · contradiction
    · rename_i tighter
      obtain ⟨other, same, pair⟩ := Option.map_eq_some_iff.1 means
      obtain ⟨rfl, rfl⟩ := Prod.mk.inj pair
      refine ⟨Nat.lt_of_not_le tighter, ?_⟩
      rcases behavior?_cases known with ⟨-, rfl⟩ | ⟨string, rfl⟩ | ⟨written, listed⟩
      · contradiction
      · obtain rfl := Option.some.inj same
        exact .inl ⟨string, rfl, rfl⟩
      · refine .inr ⟨written, ?_⟩
        exact List.mem_map.2 ⟨_, List.mem_filter.2 ⟨listed, decide_eq_true same⟩, rfl⟩
  · contradiction

/-- A token of a rule other than the one for strings is one of the texts of the rule. -/
theorem Token.text_of_infixRule? {token : Token} {power found : Nat} {rule : InfixRule}
    (means : token.infixRule? power = some (rule, found)) (other : rule ≠ .adjacent) :
    token.isText token.value = true ∧ (token.value, found) ∈ rule.marks := by
  rcases (infixRule?_cases means).2 with ⟨-, same, -⟩ | listed
  · exact absurd same other
  · exact listed

/-- A token of a rule with one text has that text and its power. -/
theorem Token.mark_of_infixRule? {text : String} {binding : Nat} {rule : InfixRule}
    (single : rule.marks = [(text, binding)]) {power found : Nat} {token : Token}
    (means : token.infixRule? power = some (rule, found)) :
    token.isText text = true ∧ found = binding := by
  have other : rule ≠ .adjacent := by
    rintro rfl
    have unlisted : InfixRule.adjacent.marks = [] := by decide
    rw [unlisted] at single
    contradiction
  obtain ⟨written, listed⟩ := text_of_infixRule? means other
  rw [single, List.mem_singleton] at listed
  obtain ⟨same, rfl⟩ := Prod.mk.inj listed
  rw [same] at written
  exact ⟨written, rfl⟩

/-- A look for the rule that goes on with the token in front is a look for its meaning. -/
theorem infixRule?_bind {β : Type} {power : Power}
    {next : Option (InfixRule × Power) → Parse β} :
    infixRule? power >>= next = behavior? >>= fun found => next (found.bind fun behavior =>
      if behavior.power ≤ power then none else behavior.infixRule.map (·, behavior.power)) := by
  rw [infixRule?, bind_assoc]
  congr 1
  funext found
  cases found with
  | none => rfl
  | some behavior => by_cases within : behavior.power ≤ power <;> simp [within]

variable {waiting : List Expr}

/-- A look for the rule that goes on with the token in front. -/
theorem Parse.Follows.infixRule? {β : Type} {after : List Expr} {front : Token → Prop}
    {before : List Symbol} {fits : β → List Symbol → Prop} {power : Nat}
    {next : Option (InfixRule × Power) → Parse β}
    (later : ∀ found, (next found).Follows waiting after
      (fun token => token.infixRule? power = found) before fits) :
    (Offside.infixRule? power >>= next).Follows waiting after front before fits := by
  rw [infixRule?_bind]
  refine .behavior? fun found => (later _).weaken ?_
  rintro token ⟨-, rfl⟩
  rw [Token.infixRule?]
  cases token.behavior? <;> rfl

namespace Inner

variable {inner : Inner} (sound : inner.Sound waiting) {left : Parsed} {power found : Nat}

section joins

include sound

/-- A comma and the further elements of a tuple. -/
theorem tupleRule_follows :
    (inner.tupleRule left found).Follows waiting waiting
      (fun token => token.infixRule? power = some (.tuple, found)) []
      fun out => Production (.join found left out) := by
  have mark {token : Token} := @Token.mark_of_infixRule? "," Power.comma .tuple (by decide) power
    found token
  refine .advance_text (fun _ means => (mark means).1) fun _ means => ?_
  obtain rfl := (mark means).2
  refine .finish fun bare => ?_
  refine (Makes.loop (.tuple Power.comma) (fun elements => ?_) _ _).bind fun elements => ?_
  · refine .atDelimiter fun ended => ?_
    cases ended with
    | true => exact .pure (.expr .tupleEnd)
    | false =>
      refine (expr_makes sound _).bind fun value => .eat ?_ ?_
      · exact .pure ⟨trivial, fun _ => .expr .tupleMore⟩
      · exact .pure (.expr .tupleLast)
  · exact .pure (.expr (.tuple bare))

/-- The conditions of a clause. -/
theorem conditions_makes : inner.conditions.Makes waiting (.conditions []) := by
  refine Makes.loop .conditions (fun conditions => ?_) _ _
  refine .eat ?_ (.pure (.expr .lastCondition))
  exact (expr_makes sound _).bind fun test => .pure ⟨trivial, fun _ => .expr .conditions⟩

/-- The comprehension with one more clause. -/
def withClause (left : Parsed) (clause : Comprehension) : Parse Parsed :=
  match left.clauses? with
  | some (element, clauses) => return .comprehension element (clauses ++ [clause])
  | none => return .comprehension (← left.finish) [clause]

omit sound in
/-- A clause goes on with a comprehension or opens one. -/
theorem withClause_follows {clause : Comprehension} :
    (withClause left clause).Follows waiting waiting (fun _ => True) [.phrase (.clause clause)]
      fun out => Production (.join Power.comprehension left out) := by
  unfold withClause
  split
  · rename_i open_
    exact .pure (.expr (.furtherClause open_))
  · exact .finish fun bare => .pure (.expr (.firstClause bare))

/-- A clause of a comprehension. -/
theorem comprehensionRule_follows :
    (inner.comprehensionRule left).Follows waiting waiting
      (fun token => token.infixRule? power = some (.comprehension, found)) []
      fun out => Production (.join found left out) := by
  have targets := forIn_makes sound Power.conditional
  have tests := conditions_makes sound
  have listed {token : Token} (means : token.infixRule? power = some (.comprehension, found)) :=
    Token.text_of_infixRule? means (by decide)
  refine .advance (fun token => .text token.value) (fun _ means => (listed means).1)
    fun token means => ?_
  have marks : ∀ mark ∈ InfixRule.comprehension.marks, mark.2 = Power.comprehension ∧
      (mark.1 = "for" ∨ mark.1 = "async") := by decide
  obtain ⟨rfl, word⟩ := marks _ (listed means).2
  dsimp only at word
  rcases word with word | word
  · have plain : ("for" == "async") = false := by decide
    simp only [word, plain, Bool.false_eq_true, if_false]
    refine targets.bind fun out => tests.bind fun conditions => ?_
    exact .reduce (.expr .clause) withClause_follows
  · simp only [word, beq_self_eq_true, if_true]
    refine .expect fun _ => ?_
    refine targets.bind fun out => tests.bind fun conditions => ?_
    exact .reduce (.expr .asyncClause) withClause_follows

/-- A condition and the other expression. -/
theorem conditionalRule_follows :
    (inner.conditionalRule left).Follows waiting waiting
      (fun token => token.infixRule? power = some (.conditional, found)) []
      fun out => Production (.join found left out) := by
  have mark {token : Token} := @Token.mark_of_infixRule? "if" Power.conditional .conditional
    (by decide) power found token
  refine .advance_text (fun _ means => (mark means).1) fun _ means => ?_
  obtain rfl := (mark means).2
  refine .finish fun bare => (expr_makes sound _).bind fun test => .expect fun _ => ?_
  exact (expr_makes sound _).bind fun orelse => .pure (.expr (.conditional bare))

/-- The operators and and or. -/
theorem booleanRule_follows :
    (inner.booleanRule left found).Follows waiting waiting
      (fun token => token.infixRule? power = some (.boolean, found)) []
      fun out => Production (.join found left out) := by
  have listed {token : Token} (means : token.infixRule? power = some (.boolean, found)) :=
    Token.text_of_infixRule? means (by decide)
  refine .advance (fun token => .text token.value) (fun _ means => (listed means).1)
    fun token means => ?_
  have marks : ∀ mark ∈ InfixRule.boolean.marks,
      (BooleanOperator.or.text, BooleanOperator.or.power) = mark ∨
      (BooleanOperator.and.text, BooleanOperator.and.power) = mark := by decide
  have named : ∃ operator : BooleanOperator, (operator.text, operator.power) =
      (token.value, found) := (marks _ (listed means).2).elim (⟨_, ·⟩) (⟨_, ·⟩)
  obtain ⟨operator, same⟩ := named
  obtain ⟨written, rfl⟩ := Prod.mk.inj same
  have decoded : (if operator.text = "and" then .and else .or : BooleanOperator) = operator := by
    cases operator <;> decide
  rw [← written, decoded]
  refine (expr_makes sound _).bind fun right => ?_
  obtain ⟨expr, form⟩ := left
  split
  · rename_i other values plain chain
    obtain rfl : form = .plain := plain
    obtain rfl : expr = .boolOp other values := chain
    split
    · rename_i same
      obtain rfl := same
      exact .pure (.expr .booleanChain)
    · exact .finish fun bare => .pure (.expr (.boolean bare))
  · exact .finish fun bare => .pure (.expr (.boolean bare))

omit sound in
/-- The words of a comparison. -/
theorem comparisonOperator_follows (token : Token) :
    (comparisonOperator token).Follows waiting waiting (fun _ => True) [.text token.value]
      fun operator => Production (.comparison operator) := by
  rw [comparisonOperator]
  split
  · rename_i word
    rw [word]
    exact .expect fun _ => .pure (.expr .notIn)
  · refine .check fun negated => ?_
    split
    · rename_i both
      rw [Bool.and_eq_true, decide_eq_true_eq] at both
      obtain ⟨word, rfl⟩ := both
      rw [word]
      exact .advance_text (fun _ known => known.2) fun _ _ => .pure (.expr .isNot)
    · split
      · rename_i operator written
        exact .pure (.expr (.comparison written))
      · exact .fail

/-- A comparison. -/
theorem comparisonRule_follows :
    (inner.comparisonRule left found).Follows waiting waiting
      (fun token => token.infixRule? power = some (.comparison, found)) []
      fun out => Production (.join found left out) := by
  have listed {token : Token} (means : token.infixRule? power = some (.comparison, found)) :=
    Token.text_of_infixRule? means (by decide)
  refine .advance (fun token => .text token.value) (fun _ means => (listed means).1)
    fun token means => ?_
  have marks : ∀ mark ∈ InfixRule.comparison.marks, mark.2 = Power.comparison := by decide
  obtain rfl : found = Power.comparison := marks _ (listed means).2
  refine (comparisonOperator_follows token).bind fun operator symbols production => ?_
  refine .reduce production ((expr_makes sound _).bind fun right => ?_)
  obtain ⟨expr, form⟩ := left
  split
  · rename_i first operators comparators plain chain
    obtain rfl : form = .plain := plain
    obtain rfl : expr = .compare first operators comparators := chain
    exact .pure (.expr .compareChain)
  · exact .finish fun bare => .pure (.expr (.compare bare))

/-- A binary operator that groups to the left. -/
theorem binaryRule_follows :
    (inner.binaryRule left found).Follows waiting waiting
      (fun token => token.infixRule? power = some (.binary, found)) []
      fun out => Production (.join found left out) := by
  have listed {token : Token} (means : token.infixRule? power = some (.binary, found)) :=
    Token.text_of_infixRule? means (by decide)
  refine .advance (fun token => .text token.value) (fun _ means => (listed means).1)
    fun token means => ?_
  have marks : ∀ mark ∈ InfixRule.binary.marks, ∀ operator,
      BinaryOperator.ofText? mark.1 = some operator →
      operator.text = mark.1 ∧ operator.power = mark.2 ∧ operator ≠ .pow := by
    have table : ∀ mark ∈ InfixRule.binary.marks,
        (BinaryOperator.ofText? mark.1).all fun operator =>
          operator.text = mark.1 ∧ operator.power = mark.2 ∧ operator ≠ .pow := by decide
    intro mark member operator decoded
    simpa [decoded] using table mark member
  split
  · rename_i operator decoded
    obtain ⟨written, rfl, leftward⟩ := marks _ (listed means).2 operator decoded
    dsimp only at written
    rw [← written]
    refine .finish fun bare => (expr_makes sound _).bind fun right => ?_
    exact .pure (.expr (.binary bare leftward))
  · exact .fail

/-- The operator that groups to the right. -/
theorem powerRule_follows :
    (inner.powerRule left found).Follows waiting waiting
      (fun token => token.infixRule? power = some (.power, found)) []
      fun out => Production (.join found left out) := by
  have mark {token : Token} := @Token.mark_of_infixRule? "**" Power.power .power (by decide) power
    found token
  refine .advance_text (fun _ means => (mark means).1) fun _ means => ?_
  obtain rfl := (mark means).2
  refine .finish fun bare => (expr_makes sound _).bind fun right => ?_
  exact .pure (.expr (.power bare))

omit sound in
/-- A further string literal. -/
theorem adjacentRule_follows :
    (adjacentRule left).Follows waiting waiting
      (fun token => token.infixRule? power = some (.adjacent, found)) []
      fun out => Production (.join found left out) := by
  refine .current fun token means => .lift fun value decoded => .lift fun expr joined => ?_
  have unlisted : InfixRule.adjacent.marks = [] := by decide
  obtain ⟨string, -, rfl⟩ := (Token.infixRule?_cases means).2.resolve_right (by simp [unlisted])
  obtain ⟨first, form⟩ := left
  refine .advance (fun _ => .string value) ?_ fun _ _ => .pure ?_
  · rintro _ rfl
    exact ⟨string, decoded⟩
  · cases first <;> cases value <;> cases joined
    · exact .expr .adjacentText
    · exact .expr .adjacentBytes

omit sound in
/-- A member. -/
theorem memberRule_follows :
    (memberRule left).Follows waiting waiting
      (fun token => token.infixRule? power = some (.member, found)) []
      fun out => Production (.join found left out) := by
  have mark {token : Token} := @Token.mark_of_infixRule? "." Power.postfixed .member (by decide)
    power found token
  refine .advance_text (fun _ means => (mark means).1) fun _ means => ?_
  obtain rfl := (mark means).2
  refine .finish fun bare => .checkKind fun named => ?_
  cases named with
  | true =>
    refine .advance (fun token => .name token.value) (fun token known => ?_) fun _ _ => ?_
    · exact ⟨of_decide_eq_true known.2, rfl⟩
    · exact .pure (.expr (.member bare))
  | false => exact .failExpected

/-- One dimension of a subscript. -/
theorem dimension_makes : inner.dimension.Makes waiting .dimension := by
  have bound := optionalExpr_makes sound Power.untilComma
  refine Follows.makes (bound.bind fun lower => .eat ?_ ?_)
  · refine bound.bind fun upper => .eat ?_ ?_
    · exact bound.bind fun step => .pure (.expr .steppedRange)
    · exact .pure (.expr .range)
  · cases lower with
    | none => exact .fail
    | some value => exact .pure (.expr .index)

/-- The dimensions of a subscript. -/
theorem dimensions_makes : inner.dimensions.Makes waiting (.dimensions [] false) := by
  refine Makes.loop (fun found : List Slice × Bool => .dimensions found.1 found.2)
    (fun found => ?_) _ _
  refine (dimension_makes sound).bind fun slice => .eat (.check fun closed => ?_) ?_
  · cases closed with
    | true => exact .pure (.expr .commaDimension)
    | false => exact .pure ⟨trivial, fun _ => .expr .dimensions⟩
  · exact .pure (.expr .lastDimension)

/-- A subscript. -/
theorem subscriptRule_follows :
    (inner.subscriptRule left).Follows waiting waiting
      (fun token => token.infixRule? power = some (.subscript, found)) []
      fun out => Production (.join found left out) := by
  have mark {token : Token} := @Token.mark_of_infixRule? "[" Power.postfixed .subscript
    (by decide) power found token
  refine .advance_text (fun _ means => (mark means).1) fun _ means => ?_
  obtain rfl := (mark means).2
  refine .finish fun bare => (dimensions_makes sound).bind fun out => .expect fun _ => ?_
  exact .pure (.expr (.subscript bare))

/-- An argument without stars. -/
theorem plainArgument_follows (arguments : CallArguments) :
    (inner.plainArgument arguments).Follows waiting waiting (fun _ => True) []
      fun out => Production (.argument arguments out) := by
  refine (sound _).bind fun parsed => .eat ?_ ?_
  · rw [if_pos rfl]
    split
    · rename_i named
      exact (expr_makes sound _).bind fun value => .pure (.expr (.keywordArgument named))
    · exact .fail
  · rw [if_neg Bool.false_ne_true]
    split
    · rename_i open_
      exact .pure (.expr (.generatorArgument open_))
    · exact .finish fun bare => .pure (.expr (.plainArgument bare))

/-- An argument. -/
theorem argument_makes (arguments : CallArguments) :
    (inner.argument arguments).Makes waiting (.argument arguments) := by
  have unpacked := expr_makes sound Power.untilComma
  refine Follows.makes (.eat ?_ (.eat ?_ ?_))
  · exact unpacked.bind fun value => .pure (.expr .mappingArgument)
  · exact unpacked.bind fun value => .pure (.expr .starredArgument)
  · exact (plainArgument_follows sound arguments).weaken fun _ _ => trivial

/-- The arguments behind an opening parenthesis, and the closing one. -/
theorem callArguments_follows {before : List Symbol} :
    inner.callArguments.Follows waiting waiting (fun _ => True) before fun out symbols =>
      symbols = before ++ [.phrase (.arguments ⟨[], []⟩ out)] ++ [.text ")"] := by
  refine (Makes.loop .arguments (fun arguments => ?_) _ _).bind fun out => ?_
  · refine .check fun closed => ?_
    cases closed with
    | true => exact .pure (.expr .argumentsEnd)
    | false =>
      refine (argument_makes sound arguments).bind fun next => .eat ?_ ?_
      · exact .pure ⟨trivial, fun _ => .expr .arguments⟩
      · exact .pure (.expr .lastArgument)
  · exact .expect fun _ => .pure rfl

/-- A call. -/
theorem callRule_follows :
    (inner.callRule left).Follows waiting waiting
      (fun token => token.infixRule? power = some (.call, found)) []
      fun out => Production (.join found left out) := by
  have mark {token : Token} := @Token.mark_of_infixRule? "(" Power.postfixed .call (by decide)
    power found token
  refine .advance_text (fun _ means => (mark means).1) fun _ means => ?_
  obtain rfl := (mark means).2
  refine .finish fun bare => (callArguments_follows sound).bind fun out symbols same => ?_
  rw [same]
  exact .pure (.expr (.call bare))

end joins

end Inner

/-- What is read on behind an operand is read by the rule of its token. -/
theorem InfixRule.parse_follows {inner : Inner} (sound : inner.Sound waiting) {left : Parsed}
    {power found : Nat} (rule : InfixRule) :
    (rule.parse inner left found).Follows waiting waiting
      (fun token => token.infixRule? power = some (rule, found)) []
      fun out => Production (.join found left out) := by
  cases rule with
  | tuple => exact Inner.tupleRule_follows sound
  | comprehension => exact Inner.comprehensionRule_follows sound
  | conditional => exact Inner.conditionalRule_follows sound
  | boolean => exact Inner.booleanRule_follows sound
  | comparison => exact Inner.comparisonRule_follows sound
  | binary => exact Inner.binaryRule_follows sound
  | power => exact Inner.powerRule_follows sound
  | adjacent => exact Inner.adjacentRule_follows
  | member => exact Inner.memberRule_follows
  | subscript => exact Inner.subscriptRule_follows sound
  | call => exact Inner.callRule_follows sound

/-- An operand with what is read on behind it. -/
theorem operandWith_makes {inner : Inner} (sound : inner.Sound waiting) (turns : Nat)
    (power : Nat) : (operandWith inner turns power).Makes waiting (.operand power) := by
  refine Follows.makes (.prefixRule fun rule => ?_)
  refine (rule.parse_follows sound).bind fun first symbols production => .reduce production ?_
  refine Makes.last (Makes.loop (.climb power) (fun left => ?_) turns first)
    fun out => .expr .operand
  refine .infixRule? fun found? => ?_
  split
  · rename_i rule found
    refine .known fun token means => ?_
    have tighter := (Token.infixRule?_cases means).1
    refine (rule.parse_follows sound).bind fun next symbols production => .reduce production ?_
    exact .pure ⟨trivial, fun _ => .expr (.climb tighter)⟩
  · exact .pure (.expr .climbed)

/-- Operands of any depth follow the grammar. -/
theorem operandAt_makes (depth : Nat) (power : Nat) :
    (operandAt depth power).Makes waiting (.operand power) := by
  induction depth generalizing power with
  | zero => exact Follows.makes .failExpression
  | succ depth ih => exact operandWith_makes (fun power => ih power) _ power

/-- What reads operands up to a bound makes them. -/
theorem Inner.sound_upTo (bound : Nat) : (Inner.upTo bound).Sound waiting :=
  fun power => operandAt_makes bound power

end Offside
