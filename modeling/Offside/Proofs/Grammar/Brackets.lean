import Offside.Proofs.Grammar.Balance
import Offside.Proofs.Grammar.Derivation
import Offside.Proofs.Layout.Discipline

/-!
# Brackets of expressions

In each production of an expression every bracket that is opened is closed, but for the bracket in
front of the elements of a display, which close it (`ExprProduction.brackets`). So the tokens of an
expression close no bracket that they have not opened, and they close all of those
(`Derives.brackets`).
-/
namespace Offside

/-- The phrase holds the end of a display, whose opening bracket is before it. -/
def Phrase.closes : Phrase → Bool
  | .elements .. | .braces _ | .pairs .. | .members .. => true
  | _ => false

/-- The number of open brackets behind what a symbol covers. -/
def Symbol.bracketsBehind? (depth : Nat) : Symbol → Option Nat
  | .terminal (.text written) | .terminal (.word written _) =>
    Offside.bracketsBehind? written depth
  | .phrase inner => if inner.closes then if depth = 0 then none else some (depth - 1) else some depth
  | _ => some depth

/-- The phrase is a part of an expression. -/
def Phrase.isExpression : Phrase → Bool
  | .operand .. | .start _ | .climb .. | .join .. | .optionalOperand .. | .optional .. | .expr ..
  | .optionalTarget .. | .target .. | .moreTargets .. | .forIn .. | .conditions .. | .clause _
  | .elements .. | .braces _ | .pair .. | .pairs .. | .members .. | .tuple .. | .comparison _
  | .dimension _ | .dimensions .. | .argument .. | .arguments .. | .parameter .. | .default _
  | .nextParameter .. | .parameters .. => true
  | _ => false

/-- The symbol is a part of an expression. -/
@[simp] def Symbol.InExpression : Symbol → Prop
  | .terminal (.layout _) | .terminal (.augmented _) => False
  | .phrase inner => inner.isExpression = true
  | _ => True

/-- A text with a meaning of its own at the start of an operand opens and closes no bracket, unless
it starts a display or a group. -/
theorem PrefixRule.brackets {rule : PrefixRule} {text : String} (listed : text ∈ rule.texts)
    (other : rule ≠ .grouping ∧ rule ≠ .list ∧ rule ≠ .brace) (depth : Nat) :
    bracketsBehind? text depth = some depth := by
  have texts : ∀ entry ∈ Grammar.standard.byText, entry.2.prefixRule = some .grouping ∨
      entry.2.prefixRule = some .list ∨ entry.2.prefixRule = some .brace ∨
      ["(", "[", "\x7b"].contains entry.1 = false ∧ [")", "]", "\x7d"].contains entry.1 = false := by
    decide
  obtain ⟨entry, member, rfl⟩ := List.mem_map.1 listed
  obtain ⟨inside, means⟩ := List.mem_filter.1 member
  have means : entry.2.prefixRule = some rule := by simpa using means
  rcases texts entry inside with group | list | brace | ⟨opens, closes⟩
  · exact absurd (Option.some.inj (means.symm.trans group)) other.1
  · exact absurd (Option.some.inj (means.symm.trans list)) other.2.1
  · exact absurd (Option.some.inj (means.symm.trans brace)) other.2.2
  · rw [bracketsBehind?, opens, closes]
    rfl

/-- The text of a comparison opens and closes no bracket. -/
theorem Comparison.brackets {text : String} {operator : Comparison}
    (written : Comparison.ofText? text = some operator) (depth : Nat) :
    bracketsBehind? text depth = some depth := by
  have texts : ∀ entry ∈ Comparison.table, ["(", "[", "\x7b"].contains entry.1 = false ∧
      [")", "]", "\x7d"].contains entry.1 = false := by decide
  obtain ⟨front, back, same, -⟩ := List.lookup_eq_some_iff.1 written
  obtain ⟨opens, closes⟩ :=
    texts (text, operator) (same ▸ List.mem_append_right front List.mem_cons_self)
  rw [bracketsBehind?, opens, closes]
  rfl

/-- The productions of expressions are made up of parts of expressions. -/
theorem ExprProduction.inExpression {phrase : Phrase} {body : List Symbol}
    (production : ExprProduction phrase body) : ∀ symbol ∈ body, symbol.InExpression := by
  cases production
  all_goals simp [Phrase.isExpression]

/-- The productions of statements are none of expressions. -/
theorem StmtProduction.not_isExpression {phrase : Phrase} {body : List Symbol}
    (production : StmtProduction phrase body) : phrase.isExpression = false := by
  cases production
  all_goals rfl

/-- In each production of an expression brackets are opened and closed as the phrase says. -/
theorem ExprProduction.brackets {phrase : Phrase} {body : List Symbol}
    (production : ExprProduction phrase body) (depth : Nat) :
    body.foldlM Symbol.bracketsBehind? depth = Symbol.bracketsBehind? depth (.phrase phrase) := by
  cases production
  case constant listed =>
    simp [Symbol.bracketsBehind?, Phrase.closes, PrefixRule.brackets listed]
  case unary listed =>
    simp [Symbol.bracketsBehind?, Phrase.closes, PrefixRule.brackets listed]
  case comparison written =>
    simp [Symbol.bracketsBehind?, Phrase.closes, Comparison.brackets written]
  case boolean operator _ _ | booleanChain operator _ _ => cases operator <;> rfl
  case binary operator _ _ _ => cases operator <;> rfl
  all_goals first | rfl | (cases depth <;> rfl)

/-- A production of a part of an expression is one of expressions. -/
theorem Production.of_isExpression {phrase : Phrase} {body : List Symbol}
    (production : Production phrase body) (inside : phrase.isExpression = true) :
    ExprProduction phrase body := by
  cases production with
  | expr production => exact production
  | stmt production =>
    rw [production.not_isExpression] at inside
    contradiction

/-- A name is no bracket. -/
theorem Token.IsPlain.not_bracket {token : Token} (plain : token.IsPlain)
    (named : token.kind = .name) (depth : Nat) :
    Offside.bracketsBehind? token.value depth = some depth := by
  have apart : ∀ bracket ∈ ["(", "[", "\x7b", ")", "]", "\x7d"], token.value ≠ bracket := by
    intro bracket member same
    have none_ : ∀ bracket ∈ ["(", "[", "\x7b", ")", "]", "\x7d"],
        bracket.toList.any (fun c => !Text.isNamePart c) = true := by decide
    obtain ⟨c, inside, other⟩ := List.any_eq_true.1 (none_ bracket member)
    rw [plain named c (same ▸ inside)] at other
    contradiction
  have opens : ["(", "[", "\x7b"].contains token.value = false := by
    rw [Bool.eq_false_iff]
    intro listed
    have member := List.contains_iff_mem.1 listed
    exact apart token.value (List.mem_append_left [")", "]", "\x7d"] member) rfl
  have closes : [")", "]", "\x7d"].contains token.value = false := by
    rw [Bool.eq_false_iff]
    intro listed
    have member := List.contains_iff_mem.1 listed
    exact apart token.value (List.mem_append_right ["(", "[", "\x7b"] member) rfl
  rw [Offside.bracketsBehind?, opens, closes]
  rfl

/-- A token opens and closes the bracket that its terminal asks for. -/
theorem Terminal.Admits.brackets {terminal : Terminal} {token : Token}
    (admits : terminal.Admits token) (plain : token.IsPlain)
    (inside : (Symbol.terminal terminal).InExpression) (depth : Nat) :
    token.bracketsBehind? depth = Symbol.bracketsBehind? depth (.terminal terminal) ∧
      token.kind.isAside = false := by
  have text {written : String} (same : token.isText written = true) :
      token.bracketsBehind? depth = Offside.bracketsBehind? written depth ∧
        token.kind.isAside = false := by
    simp only [Token.isText, Bool.and_eq_true, Bool.or_eq_true, beq_iff_eq] at same
    obtain ⟨kind, rfl⟩ := same
    rcases kind with named | operator
    · rw [Token.bracketsBehind?, named, plain.not_bracket named]
      exact ⟨rfl, rfl⟩
    · rw [Token.bracketsBehind?, operator]
      exact ⟨rfl, rfl⟩
  cases terminal with
  | text written => exact text admits
  | word written line => exact text admits.1
  | identifier | name | number | string =>
    rw [Token.bracketsBehind?, admits.1]
    exact ⟨rfl, rfl⟩
  | layout | augmented => exact inside.elim

/-- The tokens that parts of expressions cover open and close brackets as these say, and they are
lexemes of statements. -/
theorem Derives.brackets {symbols : List Symbol} {dropped : List Expr}
    {ahead behind : List Token} (derives : Derives symbols dropped ahead behind)
    (inside : ∀ symbol ∈ symbols, symbol.InExpression) (plain : ∀ token ∈ ahead, token.IsPlain)
    {depth after : Nat} (fits : symbols.foldlM Symbol.bracketsBehind? depth = some after) :
    ∃ covered, ahead = covered ++ behind ∧
      covered.foldlM Token.bracketsBehind? depth = some after ∧
      ∀ token ∈ covered, token.kind.isAside = false := by
  induction derives generalizing depth after with
  | nil => exact ⟨[], rfl, fits, fun _ member => absurd member List.not_mem_nil⟩
  | @terminal terminal symbols dropped token ahead behind admits rest ih =>
    obtain ⟨here, later⟩ := List.forall_mem_cons.1 inside
    obtain ⟨first, others⟩ := List.forall_mem_cons.1 plain
    obtain ⟨counts, lexeme⟩ := admits.brackets first here depth
    rw [List.foldlM_cons] at fits
    obtain ⟨between, step, more⟩ := Option.bind_eq_some_iff.1 fits
    obtain ⟨covered, rfl, counted, lexemes⟩ := ih later others more
    refine ⟨token :: covered, rfl, ?_, List.forall_mem_cons.2 ⟨lexeme, lexemes⟩⟩
    rw [List.foldlM_cons, counts, step]
    exact counted
  | @phrase phrase body symbols first second ahead between behind production within rest ihBody
      ihRest =>
    obtain ⟨here, later⟩ := List.forall_mem_cons.1 inside
    have production := production.of_isExpression here
    rw [List.foldlM_cons] at fits
    obtain ⟨middle, step, more⟩ := Option.bind_eq_some_iff.1 fits
    rw [← production.brackets] at step
    obtain ⟨front, rfl, counted, lexemes⟩ := ihBody production.inExpression plain step
    obtain ⟨back, rfl, others, rest⟩ :=
      ihRest later (fun token member => plain token (List.mem_append_right _ member)) more
    refine ⟨front ++ back, (List.append_assoc _ _ _).symm, ?_,
      List.forall_mem_append.2 ⟨lexemes, rest⟩⟩
    rw [List.foldlM_append, counted]
    exact others
  | dropped rest ih =>
    obtain ⟨-, later⟩ := List.forall_mem_cons.1 inside
    exact ih later plain fits

end Offside
