import Offside.Proofs.Expression.Written

/-!
# Reading by powers

What a parser reads from tokens in front, told by these tokens alone (`Parse.Gives`). An operand
is read by the rule of its first token (`Yields.start`) and is read on while the token behind
binds more tightly than the power that is asked for (`Climbs.step`, `Climbs.stop`). The bounds on
the depth and on the turns of loops are met, as each level and each turn takes a token.
-/
namespace Offside

namespace Token

/-- The token in front of tokens, or the end mark. -/
def front (ahead : List Token) : Token := ahead.headD (.endMarker 0)

/-- What a token means in expressions. -/
def behavior? (token : Token) : Option Behavior := Grammar.standard.behavior? token

/-- The power with which a token binds the operand before it. -/
def binding (token : Token) : Nat := (token.behavior?.map Behavior.power).getD 0

/-- The token ends an expression. -/
def isDelimiter (token : Token) : Bool :=
  token.kind = .newline || token.kind = .endMarker ||
    (token.kind = .operator && Parse.delimiters.contains token.value)

end Token

namespace Parse

variable {α β : Type}

/-- From the given tokens in front the parser reads a value and leaves the rest, which is not
longer, where the grammar is the standard one and no fault waits. Only the kinds and the texts of
tokens count. -/
def Gives (parser : Parse α) (ahead : List Token) (value : α) (rest : List Token) : Prop :=
  ∀ state : State, state.grammar = .standard → state.failure = none →
    state.ahead.map Token.bare = ahead →
    ∃ line left, left.map Token.bare = rest ∧ rest.length ≤ ahead.length ∧
      parser state = .ok value { state with ahead := left, line }

/-- A value is given without reading. -/
theorem Gives.pure (value : α) (ahead : List Token) :
    (Pure.pure value : Parse α).Gives ahead value ahead :=
  fun state _ _ same => ⟨state.line, state.ahead, same, Nat.le_refl _, rfl⟩

/-- Two parsers in order. -/
theorem Gives.bind {parser : Parse α} {next : α → Parse β} {ahead between rest : List Token}
    {value : α} {result : β} (first : parser.Gives ahead value between)
    (second : between.length ≤ ahead.length → (next value).Gives between result rest) :
    (parser >>= next).Gives ahead result rest := by
  intro state standard healthy same
  obtain ⟨line, left, kept, shorter, read⟩ := first state standard healthy same
  obtain ⟨last, behind, found, less, more⟩ :=
    second shorter { state with ahead := left, line } standard healthy kept
  refine ⟨last, behind, found, Nat.le_trans less shorter, ?_⟩
  rw [Bind.bind, Monad.toBind, EStateM.instMonad]
  simp only [EStateM.bind, read, more]

/-- A parser that looks at the token in front. -/
theorem Gives.current_bind {next : Token → Parse β} {ahead rest : List Token} {result : β}
    (later : ∀ found : Token, found.bare = Token.front ahead →
      (next found).Gives ahead result rest) :
    (Parse.current >>= next).Gives ahead result rest := by
  intro state standard healthy same
  refine later state.current ?_ state standard healthy same
  rw [← same, State.current, Token.front]
  cases state.ahead <;> rfl

/-- A value that depends on the kind and the text of the token in front. -/
theorem Gives.look {look : Token → α} (blind : ∀ token : Token, look token = look token.bare)
    (ahead : List Token) :
    (do return look (← Parse.current) : Parse α).Gives ahead (look (Token.front ahead)) ahead := by
  refine .current_bind fun found same => ?_
  rw [blind, same]
  exact .pure _ ahead

/-- The check for a name or an operator. -/
theorem Gives.check (text : String) (ahead : List Token) :
    (Parse.check text).Gives ahead ((Token.front ahead).isText text) ahead :=
  .look (fun _ => rfl) ahead

/-- The check for a kind. -/
theorem Gives.checkKind (kind : Kind) (ahead : List Token) :
    (Parse.checkKind kind).Gives ahead (decide ((Token.front ahead).kind = kind)) ahead :=
  .look (fun _ => rfl) ahead

/-- The check for the end of an expression. -/
theorem Gives.atDelimiter (ahead : List Token) :
    Parse.atDelimiter.Gives ahead (Token.front ahead).isDelimiter ahead :=
  .look (fun _ => rfl) ahead

/-- The meaning of the token in front. -/
theorem Gives.behavior? (ahead : List Token) :
    Parse.behavior?.Gives ahead (Token.front ahead).behavior? ahead := by
  intro state standard healthy same
  have looked : (do return (← Parse.current).behavior? : Parse (Option Behavior)).Gives ahead
      (Token.front ahead).behavior? ahead := .look (fun _ => rfl) ahead
  obtain ⟨line, left, kept, shorter, read⟩ := looked state standard healthy same
  refine ⟨line, left, kept, shorter, ?_⟩
  rw [← read, Parse.behavior?]
  show EStateM.Result.ok (state.grammar.behavior? state.current) state =
    EStateM.Result.ok (Grammar.standard.behavior? state.current) state
  rw [standard]

/-- A parser that takes the token in front. -/
theorem Gives.advance_bind {next : Token → Parse β} {token : Token} {ahead rest : List Token}
    {result : β}
    (later : ∀ found : Token, found.bare = token → (next found).Gives ahead result rest) :
    (Parse.advance >>= next).Gives (token :: ahead) result rest := by
  intro state standard healthy same
  obtain ⟨found, left, lines, taken, kept⟩ := List.map_eq_cons_iff.1 same
  have read : Parse.advance state =
      .ok found { state with ahead := left, line := found.line } := by
    rw [Parse.advance, lines, healthy]
    cases left <;> rfl
  obtain ⟨line, behind, given, shorter, more⟩ := later found taken
    { state with ahead := left, line := found.line } standard healthy kept
  refine ⟨line, behind, given, Nat.le_succ_of_le shorter, ?_⟩
  rw [Bind.bind, Monad.toBind, EStateM.instMonad]
  simp only [EStateM.bind, read, more]

/-- A name or an operator that is in front is eaten. -/
theorem Gives.eat {text : String} {token : Token} {ahead : List Token}
    (written : token.isText text = true) : (Parse.eat text).Gives (token :: ahead) true ahead := by
  refine .bind (.check text _) fun _ => ?_
  rw [if_pos (show (Token.front (token :: ahead)).isText text = true from written)]
  exact .advance_bind fun _ _ => .pure true ahead

/-- A name or an operator that is not in front is not eaten. -/
theorem Gives.eat_other {text : String} {ahead : List Token}
    (other : (Token.front ahead).isText text = false) :
    (Parse.eat text).Gives ahead false ahead := by
  refine .bind (.check text _) fun _ => ?_
  rw [other]
  exact .pure false ahead

/-- A name or an operator that is required and in front is taken. -/
theorem Gives.expect_bind {text : String} {next : Token → Parse β} {token : Token}
    {ahead rest : List Token} {result : β} (written : token.isText text = true)
    (later : ∀ found, (next found).Gives ahead result rest) :
    (Parse.expect text >>= next).Gives (token :: ahead) result rest := by
  have required : Parse.expect text = (Parse.check text >>= fun found =>
      if found then Parse.advance else Parse.failExpected text) := rfl
  rw [required, bind_assoc]
  refine .bind (.check text _) fun _ => ?_
  rw [if_pos (show (Token.front (token :: ahead)).isText text = true from written)]
  exact .advance_bind fun found _ => later found

/-- A turn of a loop, and the turns behind it. -/
theorem Gives.again {turn : α → Parse (Turn α β)} {bound : Nat} {state next : α}
    {ahead between rest : List Token} {result : β}
    (first : (turn state).Gives ahead (.again next) between)
    (later : between.length ≤ ahead.length → (loop turn bound next).Gives between result rest) :
    (loop turn (bound + 1) state).Gives ahead result rest :=
  first.bind later

/-- The last turn of a loop. -/
theorem Gives.done {turn : α → Parse (Turn α β)} {bound : Nat} {state : α}
    {ahead rest : List Token} {result : β}
    (last : (turn state).Gives ahead (.done result) rest) :
    (loop turn (bound + 1) state).Gives ahead result rest :=
  last.bind fun _ => .pure result rest

/-- A token of a kind that is in front is eaten. -/
theorem Gives.eatKind {kind : Kind} {token : Token} {ahead : List Token}
    (written : token.kind = kind) (passed : kind ≠ .endMarker) :
    (Parse.eatKind kind).Gives (token :: ahead) true ahead := by
  refine .bind (.checkKind kind _) fun _ => ?_
  have front : (decide ((Token.front (token :: ahead)).kind = kind) && kind ≠ .endMarker) = true :=
    by simp [Token.front, written, passed]
  rw [if_pos front]
  exact .advance_bind fun _ _ => .pure true ahead

/-- A token of a kind that is not in front is not eaten. -/
theorem Gives.eatKind_other {kind : Kind} {ahead : List Token}
    (other : (Token.front ahead).kind ≠ kind) : (Parse.eatKind kind).Gives ahead false ahead := by
  refine .bind (.checkKind kind _) fun _ => ?_
  rw [decide_eq_false other, Bool.false_and]
  exact .pure false ahead

/-- A token of a kind that is required and in front is taken. -/
theorem Gives.expectKind_bind {kind : Kind} {next : Token → Parse β} {token : Token}
    {ahead rest : List Token} {result : β} (written : token.kind = kind)
    (later : ∀ found, (next found).Gives ahead result rest) :
    (Parse.expectKind kind >>= next).Gives (token :: ahead) result rest := by
  have required : Parse.expectKind kind = (Parse.checkKind kind >>= fun found =>
      if found then Parse.advance else Parse.failExpected kind.text) := rfl
  rw [required, bind_assoc]
  refine .bind (.checkKind kind _) fun _ => ?_
  rw [if_pos (decide_eq_true (show (Token.front (token :: ahead)).kind = kind from written))]
  exact .advance_bind fun found _ => later found

/-- From the given tokens in front the parser reads a value where no decorators wait. -/
def GivesUndecorated (parser : Parse α) (ahead : List Token) (value : α) (rest : List Token) :
    Prop :=
  ∀ state : State, state.grammar = .standard → state.failure = none → state.decorators = [] →
    state.ahead.map Token.bare = ahead →
    ∃ line left, left.map Token.bare = rest ∧ rest.length ≤ ahead.length ∧
      parser state = .ok value { state with ahead := left, line }

/-- What is read whatever decorators wait is read where none wait. -/
theorem Gives.undecorated {parser : Parse α} {ahead rest : List Token} {value : α}
    (read : parser.Gives ahead value rest) : parser.GivesUndecorated ahead value rest :=
  fun state standard healthy _ same => read state standard healthy same

/-- Two parsers in order, where no decorators wait. -/
theorem GivesUndecorated.bind {parser : Parse α} {next : α → Parse β}
    {ahead between rest : List Token} {value : α} {result : β}
    (first : parser.GivesUndecorated ahead value between)
    (second : between.length ≤ ahead.length →
      (next value).GivesUndecorated between result rest) :
    (parser >>= next).GivesUndecorated ahead result rest := by
  intro state standard healthy undecorated same
  obtain ⟨line, left, kept, shorter, read⟩ := first state standard healthy undecorated same
  obtain ⟨last, behind, found, less, more⟩ :=
    second shorter { state with ahead := left, line } standard healthy undecorated kept
  refine ⟨last, behind, found, Nat.le_trans less shorter, ?_⟩
  rw [Bind.bind, Monad.toBind, EStateM.instMonad]
  simp only [EStateM.bind, read, more]

/-- A parser whose value is left, and another one behind it, where no decorators wait. -/
theorem GivesUndecorated.drop_bind {parser : Parse α} {next : Parse β}
    {ahead between rest : List Token} {result : β}
    (first : (parser >>= fun _ => Pure.pure ()).Gives ahead () between)
    (later : next.GivesUndecorated between result rest) :
    (parser >>= fun _ => next).GivesUndecorated ahead result rest := by
  have split : (parser >>= fun _ => next) =
      ((parser >>= fun _ => Pure.pure ()) >>= fun _ => next) := by
    simp only [bind_assoc, pure_bind]
  rw [split]
  exact first.undecorated.bind fun _ => later

/-- A turn of a loop, and the turns behind it, where no decorators wait. -/
theorem GivesUndecorated.again {turn : α → Parse (Turn α β)} {bound : Nat} {state next : α}
    {ahead between rest : List Token} {result : β}
    (first : (turn state).GivesUndecorated ahead (.again next) between)
    (later : (loop turn bound next).GivesUndecorated between result rest) :
    (loop turn (bound + 1) state).GivesUndecorated ahead result rest :=
  first.bind fun _ => later

/-- No decorators wait. -/
theorem GivesUndecorated.hasDecorators (ahead : List Token) :
    Parse.hasDecorators.GivesUndecorated ahead false ahead := by
  intro state _ _ undecorated same
  refine ⟨state.line, state.ahead, same, Nat.le_refl _, ?_⟩
  show EStateM.Result.ok (!state.decorators.isEmpty) state = .ok false state
  rw [undecorated]
  rfl

end Parse

open Parse

/-- The rule for going on with a token behind an operand, and its power, if it binds more tightly
than the given power. -/
def Token.infixRule? (power : Nat) (token : Token) : Option (InfixRule × Power) :=
  match token.behavior? with
  | some behavior =>
    if behavior.power ≤ power then none else behavior.infixRule.map (·, behavior.power)
  | none => none

/-- The rule for an operand that starts with a token. -/
def Token.prefixRule (token : Token) : PrefixRule :=
  (token.behavior?.bind Behavior.prefixRule).getD .name

/-- The rule for going on with the token in front. -/
theorem Parse.Gives.infixRule? (power : Nat) (ahead : List Token) :
    (Offside.infixRule? power).Gives ahead ((Token.front ahead).infixRule? power) ahead := by
  refine .bind (.behavior? ahead) fun _ => ?_
  rw [Token.infixRule?]
  cases (Token.front ahead).behavior? with
  | none => exact .pure none ahead
  | some behavior =>
    by_cases loose : behavior.power ≤ power
    · simp only [loose, if_true]
      exact .pure none ahead
    · simp only [loose, if_false]
      exact .pure _ ahead

/-- The rule for the operand that the token in front starts. -/
theorem Parse.Gives.prefixRule (ahead : List Token) :
    Offside.prefixRule.Gives ahead (Token.front ahead).prefixRule ahead :=
  .bind (.behavior? ahead) fun _ => .pure _ ahead

/-- One turn of reading on behind an operand. -/
def Inner.climb (inner : Inner) (power : Nat) (left : Parsed) : Parse (Turn Parsed Parsed) := do
  match ← infixRule? power with
  | some (rule, found) => return .again (← rule.parse inner left found)
  | none => return .done left

/-- An operand is read from the tokens in front, at a power. -/
def Yields (power : Nat) (ahead : List Token) (out : Parsed) (rest : List Token) : Prop :=
  ∀ depth, ahead.length < depth → (operandAt depth power).Gives ahead out rest

/-- Behind an operand the tokens in front are read on, at a power. -/
def Climbs (power : Nat) (left : Parsed) (ahead : List Token) (out : Parsed)
    (rest : List Token) : Prop :=
  ∀ depth turns, ahead.length ≤ depth → ahead.length < turns →
    (loop ((Inner.upTo depth).climb power) turns left).Gives ahead out rest

/-- An operand ends where the token in front binds no more tightly than the power. -/
theorem Climbs.stop {power : Nat} {left : Parsed} {ahead : List Token}
    (stops : (Token.front ahead).binding ≤ power) : Climbs power left ahead left ahead := by
  intro depth turns _ enough
  obtain ⟨fewer, rfl⟩ := Nat.exists_eq_add_one_of_ne_zero (Nat.ne_zero_of_lt enough)
  refine .done (.bind (.infixRule? power ahead) fun _ => ?_)
  have none_found : (Token.front ahead).infixRule? power = none := by
    rw [Token.binding] at stops
    rw [Token.infixRule?]
    cases found : (Token.front ahead).behavior? with
    | none => rfl
    | some behavior =>
      rw [found] at stops
      exact if_pos stops
  rw [none_found]
  exact .pure _ ahead

/-- An operand is read on with a token that binds more tightly than the power. -/
theorem Climbs.step {power : Nat} {left next out : Parsed} {token : Token} {behavior : Behavior}
    {rule : InfixRule} {more between rest : List Token}
    (means : token.behavior? = some behavior) (tight : power < behavior.power)
    (goesOn : behavior.infixRule = some rule)
    (read : ∀ depth, more.length < depth →
      (rule.parse (.upTo depth) left behavior.power).Gives (token :: more) next between)
    (shorter : between.length ≤ more.length) (later : Climbs power next between out rest) :
    Climbs power left (token :: more) out rest := by
  intro depth turns deep enough
  rw [List.length_cons] at deep enough
  obtain ⟨fewer, rfl⟩ := Nat.exists_eq_add_one_of_ne_zero (Nat.ne_zero_of_lt enough)
  have found : (Token.front (token :: more)).infixRule? power = some (rule, behavior.power) := by
    rw [Token.infixRule?, show Token.front (token :: more) = token from rfl, means]
    have loose : ¬behavior.power ≤ power := Nat.not_le.2 tight
    simp only [loose, if_false, goesOn, Option.map_some]
  have turn : ((Inner.upTo depth).climb power left).Gives (token :: more) (.again next)
      between := by
    refine .bind (.infixRule? power _) fun _ => ?_
    rw [found]
    exact .bind (read depth (by omega)) fun _ => .pure _ between
  exact .again turn fun _ => later depth fewer (by omega) (by omega)

/-- An operand is read by the rule of its first token, and is read on. -/
theorem Yields.start {power : Nat} {first out : Parsed} {token : Token} {rule : PrefixRule}
    {more between rest : List Token} (means : token.prefixRule = rule)
    (read : ∀ depth, more.length < depth →
      (rule.parse (.upTo depth)).Gives (token :: more) first between)
    (shorter : between.length ≤ more.length) (later : Climbs power first between out rest) :
    Yields power (token :: more) out rest := by
  intro depth deep
  rw [List.length_cons] at deep
  obtain ⟨lower, rfl⟩ := Nat.exists_eq_add_one_of_ne_zero (Nat.ne_zero_of_lt deep)
  refine .bind (.prefixRule _) fun _ => ?_
  rw [show (Token.front (token :: more)).prefixRule = rule from means]
  exact .bind (read lower (by omega)) fun _ => later lower (lower + 1) (by omega) (by omega)

/-- The token may start an operand where one is optional. -/
def Token.Opens (token : Token) : Prop :=
  token.isDelimiter = false ∧ token.isText "," = false

/-- An operand is an expression, if its first token may start one. -/
theorem Yields.expr {power : Nat} {ahead rest : List Token} {expr : Expr} {form : Form}
    (yields : Yields power ahead ⟨expr, form⟩ rest) (bare : form ≠ .comprehension)
    (opens : (Token.front ahead).Opens) {depth : Nat} (deep : ahead.length < depth) :
    ((Inner.upTo depth).optionalExpr power).Gives ahead (some expr) rest ∧
      ((Inner.upTo depth).expr power).Gives ahead expr rest := by
  have operand : ((Inner.upTo depth).optionalOperand power).Gives ahead (some ⟨expr, form⟩)
      rest := by
    refine .bind (.atDelimiter ahead) fun _ => ?_
    have read : (do return some (← (Inner.upTo depth).operand power) :
        Parse (Option Parsed)).Gives ahead (some ⟨expr, form⟩) rest :=
      .bind (yields depth deep) fun _ => .pure _ rest
    rw [opens.1]
    refine .bind (.check "," ahead) fun _ => ?_
    rw [opens.2, Bool.and_false]
    exact read
  have optional : ((Inner.upTo depth).optionalExpr power).Gives ahead (some expr) rest := by
    refine .bind operand fun _ => .bind ?_ fun _ => .pure _ rest
    rw [Parsed.finish, if_neg bare]
    exact .pure expr rest
  exact ⟨optional, .bind optional fun _ => .pure expr rest⟩

end Offside
