import Offside.Proofs.Grammar.SteadyStatements

/-!
# Parsing ends

The bounds of the parser are there for the recursion to be one over numbers, and nothing depends on
them. What reads an operand, a statement or a line is the solution of the equations without a bound
(`Scope.whole`): each rule asks for what is inside behind fewer tokens than stand in front of it,
each loop runs to its end by turns of which every one but the last takes a token (`Turn.Runs`), and
each rule that succeeds has taken a token. The end mark behind the tokens, which is there as often
as it is looked at, is never taken by a loop (`Parse.SparesEnd`).
-/
namespace Offside

open Parse

variable {guard : Option Fault} {room : Nat} {state : State}

namespace Parse

variable {α β : Type}

/-- Without a guard, two steady parsers do the same. -/
theorem SteadyAt.eq {takes : α → Prop} {parser other : Parse α}
    (steady : SteadyAt none takes state parser other) (listed : state.Listed) :
    parser state = other state := by
  have here := listed.guarded_none
  cases read : parser state with
  | ok out behind =>
    have there := steady.follows read
    rw [here, there.2.1.guarded_none] at there
    exact there.1.symm
  | error fault behind =>
    have there := steady.fails read
    rw [here, there.2.guarded_none] at there
    exact there.1.symm

/-- The two parsers do the same from all states with fewer tokens than a number says. -/
def AgreeBelow (count : Nat) (parser other : Parse α) : Prop :=
  ∀ state : State, state.Listed → state.ahead.length < count → parser state = other state

/-- Where the parser succeeds, it has taken a token. -/
def Takes (state : State) (parser : Parse α) : Prop :=
  ∀ out behind, parser state = .ok out behind → behind.ahead.length < state.ahead.length

/-- What takes a token from a state with another parser beside it does so alone. -/
theorem SteadyAt.takes {parser other : Parse α}
    (steady : SteadyAt guard (fun _ => True) state parser other) : parser.Takes state :=
  fun _ _ read => (steady.follows read).2.2.2 trivial

/-- A parser that does what a steady one does is steady. -/
theorem Steady.of_agree {takes : α → Prop} {parser solution other : Parse α}
    (agree : parser.AgreeBelow room solution)
    (steady : solution.Steady guard room takes other) : parser.Steady guard room takes other := by
  intro state listed within
  have here := steady state listed within
  have same := agree state listed within
  exact ⟨fun read => here.follows (same ▸ read), fun failed => here.fails (same ▸ failed)⟩

/-- What two parsers in order do depends on what the first one does from the state. -/
theorem bind_of_eq {parser other : Parse α} {next : α → Parse β}
    (same : parser state = other state) : (parser >>= next) state = (other >>= next) state := by
  show EStateM.bind parser next state = EStateM.bind other next state
  rw [EStateM.bind, EStateM.bind, same]

/-- The parser leaves the end mark alone: if a trap stands behind the mark, which goes off when the
mark is taken, the parser does what it does without the trap. -/
def SparesEnd (state : State) (parser : Parse α) : Prop :=
  ∀ trap : Fault,
    (∀ out behind, parser state = .ok out behind →
      parser (state.guarded (some trap)) = .ok out (behind.guarded (some trap))) ∧
    ∀ fault behind, parser state = .error fault behind →
      parser (state.guarded (some trap)) = .error fault (behind.guarded (some trap))

/-- The value that a parser gives, or its fault. -/
def valueOrFault (parser : Parse α) (state : State) : Except Fault α :=
  match parser state with
  | .ok value _ => .ok value
  | .error fault _ => .error fault

end Parse

/-- The turns of a loop run from a state to the end, with a result: one of them is done or fails,
and each one before it leads to a further one. There is no bound on their number. -/
inductive Turn.Runs {α β : Type} (turn : α → Parse (Turn α β)) :
    α → State → EStateM.Result Fault State β → Prop where
  /-- A turn is done. -/
  | done {value : α} {out : β} {state behind : State}
      (read : turn value state = .ok (.done out) behind) : Runs turn value state (.ok out behind)
  /-- A turn fails. -/
  | fails {value : α} {fault : Fault} {state behind : State}
      (failed : turn value state = .error fault behind) :
      Runs turn value state (.error fault behind)
  /-- A turn leads to a further one. -/
  | again {value next : α} {state between : State} {result : EStateM.Result Fault State β}
      (read : turn value state = .ok (.again next) between)
      (later : Runs turn next between result) : Runs turn value state result

/-- A loop whose turns take a token before they go on runs to its end. -/
theorem Turn.runs_loop {α β : Type} {turn : α → Parse (Turn α β)}
    (turns : ∀ value, (turn value).Steady none room Turn.GoesOn (turn value)) {bound : Nat}
    {value : α} (listed : state.Listed) (within : state.ahead.length < room)
    (enough : state.ahead.length < bound) :
    Turn.Runs turn value state (loop turn bound value state) := by
  induction bound generalizing value state with
  | zero => exact absurd enough (Nat.not_lt_zero _)
  | succ bound ih =>
    have here := turns value state listed within
    rw [loop]
    cases read : turn value state with
    | error fault behind =>
      rw [bind_of_error read]
      exact .fails read
    | ok result behind =>
      have taken := here.follows read
      rw [bind_of_ok read]
      cases result with
      | done out => exact .done read
      | again next =>
        have fewer := taken.2.2.2 trivial
        exact .again read (ih taken.2.1 (by omega) (by omega))

/-- What reads operands of any depth. The bound is for the turns of loops. -/
def Inner.whole (bound : Nat) : Inner :=
  ⟨bound, fun power => Inner.run fun inner => inner.operand power⟩

/-- What reads expressions and statements of any depth. The bound is for the turns of loops. -/
def Scope.whole (bound : Nat) : Scope :=
  ⟨.whole bound, Scope.run Scope.statement, Scope.run Scope.line⟩

/-- What is in front in a mode, with what reads the statements and the expressions in it. -/
def Scope.root (scope : Scope) : Mode → Parse Root
  | .exec => do return .module (← moduleBody scope)
  | .eval => do return .expression (← wholeExpression scope.inner)
  | .single => do return .interactive (← scope.statementLine)

/-- Parsing in a mode reads up to the bound of the tokens in front. -/
theorem parseRoot_eq (mode : Mode) (state : State) :
    parseRoot mode state = (Scope.upTo state.bound).root mode state := by
  cases mode with
  | exec => exact bind_of_eq (show Scope.run moduleBody state = _ from rfl)
  | eval => exact bind_of_eq (show Inner.run wholeExpression state = _ from rfl)
  | single => exact bind_of_eq (show Scope.run Scope.statementLine state = _ from rfl)

/-- Parsing tokens is parsing from the state before them. -/
theorem parseTokens_eq (tokens : List Token) (file : Option String) (mode : Mode) :
    parseTokens tokens file mode = (parseRoot mode).valueOrFault (.ofTokens tokens file) := by
  rw [parseTokens, parseStream, State.start_ofTokens, valueOrFault]
  cases read : parseRoot mode (.ofTokens tokens file) with
  | ok root behind => simp only [bind, Except.bind, EStateM.run, read]; rfl
  | error fault behind => simp only [bind, Except.bind, EStateM.run, read]; rfl

/-- A guard adds to the bound. -/
theorem State.bound_le_guarded : state.bound ≤ (state.guarded guard).bound := by
  have more : (state.guarded guard).ahead.length =
      state.ahead.length + ((guard.map fun _ => Token.endMarker state.lastLine).toList).length :=
    List.length_append
  rw [State.bound, State.bound, more]
  omega

section readers

variable {depth otherDepth : State → Nat}
  (enough : ∀ state : State, state.ahead.length < room → state.ahead.length < depth state)
  (otherEnough : ∀ state : State, state.ahead.length < room →
    state.ahead.length < otherDepth (state.guarded guard))
include enough otherEnough

/-- Operands are steady, if the depths that are chosen from the tokens are enough. -/
theorem operand_steady (power : Power) :
    Parse.Steady guard room (fun _ => True) (fun state => operandAt (depth state) power state)
      fun state => operandAt (otherDepth state) power state := by
  intro state listed within
  have here : (operandAt (depth state) power).Steady guard (state.ahead.length + 1) (fun _ => True)
      (operandAt (otherDepth (state.guarded guard)) power) :=
    operandAt_steady (enough state within) (otherEnough state within) power
  have steady := here state listed (Nat.lt_succ_self _)
  exact ⟨steady.follows, steady.fails⟩

/-- So are statements, and lines of simple statements. -/
theorem statement_steady :
    Parse.Steady guard room (fun _ => True) (fun state => statementAt (depth state) state)
        (fun state => statementAt (otherDepth state) state) ∧
      Parse.Steady guard room (fun _ => True) (fun state => lineAt (depth state) state)
        fun state => lineAt (otherDepth state) state := by
  have here (state : State) (within : state.ahead.length < room) :=
    @statementAt_steady guard (state.ahead.length + 1) (depth state)
      (otherDepth (state.guarded guard)) (enough state within) (otherEnough state within)
  constructor
  · intro state listed within
    have steady := (here state within).1 state listed (Nat.lt_succ_self _)
    exact ⟨steady.follows, steady.fails⟩
  · intro state listed within
    have steady := (here state within).2 state listed (Nat.lt_succ_self _)
    exact ⟨steady.follows, steady.fails⟩

end readers

/-- The bound of a state is greater than the number of its tokens. -/
theorem State.lt_bound (state : State) : state.ahead.length < state.bound :=
  Nat.lt_add_of_pos_right (by decide)

/-- With a guard the bound of a state is greater than the number of its tokens without. -/
theorem State.lt_bound_guarded (state : State) :
    state.ahead.length < (state.guarded guard).bound :=
  Nat.lt_of_lt_of_le state.lt_bound State.bound_le_guarded

section whole

variable {bound otherBound : Nat}

/-- What reads operands of any depth is steady. -/
theorem Inner.whole_steady (enough : room ≤ bound) (otherEnough : room ≤ otherBound) :
    (Inner.whole bound).Steady guard room (Inner.whole otherBound) :=
  ⟨enough, otherEnough,
    operand_steady (fun state _ => state.lt_bound) fun state _ => state.lt_bound_guarded⟩

/-- What reads statements of any depth is steady. -/
theorem Scope.whole_steady (enough : room < bound) (otherEnough : room < otherBound) :
    (Scope.whole bound).Steady guard room (Scope.whole otherBound) := by
  have statements := @statement_steady guard room State.bound State.bound
    (fun state _ => state.lt_bound) fun state _ => state.lt_bound_guarded
  exact ⟨Inner.whole_steady enough otherEnough, statements.1, statements.2⟩

/-- What reads operands of any depth does what reads them up to a bound. -/
theorem Inner.whole_steady_upTo (enough : room ≤ bound) (otherEnough : room ≤ otherBound) :
    (Inner.whole bound).Steady guard room (Inner.upTo otherBound) :=
  ⟨enough, otherEnough, operand_steady (fun state _ => state.lt_bound)
    fun _ within => Nat.lt_of_lt_of_le within otherEnough⟩

/-- What reads statements of any depth does what reads them up to a bound. -/
theorem Scope.whole_steady_upTo (enough : room < bound) (otherEnough : room < otherBound) :
    (Scope.whole bound).Steady guard room (Scope.upTo otherBound) := by
  have statements := @statement_steady guard room State.bound (fun _ => otherBound)
    (fun state _ => state.lt_bound) fun state within => Nat.lt_trans within otherEnough
  exact ⟨Inner.whole_steady_upTo enough otherEnough, statements.1, statements.2⟩

end whole

/-- The end mark is required, which is there as often as it is looked at. -/
theorem expectKind_endMarker_steady :
    (expectKind .endMarker).Steady none room (fun _ => False) (expectKind .endMarker) := by
  intro state listed within
  refine .look (fun state => decide (state.current.kind = .endMarker)) rfl
    (by rw [State.guarded_current]) ?_
  by_cases ends : state.current.kind = .endMarker
  · rw [decide_eq_true ends, if_pos rfl]
    by_cases empty : state.ahead = []
    · have stays : advance state = .ok state.current state := by
        rw [advance, empty]
      refine .of_ok stays ?_ listed (Nat.le_refl _)
      rw [listed.guarded_none]
      exact stays
    · have taken := @SteadyAt.advance_alone none state listed empty
      exact ⟨fun read => (taken.follows read).imp_right fun behind =>
        ⟨behind.1, behind.2.1, False.elim⟩, taken.fails⟩
  · rw [decide_eq_false ends, if_neg Bool.false_ne_true]
    exact failExpected_steady state listed within

/-- Parsing in a mode is steady. -/
theorem Scope.root_steady {scope other : Scope} (steady : scope.Steady none room other)
    (mode : Mode) :
    (scope.root mode).Steady none (room + 1) (fun _ => False) (other.root mode) := by
  cases mode with
  | exec =>
    have body : (moduleBody scope).Steady none (room + 1) (fun _ => False)
        (moduleBody other) := by
      rw [moduleBody_eq, moduleBody_eq]
      exact steady.inner.loop (Scope.moduleTurn_steady steady)
    exact body.bind fun body => .pure id
  | eval =>
    have ends : (loop lineEndTurn scope.inner.bound ()).Steady none (room + 1) (fun _ => False)
        (loop lineEndTurn other.inner.bound ()) := steady.inner.loop lineEndTurn_steady
    have body : (wholeExpression scope.inner).Steady none (room + 1) (fun _ => False)
        (wholeExpression other.inner) := by
      rw [wholeExpression_eq, wholeExpression_eq]
      refine (Inner.expr_steady steady.inner _).bind_taken fun body => ends.bind fun _ => ?_
      exact expectKind_endMarker_steady.bind fun _ => .pure id
    exact body.bind fun body => .pure id
  | single => exact (Scope.statementLine_steady steady).bind_taken fun line => .pure id

section equations

variable {bound : Nat} (listed : state.Listed)
include listed

/-- What reads operands of any depth solves its equation: what is inside stands behind fewer
tokens. -/
theorem Inner.whole_operand {inner : Inner} {turns : Nat}
    (agree : ∀ power, (inner.operand power).AgreeBelow state.ahead.length
      ((Inner.whole bound).operand power))
    (enough : state.ahead.length ≤ inner.bound) (often : state.ahead.length < turns)
    (power : Power) :
    (Inner.whole bound).operand power state = operandWith inner turns power state := by
  have inside : inner.Steady none state.ahead.length
      ⟨state.ahead.length + 1, operandAt (state.ahead.length + 1)⟩ := by
    refine ⟨enough, Nat.le_succ _, fun power => .of_agree (agree power) ?_⟩
    exact @operand_steady none _ State.bound (fun _ => state.ahead.length + 1)
      (fun state _ => state.lt_bound) (fun _ within => Nat.lt_succ_of_lt within) power
  have steady := @operandWith_steady none _ _ _ inside turns state.bound often
    (Nat.le_succ _) power state listed (Nat.lt_succ_self _)
  exact (steady.eq listed).symm

/-- What reads statements of any depth solves its equations: statements inside stand behind fewer
tokens, and expressions do not stand before the token in front. -/
theorem Scope.whole_statement {scope : Scope}
    (operands : ∀ power, (scope.inner.operand power).AgreeBelow (state.ahead.length + 1)
      ((Inner.whole bound).operand power))
    (statements : scope.statement.AgreeBelow state.ahead.length (Scope.whole bound).statement)
    (lines : scope.line.AgreeBelow state.ahead.length (Scope.whole bound).line)
    (enough : state.ahead.length < scope.inner.bound) :
    (Scope.whole bound).statement state = scope.statementLine state ∧
      (Scope.whole bound).line state = scope.simpleLine state := by
  have deep := @statement_steady none state.ahead.length State.bound
    (fun _ => state.ahead.length + 1) (fun state _ => state.lt_bound)
    fun _ within => Nat.lt_succ_of_lt within
  have inner : scope.inner.Steady none (state.ahead.length + 1) (.upTo state.bound) := by
    refine ⟨enough, Nat.le_succ _, fun power => .of_agree (operands power) ?_⟩
    exact @operand_steady none _ State.bound (fun _ => state.bound)
      (fun state _ => state.lt_bound) (fun _ within => Nat.lt_succ_of_lt within) power
  have inside : scope.Steady none state.ahead.length ⟨.upTo state.bound,
      statementAt (state.ahead.length + 1), lineAt (state.ahead.length + 1)⟩ :=
    ⟨inner, .of_agree statements deep.1, .of_agree lines deep.2⟩
  have within := Nat.lt_succ_self state.ahead.length
  have statement := Scope.statementLine_steady inside state listed within
  have line := Scope.simpleLine_steady inside state listed within
  exact ⟨(statement.eq listed).symm, (line.eq listed).symm⟩

end equations

/-- Parsing tokens in a mode is reading statements and expressions of any depth. -/
theorem parseTokens_eq_whole (tokens : List Token) (file : Option String) (mode : Mode)
    {bound : Nat} (enough : (State.ofTokens tokens file).bound ≤ bound) :
    parseTokens tokens file mode =
      ((Scope.whole bound).root mode).valueOrFault (.ofTokens tokens file) := by
  have listed : (State.ofTokens tokens file).Listed := ⟨rfl, rfl⟩
  have steady := Scope.root_steady (Scope.whole_steady_upTo (Nat.lt_of_succ_lt enough)
    (State.lt_bound _)) mode _ listed (Nat.lt_succ_self _)
  rw [parseTokens_eq, valueOrFault, valueOrFault, parseRoot_eq, steady.eq listed]

section steps

variable {bound : Nat} (listed : state.Listed) (enough : state.bound ≤ bound)
include listed enough

/-- A turn does the same with a guard, and takes a token before it goes on. -/
theorem IsTurn.whole_steady (guard : Option Fault) {α β : Type}
    {turn : Scope → α → Parse (Turn α β)} (isTurn : IsTurn turn) (value : α) :
    SteadyAt guard Turn.GoesOn state (turn (.whole bound) value) (turn (.whole bound) value) :=
  isTurn.steady (Scope.whole_steady enough enough) value state listed (Nat.lt_succ_self _)

/-- The turns of a loop run to its end, whatever the bound is. -/
theorem IsTurn.runs {α β : Type} {turn : Scope → α → Parse (Turn α β)} (isTurn : IsTurn turn)
    (value : α) :
    Turn.Runs (turn (.whole bound)) value state (loop (turn (.whole bound)) bound value state) :=
  Turn.runs_loop (isTurn.steady (Scope.whole_steady enough enough)) listed
    (Nat.lt_succ_self state.ahead.length) (Nat.lt_of_succ_lt enough)

/-- The rule that is chosen for the start of an operand takes a token. -/
theorem PrefixRule.parse_takes {rule : PrefixRule} (chosen : prefixRule state = .ok rule state) :
    (rule.parse (Inner.whole bound)).Takes state := by
  have inner : (Inner.whole bound).Steady none state.ahead.length (Inner.whole bound) :=
    Inner.whole_steady (Nat.le_of_add_right_le enough) (Nat.le_of_add_right_le enough)
  have taken := (prefixRule_steady inner state listed (Nat.lt_succ_self _)).takes
  intro out behind read
  exact taken out behind ((bind_of_ok chosen).trans read)

/-- The rule that is chosen for going on behind an operand takes a token. -/
theorem InfixRule.parse_takes {rule : InfixRule} {power found : Power}
    (chosen : infixRule? power state = .ok (some (rule, found)) state) (left : Parsed) :
    (rule.parse (Inner.whole bound) left found).Takes state := by
  have inner : (Inner.whole bound).Steady none state.ahead.length (Inner.whole bound) :=
    Inner.whole_steady (Nat.le_of_add_right_le enough) (Nat.le_of_add_right_le enough)
  have steady := Inner.climb_steady inner power left state listed (Nat.lt_succ_self _)
  intro out behind read
  have turn : (Inner.whole bound).climb power left state = .ok (.again out) behind := by
    rw [Inner.climb, bind_of_ok chosen]
    exact (bind_of_ok read).trans rfl
  exact (steady.follows turn).2.2.2 trivial

/-- The rule that is chosen for a statement takes a token. -/
theorem StatementRule.parse_takes {rule : StatementRule}
    (chosen : compoundRule? state = .ok (some rule) state ∨
      simpleRule? state = .ok (some rule) state) :
    (rule.parse (Scope.whole bound)).Takes state := by
  have front : state.ahead ≠ [] := by
    rcases chosen with known | known
    · have means := (EStateM.Result.ok.inj known).1
      exact State.ahead_of_isText (Token.mem_words_of_statementRule means).1
    · have means := (EStateM.Result.ok.inj known).1
      exact State.ahead_of_isText (Token.mem_words_of_statementRule means).1
  have scope : (Scope.whole bound).Steady none (state.ahead.length + 1) (Scope.whole bound) :=
    Scope.whole_steady enough enough
  exact (rule.parse_consumes scope state listed front (by omega)).takes

end steps

/-- Parsing tokens ends. A parse of any tokens in any mode is what the equations without a bound on
the depth say. In every state of reading a list of tokens these equations are a recursion over the
number of tokens left: an operand depends on what is read where there are fewer tokens, and so do
statements, but for the expression that may stand in front. Every turn of every loop that leads to a
further one takes a token, so that each loop runs to its end whatever its bound is, and it spares
the end mark. Every rule that the tables of the language choose for the token in front takes a token
where it succeeds. -/
theorem parseTokens_ends :
    (∀ (tokens : List Token) (file : Option String) (mode : Mode) (bound : Nat),
      (State.ofTokens tokens file).bound ≤ bound →
        parseTokens tokens file mode =
          ((Scope.whole bound).root mode).valueOrFault (.ofTokens tokens file)) ∧
    ∀ (state : State) (bound : Nat), state.Listed → state.bound ≤ bound →
      (∀ (inner : Inner) (turns : Nat) (power : Power),
        (∀ power, (inner.operand power).AgreeBelow state.ahead.length
          ((Inner.whole bound).operand power)) →
        state.ahead.length ≤ inner.bound → state.ahead.length < turns →
          (Inner.whole bound).operand power state = operandWith inner turns power state) ∧
      (∀ scope : Scope,
        (∀ power, (scope.inner.operand power).AgreeBelow (state.ahead.length + 1)
          ((Inner.whole bound).operand power)) →
        scope.statement.AgreeBelow state.ahead.length (Scope.whole bound).statement →
        scope.line.AgreeBelow state.ahead.length (Scope.whole bound).line →
        state.ahead.length < scope.inner.bound →
          (Scope.whole bound).statement state = scope.statementLine state ∧
            (Scope.whole bound).line state = scope.simpleLine state) ∧
      (∀ {α β : Type} {turn : Scope → α → Parse (Turn α β)}, IsTurn turn → ∀ value : α,
        (∀ next behind, turn (.whole bound) value state = .ok (.again next) behind →
          behind.ahead.length < state.ahead.length) ∧
        Turn.Runs (turn (.whole bound)) value state
          (loop (turn (.whole bound)) bound value state) ∧
        (turn (.whole bound) value).SparesEnd state) ∧
      (∀ rule, prefixRule state = .ok rule state →
        (rule.parse (Inner.whole bound)).Takes state) ∧
      (∀ power rule found left, infixRule? power state = .ok (some (rule, found)) state →
        (rule.parse (Inner.whole bound) left found).Takes state) ∧
      ∀ rule, compoundRule? state = .ok (some rule) state ∨
          simpleRule? state = .ok (some rule) state →
        (rule.parse (Scope.whole bound)).Takes state := by
  refine ⟨fun tokens file mode bound enough => parseTokens_eq_whole tokens file mode enough,
    fun state bound listed enough => ⟨?_, ?_, ?_, ?_, ?_, ?_⟩⟩
  · intro inner turns power agree deep often
    exact Inner.whole_operand listed agree deep often power
  · intro scope operands statements lines deep
    exact Scope.whole_statement listed operands statements lines deep
  · intro α β turn isTurn value
    refine ⟨fun next behind read => ?_, isTurn.runs listed enough value, fun trap => ?_⟩
    · have steady := isTurn.whole_steady listed enough none value
      exact (steady.follows read).2.2.2 trivial
    · have steady := isTurn.whole_steady listed enough (some trap) value
      exact ⟨fun out behind read => (steady.follows read).1,
        fun fault behind failed => (steady.fails failed).1⟩
  · intro rule chosen
    exact rule.parse_takes listed enough chosen
  · intro power rule found left chosen
    exact rule.parse_takes listed enough chosen left
  · intro rule chosen
    exact rule.parse_takes listed enough chosen

/-- Tokens with an end mark among them and none behind them, with what each rule and each loop reads
there. -/
theorem parseTokens_ends_of_marks :
    (parseTokens [.mark ",", .word "a", .endMarker 1, .mark ")"] none .exec =
      ((Scope.whole 6).root .exec).valueOrFault
        (.ofTokens [.mark ",", .word "a", .endMarker 1, .mark ")"] none)) ∧
    ((Inner.whole 6).operand 0 (.ofTokens [.mark ",", .word "a", .endMarker 1, .mark ")"] none) =
      operandWith (.whole 6) 5 0 (.ofTokens [.mark ",", .word "a", .endMarker 1, .mark ")"] none)) ∧
    ((Scope.whole 6).statement (.ofTokens [.mark ",", .word "a", .endMarker 1, .mark ")"] none) =
      (Scope.whole 6).statementLine
        (.ofTokens [.mark ",", .word "a", .endMarker 1, .mark ")"] none)) ∧
    (∃ next behind, IsTurn (fun _ => Inner.nameTurn) ∧
      Inner.nameTurn ["x"] (.ofTokens [.mark ",", .word "a", .endMarker 1, .mark ")"] none) =
        .ok (.again next) behind ∧ behind.ahead.length < 4) ∧
    (∃ out behind, prefixRule (.ofTokens [.word "a", .endMarker 1] none) =
        .ok .name (.ofTokens [.word "a", .endMarker 1] none) ∧
      PrefixRule.name.parse (.whole 4) (.ofTokens [.word "a", .endMarker 1] none) =
        .ok out behind ∧ behind.ahead.length < 2) ∧
    (∃ out behind, infixRule? 0 (.ofTokens [.mark ".", .word "b"] none) =
        .ok (some (.member, 160)) (.ofTokens [.mark ".", .word "b"] none) ∧
      InfixRule.member.parse (.whole 4) (.plain .ellipsis) 160
        (.ofTokens [.mark ".", .word "b"] none) = .ok out behind ∧ behind.ahead.length < 2) ∧
    ∃ stmt behind, simpleRule? (.ofTokens [.word "pass"] none) =
        .ok (some .pass) (.ofTokens [.word "pass"] none) ∧
      StatementRule.pass.parse (.whole 3) (.ofTokens [.word "pass"] none) = .ok stmt behind ∧
        behind.ahead.length < 1 := by
  have ends := parseTokens_ends.2 (.ofTokens [.mark ",", .word "a", .endMarker 1, .mark ")"] none) 6
    ⟨rfl, rfl⟩ (by decide)
  have named := parseTokens_ends.2 (.ofTokens [.word "a", .endMarker 1] none) 4 ⟨rfl, rfl⟩
    (by decide)
  have joined := parseTokens_ends.2 (.ofTokens [.mark ".", .word "b"] none) 4 ⟨rfl, rfl⟩ (by decide)
  have started := parseTokens_ends.2 (.ofTokens [.word "pass"] none) 3 ⟨rfl, rfl⟩ (by decide)
  refine ⟨parseTokens_ends.1 _ none .exec 6 (by decide), ?_, ?_, ?_, ?_, ?_, ?_⟩
  · exact ends.1 (.whole 6) 5 0 (fun _ _ _ _ => rfl) (by decide) (by decide)
  · exact (ends.2.1 (.whole 6) (fun _ _ _ _ => rfl) (fun _ _ _ => rfl) (fun _ _ _ => rfl)
      (by decide)).1
  · exact ⟨_, _, .name, rfl, (ends.2.2.1 .name ["x"]).1 _ _ rfl⟩
  · exact ⟨_, _, rfl, rfl, named.2.2.2.1 .name rfl _ _ rfl⟩
  · exact ⟨_, _, rfl, rfl, joined.2.2.2.2.1 0 .member 160 (.plain .ellipsis) rfl _ _ rfl⟩
  · exact ⟨_, _, rfl, rfl, started.2.2.2.2.2 .pass (.inr rfl) _ _ rfl⟩

end Offside
