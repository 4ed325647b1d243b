import Offside.Proofs.Grammar.Agreement
import Offside.Proofs.Layout.Concatenation

/-!
# Modules one behind the other

A module is read line by line (`Scope.Reads`), and all that is kept between two lines is back at
its start behind each of them. So the module of two texts one behind the other has the statements
of the first text and behind them those of the second one, whose lines are moved down by the lines
of the first text (`parse_append`).
-/
namespace Offside

open Parse Text

/-- No statement starts with the token. -/
structure Token.Unfit (token : Token) : Prop where
  /-- It is not the sign of a decorator. -/
  sign : token.isText "@" = false
  /-- It starts no compound statement. -/
  compound : Grammar.statementRule? Grammar.standard.compound token = none
  /-- It starts no simple statement by a word. -/
  simple : Grammar.statementRule? Grammar.standard.simple token = none
  /-- It starts no operand but that of a name. -/
  operand : token.prefixRule = .name
  /-- It is no identifier. -/
  reserved : (token.kind = .name && !token.isKeyword) = false

/-- No statement starts with a token that is neither a lexeme nor a name. -/
theorem Token.Unfit.of_isLayout {token : Token} (layout : token.kind.isLayout = true) :
    token.Unfit := by
  obtain ⟨kind, value, line, raw⟩ := token
  cases kind with
  | newline | indent | dedent => exact ⟨rfl, rfl, rfl, rfl, rfl⟩
  | name | number | string | operator | softBreak | comment | endMarker => contradiction

/-- No statement starts with a word that goes on with a compound statement. -/
theorem Token.Unfit.of_continuing {token : Token} {text : String} (word : text ∈ continuing)
    (written : token.isText text = true) : token.Unfit := by
  have facts : ∀ text ∈ continuing, (text == "@") = false ∧
      Grammar.standard.compound.lookup text = none ∧
      Grammar.standard.simple.lookup text = none ∧
      Grammar.standard.byText.lookup text = none ∧ isReserved text = true := by
    decide
  obtain ⟨sign, compound, simple, operand, reserved⟩ := facts text word
  obtain ⟨kind, value, line, raw⟩ := token
  rw [isText, Bool.and_eq_true, beq_iff_eq] at written
  obtain ⟨kinds, rfl⟩ := written
  have meaning : (⟨kind, value, line, raw⟩ : Token).behavior? = none := by
    cases kind with
    | name | operator => exact operand
    | _ => contradiction
  refine ⟨?_, ?_, ?_, ?_, ?_⟩
  · rw [isText, sign, Bool.and_false]
  · rw [Grammar.statementRule?, compound, ite_self]
  · rw [Grammar.statementRule?, simple, ite_self]
  · rw [prefixRule, meaning]
    rfl
  · cases kind with
    | name => simp [isKeyword, reserved]
    | _ => rfl

/-- No statement starts with a word that goes on with a compound statement, or where a block
closes. -/
theorem Token.Continues.unfit {token : Token} (continues : token.Continues) : token.Unfit := by
  rcases continues with kind | ⟨text, word, written⟩
  · exact .of_isLayout (by rw [kind]; rfl)
  · exact .of_continuing word written

/-- An operand that may be missing is read as one that may not. -/
theorem Inner.operand_of_optional {inner : Inner} {power : Power} {state behind : State}
    {out : Parsed} (whole : inner.optionalOperand power state = .ok (some out) behind) :
    inner.operand power state = .ok out behind := by
  obtain ⟨ended, same, looked, rest⟩ := bind_ok whole
  obtain ⟨rfl, rfl⟩ := EStateM.Result.ok.inj looked
  split at rest
  · exact absurd (pure_ok rest).1 (by simp)
  · obtain ⟨comma, same, looked, rest⟩ := bind_ok rest
    obtain ⟨rfl, rfl⟩ := EStateM.Result.ok.inj looked
    split at rest
    · exact absurd (pure_ok rest).1 (by simp)
    · obtain ⟨first, between, operand, rest⟩ := bind_ok rest
      obtain ⟨found, rfl⟩ := pure_ok rest
      obtain rfl := Option.some.inj found
      exact operand

/-- No decorator is read where none is in front. -/
theorem decorators_ok {scope : Scope} {state behind : State}
    (sign : state.current.isText "@" = false) (whole : scope.decorators state = .ok () behind) :
    behind = state := by
  rw [Scope.decorators] at whole
  generalize scope.inner.bound = bound at whole
  cases bound with
  | zero => exact absurd whole failExpression_ne
  | succ bound =>
    obtain ⟨turn, between, first, rest⟩ := bind_ok whole
    obtain ⟨found, last, eaten, further⟩ := bind_ok first
    rcases eat_ok eaten with ⟨-, written, -⟩ | ⟨rfl, -, rfl⟩
    · rw [sign] at written
      contradiction
    · obtain ⟨rfl, rfl⟩ := pure_ok further
      exact (pure_ok rest).2

/-- A line that starts neither with a decorator nor with a compound statement is read as a line of
simple statements. -/
theorem Scope.simpleLine_of_statementLine {scope : Scope} {state behind : State}
    {out : List Stmt} (standard : state.grammar = .standard)
    (sign : state.current.isText "@" = false)
    (simple : Grammar.statementRule? Grammar.standard.compound state.current = none)
    (read : scope.statementLine state = .ok out behind) : scope.simpleLine state = .ok out behind := by
  obtain ⟨⟨⟩, between, decorated, rest⟩ := bind_ok read
  obtain rfl := decorators_ok sign decorated
  obtain ⟨waiting, same, looked, rest⟩ := bind_ok rest
  obtain ⟨rfl, rfl⟩ := EStateM.Result.ok.inj looked
  obtain ⟨rule, same, looked, rest⟩ := bind_ok rest
  obtain ⟨rfl, rfl⟩ := EStateM.Result.ok.inj looked
  rw [standard, simple] at rest
  dsimp only at rest
  split at rest
  · contradiction
  · exact rest

section unfit

variable {state behind : State} (standard : state.grammar = .standard)
  (unfit : state.current.Unfit)
include standard unfit

/-- No operand is read where no statement starts. -/
theorem operandAt_unfit (depth : Nat) (power : Power) (out : Parsed) :
    operandAt depth power state ≠ .ok out behind := by
  cases depth with
  | zero => exact failExpression_ne
  | succ depth =>
    intro read
    obtain ⟨rule, same, looked, read⟩ := bind_ok read
    obtain ⟨rfl, rfl⟩ := EStateM.Result.ok.inj looked
    obtain ⟨first, next, head, -⟩ := bind_ok read
    have named : ((state.grammar.behavior? state.current).bind Behavior.prefixRule).getD .name =
        PrefixRule.name := by
      rw [standard]
      exact unfit.operand
    rw [named] at head
    obtain ⟨token, last, front, head⟩ := bind_ok head
    obtain ⟨rfl, rfl⟩ := EStateM.Result.ok.inj front
    rw [unfit.reserved] at head
    exact failExpression_ne head

/-- No simple statement is read where no statement starts. -/
theorem small_unfit (bound : Nat) (out : Stmt) :
    (Scope.upTo bound).small state ≠ .ok out behind := by
  intro whole
  obtain ⟨rule, same, looked, rest⟩ := bind_ok whole
  obtain ⟨rfl, rfl⟩ := EStateM.Result.ok.inj looked
  rw [standard, unfit.simple] at rest
  obtain ⟨ended, middle, looked, rest⟩ := bind_ok rest
  obtain ⟨rfl, rfl⟩ := EStateM.Result.ok.inj looked
  split at rest
  · exact failStatement_fails.ne rest
  · obtain ⟨found, between, optional, rest⟩ := bind_ok rest
    cases found with
    | none => exact failStatement_fails.ne rest
    | some first =>
      exact operandAt_unfit standard unfit bound _ first (Inner.operand_of_optional optional)

/-- No statement line is read where no statement starts. -/
theorem statementLine_unfit (bound : Nat) (out : List Stmt) :
    (Scope.upTo bound).statementLine state ≠ .ok out behind := by
  intro whole
  have rest := Scope.simpleLine_of_statementLine standard unfit.sign unfit.compound whole
  obtain ⟨first, between, small, -⟩ := bind_ok rest
  exact small_unfit standard unfit bound first small

end unfit

/-- Statement lines are read one after the other, before the end mark. -/
inductive Scope.Reads (scope : Scope) : State → List Stmt → State → Prop where
  /-- Nothing is read. -/
  | stop {state : State} : Reads scope state [] state
  /-- A line, and more of them. -/
  | line {state between behind : State} {body rest : List Stmt}
      (going : state.current.kind ≠ .endMarker)
      (read : scope.statementLine state = .ok body between)
      (later : Reads scope between rest behind) : Reads scope state (body ++ rest) behind

/-- One turn of the loop over the statement lines of a module. -/
def moduleTurn (scope : Scope) (body : List Stmt) : Parse (Turn (List Stmt) (List Stmt)) := do
  if ← checkKind .endMarker then return .done body
  else return .again (body ++ (← scope.statementLine))

/-- The statements of a module are read turn by turn. -/
theorem moduleBody_eq (scope : Scope) :
    moduleBody scope = loop (moduleTurn scope) scope.inner.bound [] := rfl

/-- At the end mark the module ends. -/
theorem moduleTurn_end {scope : Scope} {state : State} {body : List Stmt}
    (ends : state.current.kind = .endMarker) :
    moduleTurn scope body state = .ok (.done body) state := by
  rw [moduleTurn, bind_of_ok (show checkKind .endMarker state = .ok true state by
    rw [← decide_eq_true ends]; rfl)]
  rfl

/-- Before the end mark a line is read. -/
theorem moduleTurn_line {scope : Scope} {state : State} {body : List Stmt}
    (going : state.current.kind ≠ .endMarker) :
    moduleTurn scope body state =
      (do return .again (body ++ (← scope.statementLine)) : Parse (Turn _ _)) state := by
  rw [moduleTurn, bind_of_ok (show checkKind .endMarker state = .ok false state by
    rw [← decide_eq_false going]; rfl)]
  rfl

/-- Beside the token in front stands one of the same kind, if it is before the seam. -/
theorem Frame.Beside.kind {frame : Frame} {state other : State} (beside : frame.Beside state other)
    (leaves : frame.Leaves false state) : other.current.kind = state.current.kind := by
  have alike := beside.current leaves
  generalize state.current = token, other.current = found at alike
  obtain ⟨-⟩ := alike
  rfl

namespace Scope.Reads

variable {scope : Scope} {state between behind : State} {body rest : List Stmt}

/-- Lines behind lines. -/
theorem append (front : scope.Reads state body between) (back : scope.Reads between rest behind) :
    scope.Reads state (body ++ rest) behind := by
  induction front with
  | stop => exact back
  | line going read later ih =>
    rw [List.append_assoc]
    exact .line going read (ih back)

/-- The statements of a module are read line by line, up to the end mark. -/
theorem of_loop {bound : Nat} {front out : List Stmt}
    (whole : loop (moduleTurn scope) bound front state = .ok out behind) :
    ∃ body, out = front ++ body ∧ scope.Reads state body behind ∧
      behind.current.kind = .endMarker := by
  induction bound generalizing front state with
  | zero => exact absurd whole failExpression_ne
  | succ bound ih =>
    obtain ⟨turn, between, first, later⟩ := bind_ok whole
    by_cases ends : state.current.kind = .endMarker
    · rw [moduleTurn_end ends] at first
      obtain ⟨rfl, rfl⟩ := EStateM.Result.ok.inj first
      obtain ⟨rfl, rfl⟩ := pure_ok later
      exact ⟨[], (List.append_nil _).symm, .stop, ends⟩
    · rw [moduleTurn_line ends] at first
      obtain ⟨body, last, line, first⟩ := bind_ok first
      obtain ⟨rfl, rfl⟩ := pure_ok first
      obtain ⟨rest, rfl, reads, mark⟩ := ih later
      exact ⟨body ++ rest, List.append_assoc _ _ _, .line ends line reads, mark⟩

section upTo

/-- A line takes tokens to its end. -/
theorem line_closes {bound : Nat} {state behind : State} {body : List Stmt}
    (standard : state.grammar = .standard)
    (read : (Scope.upTo bound).statementLine state = .ok body behind) :
    state.Passes behind ∧ state.Closes behind := by
  have alike : (Scope.upTo bound).Mirrors Frame.whole (Scope.upTo bound) :=
    Scope.mirrors_upTo (Nat.le_refl _)
  have closing := Scope.statementLine_closing alike state standard
  exact ⟨(closing.mirrors.passes read).1, closing.closes read⟩

variable {bound : Nat} (reads : (Scope.upTo bound).Reads state body behind)
  (standard : state.grammar = .standard)
include reads standard

/-- What lines that are read keep. -/
theorem passes : state.Passes behind := by
  induction reads with
  | stop => exact .refl _
  | line going read later ih =>
    obtain ⟨passes, -⟩ := line_closes standard read
    exact passes.trans (ih (passes.grammar.trans standard))

/-- Behind lines that are read no decorator waits. -/
theorem waits (waits : state.decorators = []) : behind.decorators = [] := by
  induction reads with
  | stop => exact waits
  | line going read later ih =>
    obtain ⟨moves, kept⟩ :=
      Scope.statementLine_makes (Scope.sound_upTo bound) _ _ _ standard waits read
    exact ih (moves.grammar.trans standard) kept

/-- Lines that are read end with the last of them. -/
theorem closes : behind = state ∨ state.Closes behind := by
  induction reads with
  | stop => exact .inl rfl
  | line going read later ih =>
    obtain ⟨passes, first⟩ := line_closes standard read
    rcases ih (passes.grammar.trans standard) with same | further
    · exact .inr (same ▸ first)
    · exact .inr (further.of_suffix first.suffix)

/-- Lines that are read start where a statement may start, or at the end mark. -/
theorem front (mark : behind.current.kind = .endMarker) :
    state.current.kind = .endMarker ∨ ¬state.current.Unfit := by
  cases reads with
  | stop => exact .inl mark
  | line going read later => exact .inr fun unfit => statementLine_unfit standard unfit bound _ read

/-- Lines are read as a module, if the bound on their number is great enough. -/
theorem loop {turns : Nat} (front : List Stmt) (mark : behind.current.kind = .endMarker)
    (enough : state.ahead.length < turns) :
    Parse.loop (moduleTurn (.upTo bound)) turns front state = .ok (front ++ body) behind := by
  induction reads generalizing turns front with
  | @stop state =>
    obtain ⟨turns, rfl⟩ := Nat.exists_eq_add_of_le' (Nat.one_le_of_lt enough)
    rw [Parse.loop, bind_of_ok (moduleTurn_end mark), List.append_nil]
    rfl
  | @line state between behind body rest going read later ih =>
    obtain ⟨turns, rfl⟩ := Nat.exists_eq_add_of_le' (Nat.one_le_of_lt enough)
    obtain ⟨passes, before, ending, dedents, ahead, -⟩ := line_closes standard read
    have shorter : between.ahead.length < state.ahead.length := by
      rw [ahead]
      simp
      omega
    have turn : moduleTurn (.upTo bound) front state = .ok (.again (front ++ body)) between := by
      rw [moduleTurn_line going, bind_of_ok read]
      rfl
    rw [Parse.loop, bind_of_ok turn]
    dsimp only
    rw [ih (passes.grammar.trans standard) (front ++ body) mark (by omega), List.append_assoc]

/-- Lines are read beside others, up to a seam where nothing goes on. -/
theorem mirrors {frame : Frame} {otherBound : Nat} {other : State} (within : bound ≤ otherBound)
    (beside : frame.Beside state other) (leaves : frame.Leaves true behind) :
    ∃ last, (Scope.upTo otherBound).Reads other (moveBody frame.move body) last ∧
      frame.Beside behind last := by
  induction reads generalizing other with
  | stop => exact ⟨other, .stop, beside⟩
  | @line state between behind body rest going read later ih =>
    have alike : (Scope.upTo bound).Mirrors frame (Scope.upTo otherBound) :=
      Scope.mirrors_upTo within
    have closing := Scope.statementLine_closing alike state standard
    obtain ⟨passes, -⟩ := closing.mirrors.passes read
    have onward := passes.grammar.trans standard
    have middle : frame.Leaves true between := leaves.of_passes (later.passes onward)
    obtain ⟨found, place, otherRead, rfl, besideThere⟩ :=
      closing.mirrors.follows beside read middle
    obtain ⟨last, otherLater, besideLast⟩ := ih onward besideThere leaves
    have kind := beside.kind (middle.of_closes (closing.closes read))
    refine ⟨last, ?_, besideLast⟩
    rw [moveBody_append]
    exact .line (kind ▸ going) otherRead otherLater

/-- Lines up to the end mark are read beside the same ones with their lines moved. -/
theorem alike {move : Nat → Nat} {otherBound : Nat} {other : State} (within : bound ≤ otherBound)
    (beside : Frame.Beside ⟨move, [], []⟩ state other) {ending : Token}
    (left : behind.ahead = [ending]) :
    ∃ last, (Scope.upTo otherBound).Reads other (moveBody move body) last ∧
      last.current.kind = behind.current.kind := by
  have leaves (edge : Bool) : Frame.Leaves ⟨move, [], []⟩ edge behind :=
    ⟨[ending], left, fun empty => absurd empty (List.cons_ne_nil _ _)⟩
  obtain ⟨last, read, besideLast⟩ := mirrors reads standard within beside (leaves true)
  exact ⟨last, read, besideLast.kind (leaves false)⟩

end upTo

end Scope.Reads

/-- The state before the first of tokens. -/
def State.ofTokens (tokens : List Token) (file : Option String) : State where
  ahead := tokens.filter Token.isSignificant
  line := 1
  failure := none
  file := file.getD unknownFile
  grammar := .standard
  decorators := []

/-- Parsing tokens starts before the first of them. -/
theorem State.start_ofTokens (tokens : List Token) (file : Option String) :
    State.start (.ofTokens tokens) (file.getD unknownFile) = .ok (.ofTokens tokens file) := by
  unfold State.start
  dsimp only
  split
  · contradiction
  · rfl

/-- Tokens are read as the statements of a module, up to the end mark behind them. -/
structure ReadsModule (tokens : List Token) (file : Option String) (body : List Stmt)
    (behind : State) : Prop where
  /-- The statements are read line by line. -/
  reads : (Scope.upTo (State.ofTokens tokens file).bound).Reads (.ofTokens tokens file) body behind
  /-- The end mark is in front. -/
  mark : behind.current.kind = .endMarker

/-- What is parsed as a module is the statements of one. -/
theorem parseRoot_exec_iff {state behind : State} {body : List Stmt} :
    parseRoot .exec state = .ok (.module body) behind ↔
      moduleBody (.upTo state.bound) state = .ok body behind := by
  constructor
  · intro read
    obtain ⟨found, between, lines, rest⟩ := bind_ok read
    obtain ⟨same, rfl⟩ := pure_ok rest
    obtain rfl := Root.module.inj same
    exact lines
  · intro read
    have run : Scope.run moduleBody state = .ok body behind := read
    rw [parseRoot, bind_of_ok run]
    rfl

/-- Tokens are parsed as a module just if they are read as one. -/
theorem parseTokens_exec_iff {tokens : List Token} {file : Option String} {body : List Stmt} :
    parseTokens tokens file .exec = .ok (.module body) ↔
      ∃ behind, ReadsModule tokens file body behind := by
  have start := State.start_ofTokens tokens file
  constructor
  · intro parsed
    obtain ⟨state, behind, started, read⟩ := parseStream_ok parsed
    obtain rfl := Except.ok.inj (start.symm.trans started)
    rw [parseRoot_exec_iff, moduleBody_eq] at read
    obtain ⟨found, rfl, reads, mark⟩ := Scope.Reads.of_loop read
    exact ⟨behind, reads, mark⟩
  · rintro ⟨behind, reads, mark⟩
    have read : parseRoot .exec (.ofTokens tokens file) = .ok (.module body) behind := by
      rw [parseRoot_exec_iff, moduleBody_eq]
      exact reads.loop rfl [] mark (Nat.lt_add_of_pos_right (by decide))
    rw [parseTokens, parseStream, start]
    simp only [bind, Except.bind, EStateM.run, read]
    rfl

/-- A text is parsed as a module just if its tokens are read as one. -/
theorem parse_exec_iff {source : String} {file : Option String} {body : List Stmt} :
    parse source file .exec = .ok (.module body) ↔
      ∃ tokens behind, tokenize source file = .ok tokens ∧ ReadsModule tokens file body behind := by
  have agrees {tokens : List Token} (scanned : tokenize source file = .ok tokens) :
      parse source file .exec = parseTokens tokens file .exec := by
    rw [parse, parseTokens, Stream.toExcept_ok scanned]
  constructor
  · intro parsed
    obtain ⟨tokens, scanned, -⟩ := parse_derives (by decide) parsed
    rw [agrees scanned] at parsed
    obtain ⟨behind, reads⟩ := parseTokens_exec_iff.1 parsed
    exact ⟨tokens, behind, scanned, reads⟩
  · rintro ⟨tokens, behind, scanned, reads⟩
    rw [agrees scanned]
    exact parseTokens_exec_iff.2 ⟨behind, reads⟩

/-- Behind a module nothing but the end mark is left. -/
theorem ReadsModule.left {tokens : List Token} {file : Option String} {body : List Stmt}
    {behind : State} (whole : ReadsModule tokens file body behind) (laidOut : WellLaidOut tokens) :
    ∃ last, behind.ahead = [last] ∧ last.kind = .endMarker := by
  obtain ⟨front, last, same, mark, unmarked⟩ := laidOut.ended
  have significant : last.isSignificant = true := by simp [Token.isSignificant, mark]
  have ahead : (State.ofTokens tokens file).ahead =
      front.filter Token.isSignificant ++ [last] := by
    rw [State.ofTokens, same, List.filter_append, List.filter_singleton, significant]
    rfl
  have ends : behind.ahead.getLast? = some last := by
    have first : (State.ofTokens tokens file).ahead.getLast? = some last := by
      rw [ahead, List.getLast?_concat]
    rcases whole.reads.closes rfl with rfl | closes
    · exact first
    · exact closes.getLast first mark
  have within := (whole.reads.passes rfl).suffix
  have kind := whole.mark
  cases left : behind.ahead with
  | nil => simp [left] at ends
  | cons token rest =>
    rw [State.current, left] at kind
    rw [left, ahead] at within
    have alone := singleton_of_suffix within kind fun token member =>
      unmarked token (List.mem_filter.1 member).1
    exact ⟨token, by rw [alone], kind⟩

/-- Tokens open no brackets if those that the grammar looks at are no operators. -/
theorem depthBehind_of_filter {tokens : List Token} (depth : Nat)
    (plain : ∀ token ∈ tokens.filter Token.isSignificant, token.kind ≠ .operator) :
    tokens.foldl Token.depthBehind depth = depth := by
  refine depthBehind_of_plain depth fun token member operator => ?_
  have significant : token.isSignificant = true := by simp [Token.isSignificant, operator]
  exact plain token (List.mem_filter.2 ⟨member, significant⟩) operator

/-- Behind a module no bracket is open. -/
theorem ReadsModule.flat {tokens : List Token} {file : Option String} {body : List Stmt}
    {behind : State} (whole : ReadsModule tokens file body behind) (laidOut : WellLaidOut tokens) :
    bracketsBehind tokens = 0 := by
  obtain ⟨last, left, mark⟩ := whole.left laidOut
  have final : last.kind ≠ .operator := by simp [mark]
  rcases whole.reads.closes rfl with rfl | closes
  · refine depthBehind_of_filter 0 ?_
    rw [show tokens.filter Token.isSignificant = [last] from left]
    exact List.forall_mem_singleton.2 final
  · -- The last line ends outside brackets, and no operator stands behind its end.
    obtain ⟨front, ending, closing, ahead, kind, dedents⟩ := closes
    rw [left, List.append_assoc] at ahead
    obtain ⟨upper, lower, rfl, -, filtered⟩ := List.filter_eq_append_iff.1 ahead
    obtain ⟨between, later, rfl, -, -, filtered⟩ := List.filter_eq_cons_iff.1 filtered
    rw [← List.append_assoc] at laidOut ⊢
    have outside : bracketsBehind (upper ++ between) = 0 :=
      laidOut.outside _ ending later rfl (kind.imp_right .inl)
    have plain : ∀ token ∈ later.filter Token.isSignificant, token.kind ≠ .operator := by
      rw [filtered]
      intro token member
      rcases List.mem_append.1 member with member | member
      · simp [dedents token member]
      · exact List.mem_singleton.1 member ▸ final
    have ends : ending.depthBehind 0 = 0 := by
      rcases kind with kind | kind <;> simp [Token.depthBehind, kind]
    rw [bracketsBehind, List.foldl_append, ← bracketsBehind, outside, List.foldl_cons, ends]
    exact depthBehind_of_filter 0 plain

/-- Where a module starts, neither a block opens nor does a compound statement go on. -/
theorem ReadsModule.starts {tokens : List Token} {file : Option String} {body : List Stmt}
    {behind : State} (whole : ReadsModule tokens file body behind) :
    ∀ token ∈ (tokens.filter Token.isSignificant).head?,
      token.kind ≠ .indent ∧ ¬token.Continues := by
  intro token member
  have current : (State.ofTokens tokens file).current = token := by
    rw [State.current, State.ofTokens, List.headD_eq_head?_getD, Option.mem_def.1 member]
    rfl
  have front := whole.reads.front rfl whole.mark
  rw [current] at front
  rcases front with mark | fit
  · exact ⟨by simp [mark], Token.not_continues_of_endMarker mark⟩
  · exact ⟨fun kind => fit (.of_isLayout (by rw [kind]; rfl)), fun continues => fit continues.unfit⟩

/-- Nothing goes on between the end mark of a text and tokens that are those of a module. -/
theorem ReadsModule.fresh {tokens rest : List Token} {file : Option String} {body : List Stmt}
    {behind : State} (whole : ReadsModule tokens file body behind) {move : Nat → Nat}
    (alike : List.Forall₂ (Token.Alike move) (tokens.filter Token.isSignificant) rest)
    {final : Token} (mark : final.kind = .endMarker) : Frame.Fresh ⟨id, [final], rest⟩ := by
  refine ⟨List.cons_ne_nil _ _, ?_, ?_⟩
  · intro token head
    obtain rfl := Option.some.inj head
    exact Token.not_continues_of_endMarker mark
  · have starts := whole.starts
    generalize tokens.filter Token.isSignificant = first at alike starts
    cases alike with
    | nil => exact fun token head => absurd head (by simp)
    | cons here _ =>
      intro found head continues
      obtain rfl := Option.some.inj head
      exact (starts _ rfl).2 (here.continues continues)

/-- Tokens that are those of two modules one behind the other are read as the statements of both,
with the lines of the second one moved. -/
theorem ReadsModule.join {count : Nat} {first second whole : List Token} {file : Option String}
    {head tail : List Stmt} {behind later : State} (front : ReadsModule first file head behind)
    (laidOut : WellLaidOut first) (back : ReadsModule second file tail later)
    (laidOutBack : WellLaidOut second)
    (joins : Joins count (first.filter Token.isSignificant) (second.filter Token.isSignificant)
      (whole.filter Token.isSignificant)) :
    ∃ last, ReadsModule whole file (head ++ moveBody (· + count) tail) last := by
  obtain ⟨found, ahead, -⟩ := front.left laidOut
  obtain ⟨ending, backAhead, -⟩ := back.left laidOutBack
  have passes := front.reads.passes rfl
  have some_ : second.filter Token.isSignificant ≠ [] := by
    intro empty
    have within := (back.reads.passes rfl).suffix
    rw [backAhead, State.ofTokens, empty] at within
    simp at within
  obtain ⟨atMost, atMostBack⟩ := joins.length_le some_
  obtain ⟨left, final, moved, rest, firstAhead, mark, wholeAhead, same, lower⟩ := joins
  have ends : behind.ahead = [final] := by
    obtain ⟨before, split⟩ := passes.suffix
    rw [ahead] at split ⊢
    exact (List.append_inj' (split.trans firstAhead) rfl).2
  -- The statements of the first module are read up to the place of its end mark.
  have beside : Frame.Beside ⟨id, [final], rest⟩ (.ofTokens first file) (.ofTokens whole file) :=
    ⟨⟨left, moved, firstAhead, wholeAhead, same⟩, rfl, rfl, rfl, rfl⟩
  obtain ⟨middle, readsFront, besideThere⟩ := front.reads.mirrors rfl
    (Nat.add_le_add_right atMost 2) beside ⟨[], ends, fun _ => ⟨rfl, back.fresh lower mark⟩⟩
  rw [moveBody_id] at readsFront
  have middleAhead : middle.ahead = rest := besideThere.at_seam ends
  -- The statements of the second module are read from there on.
  have besideBack : Frame.Beside ⟨(· + count), [], []⟩ (.ofTokens second file) middle :=
    ⟨⟨_, rest, (List.append_nil _).symm, middleAhead.trans (List.append_nil _).symm, lower⟩,
      besideThere.grammar.trans passes.grammar,
      besideThere.decorators.trans (front.reads.waits rfl rfl), rfl, besideThere.otherFailure⟩
  obtain ⟨last, readsBack, kind⟩ := back.reads.alike rfl (Nat.add_le_add_right atMostBack 2)
    besideBack backAhead
  exact ⟨last, readsFront.append readsBack, kind.trans back.mark⟩

/-- What is parsed as a module is one. -/
theorem parse_exec_module {source : String} {file : Option String} {root : Root}
    (parsed : parse source file .exec = .ok root) : ∃ body, root = .module body := by
  obtain ⟨state, behind, -, read⟩ := parseStream_ok parsed
  obtain ⟨body, between, -, rest⟩ := bind_ok read
  exact ⟨body, (pure_ok rest).1⟩

/-- Parsing modules is compatible with writing one text behind another. If a text is empty or ends
in a line feed, and it and a second text are modules, then the first text with the second one behind
it is the module of the statements of the first text and, behind them, those of the second one with
their lines moved down by the number of lines of the first text. -/
theorem parse_append {front back : String} {file : Option String} {first second : List Stmt}
    (ends : EndsLine front.toList) (head : parse front file .exec = .ok (.module first))
    (tail : parse back file .exec = .ok (.module second)) :
    parse (front ++ back) file .exec =
      .ok (.module (first ++
        second.map (Stmt.moveLines (· + (physicalLines front).length)))) := by
  obtain ⟨tokens, behind, scanned, reads⟩ := parse_exec_iff.1 head
  obtain ⟨further, later, scannedBack, readsBack⟩ := parse_exec_iff.1 tail
  have laidOut := Scanner.wellLaidOut_of_tokenize scanned
  have laidOutBack := Scanner.wellLaidOut_of_tokenize scannedBack
  have flush : ∀ token ∈ (further.filter Token.isSignificant).head?, token.kind ≠ .indent :=
    fun token member => (readsBack.starts token member).1
  obtain ⟨whole, scannedWhole, joins⟩ :=
    tokenize_append ends scanned scannedBack (reads.flat laidOut) flush
  obtain ⟨last, readsWhole⟩ := reads.join laidOut readsBack laidOutBack joins
  rw [← moveBody_eq_map]
  exact parse_exec_iff.2 ⟨whole, last, scannedWhole, readsWhole⟩

/-- A text that ends inside a block, and a text with a definition behind a comment. -/
theorem parse_append_of_block :
    EndsLine "if a:\n    b\n\n".toList ∧ ∃ first second,
      parse "if a:\n    b\n\n" none .exec = .ok (.module first) ∧
      parse "# c\ndef f():\n    d\n" none .exec = .ok (.module second) ∧
      parse ("if a:\n    b\n\n" ++ "# c\ndef f():\n    d\n") none .exec =
        .ok (.module (first ++ second.map (Stmt.moveLines (· + 3)))) := by
  have ends : EndsLine "if a:\n    b\n\n".toList := .inr (by decide)
  have lines : (physicalLines "if a:\n    b\n\n").length = 3 := by decide
  have front : (parse "if a:\n    b\n\n" none .exec).toBool = true := by decide +kernel
  have back : (parse "# c\ndef f():\n    d\n" none .exec).toBool = true := by decide +kernel
  refine ⟨ends, ?_⟩
  cases head : parse "if a:\n    b\n\n" none .exec with
  | error fault =>
    rw [head] at front
    contradiction
  | ok root =>
    cases tail : parse "# c\ndef f():\n    d\n" none .exec with
    | error fault =>
      rw [tail] at back
      contradiction
    | ok other =>
      obtain ⟨first, rfl⟩ := parse_exec_module head
      obtain ⟨second, rfl⟩ := parse_exec_module tail
      exact ⟨first, second, rfl, rfl, lines ▸ parse_append ends head tail⟩

end Offside
