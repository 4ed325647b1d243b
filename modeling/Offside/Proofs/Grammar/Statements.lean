import Offside.Proofs.Grammar.Simple

/-!
# Statements follow the grammar

The rules of compound statements follow their productions, if what reads the statements inside
does. Decorators wait only between their lines and the definition behind them. By induction on the
depth, statements of any depth follow the grammar, and so does all of a text (`parseRoot_moves`).
-/
namespace Offside

open Parse

/-- What reads expressions and statements makes them. Statements are read where no decorators
wait, and leave none. -/
structure Scope.Sound (scope : Scope) : Prop where
  /-- Expressions are made. -/
  inner (waiting : List Expr) : scope.inner.Sound waiting
  /-- Statement lines are made. -/
  statement : scope.statement.Makes [] .statement
  /-- Lines of simple statements are made. -/
  line : scope.line.Makes [] .line

/-- The token in front starts a compound statement of a rule. -/
def Token.StartsCompound (rule : StatementRule) (token : Token) : Prop :=
  Grammar.statementRule? Grammar.standard.compound token = some rule

/-- A token that starts a compound statement has the word of the rule. -/
theorem Token.StartsCompound.isText {rule : StatementRule} {token : Token}
    (starts : token.StartsCompound rule) (text : String)
    (single : rule.words Grammar.standard.compound = [text]) : token.isText text = true :=
  isText_of_statementRule text single starts

/-- A word of known line is taken. -/
theorem Parse.Follows.advance_word {β : Type} {waiting after : List Expr} {front : Token → Prop}
    {before : List Symbol} {fits : β → List Symbol → Prop} {text : String} {next : Token → Parse β}
    (written : ∀ token, front token → token.isText text = true)
    (later : ∀ token, front token → (next token).Follows waiting after (fun _ => True)
      (before ++ [.terminal (.word text token.line)]) fits) :
    (Parse.advance >>= next).Follows waiting after front before fits :=
  .advance (fun token => .word text token.line) (fun token known => ⟨written token known, rfl⟩)
    later

namespace Scope

/-- One line of a decorator, which waits behind it. -/
def nextDecorator (scope : Scope) : Parse (Turn Unit Unit) := do
  if ← eat "@" then
    let decorator ← scope.inner.expr Power.target
    let _ ← expectKind .newline
    pushDecorator decorator
    return .again ()
  else return .done ()

variable {scope : Scope} (sound : scope.Sound)
include sound

/-- The block behind a colon. -/
theorem suite_makes : scope.suite.Makes [] .suite := by
  refine Follows.makes (.eatKind rfl (.expectKind rfl fun _ => ?_) ?_)
  · refine Makes.last (Makes.loop .block (fun body => ?_) _ _) fun out => .stmt .indented
    refine .eatKind rfl (.pure (.stmt .blockEnd)) ?_
    exact sound.statement.bind fun more => .pure ⟨trivial, fun _ => .stmt .block⟩
  · exact sound.line.last fun _ => .stmt .inline

/-- A colon and the block behind it. -/
theorem colonSuite_makes : scope.colonSuite.Makes [] .colonSuite :=
  Follows.makes (.expect fun _ => (suite_makes sound).last fun _ => .stmt .colonSuite)

/-- The block behind a word. -/
theorem optionalSuite_makes (word : String) :
    (scope.optionalSuite word).Makes [] (.optionalSuite word) := by
  refine Follows.makes (.eat ?_ (.pure (.stmt .noSuite)))
  exact (colonSuite_makes sound).last fun out => .stmt .someSuite

/-- The definition of a function. -/
theorem functionDef_follows (decorators : List Expr) (isAsync : Bool) (line : Nat) :
    (scope.functionDef isAsync line).Follows decorators []
      (fun token => isAsync = false → token.line = line) [] fun out =>
        Production (.functionDef isAsync line decorators out) := by
  have rest (place : Nat) (same : isAsync = false → place = line) (name : String)
      (parameters : Arguments) (returns : Option Expr) : (do
      let _ ← expect ":"
      let decorators ← takeDecorators
      let body ← scope.suite
      return Stmt.functionDef isAsync name parameters body decorators returns line
        : Parse Stmt).Follows decorators [] (fun _ => True)
      [.terminal (.word "def" place), .identifier name, .text "(",
        .phrase (.parameters .definition ⟨.none, false⟩ parameters), .text ")",
        .phrase (.returns returns)]
      fun out => Production (.functionDef isAsync line decorators out) := by
    refine .expect fun _ => .takeDecorators ?_
    exact (suite_makes sound).bind fun body => .pure (.stmt (.functionDef same))
  refine .expect_of (fun token => .word "def" token.line) (fun _ written => ⟨written, rfl⟩)
    fun token same => .expectName fun name => .expect fun _ => ?_
  refine (Inner.parameters_makes (sound.inner decorators) _).bind fun parameters => ?_
  refine .expect fun _ => .eat ?_ ?_
  · refine (Inner.expr_makes (sound.inner decorators) _).bind fun annotation => ?_
    exact .reduce_last [_, _, _, _, _] (.stmt .someReturns) (rest _ same _ _ (some annotation))
  · have none_ := rest token.line same name parameters none
    exact .reduce_last [_, _, _, _, _] (.stmt .noReturns) (none_.weaken fun _ _ => trivial)

/-- The definition of a class. -/
theorem classDef_follows {decorators : List Expr} :
    scope.classDef.Follows decorators [] (Token.StartsCompound .classDef) [] fun out =>
      Production (.compound decorators out) := by
  have rest (line : Nat) (name : String) (found : CallArguments) : (do
      let _ ← expect ":"
      let decorators ← takeDecorators
      let body ← scope.suite
      return Stmt.classDef name found.positional found.keywords body decorators line
        : Parse Stmt).Follows decorators [] (fun _ => True)
      [.terminal (.word "class" line), .identifier name, .phrase (.classArguments found)]
      fun out => Production (.compound decorators out) := by
    refine .expect fun _ => .takeDecorators ?_
    exact (suite_makes sound).bind fun body => .pure (.stmt .classDef)
  refine .advance_word (fun _ starts => starts.isText "class" (by decide)) fun token _ => ?_
  refine .expectName fun name => .eat ?_ ?_
  · refine (Inner.callArguments_follows (sound.inner decorators)).bind fun found symbols same => ?_
    rw [same]
    exact .reduce_last [_, _] (.stmt .someArguments) (rest token.line name found)
  · have none_ := rest token.line name ⟨[], []⟩
    exact .reduce_last [_, _] (.stmt .noArguments) (none_.weaken fun _ _ => trivial)

/-- A loop over a sequence. -/
theorem forLoop_makes (isAsync : Bool) : (scope.forLoop isAsync).Makes [] (.forLoop isAsync) := by
  refine Follows.makes (.expect fun _ => ?_)
  refine (Inner.forIn_makes (sound.inner []) _).bind fun out => ?_
  refine (colonSuite_makes sound).bind fun body => ?_
  exact (optionalSuite_makes sound _).bind fun orelse => .pure (.stmt .forLoop)

/-- A context. -/
theorem withItem_makes : scope.withItem.Makes [] .withItem := by
  refine Follows.makes ((Inner.expr_makes (sound.inner []) _).bind fun context => .eat ?_ ?_)
  · refine (Inner.optionalTarget_makes (sound.inner []) _ _).bind fun found => ?_
    cases found with
    | none => exact .current fun _ _ => .fail
    | some target => exact .pure (.stmt .boundItem)
  · exact .pure (.stmt .withItem)

/-- Contexts and the block inside them. -/
theorem withItems_makes (isAsync : Bool) :
    (scope.withItems isAsync).Makes [] (.withBlock isAsync) := by
  refine Follows.makes (.expect fun _ => ?_)
  refine (Makes.loop .withItems (fun items => ?_) _ _).bind fun items => ?_
  · refine (withItem_makes sound).bind fun item => .eat ?_ (.pure (.stmt .lastItem))
    exact .pure ⟨trivial, fun _ => .stmt .withItems⟩
  · exact (colonSuite_makes sound).bind fun body => .pure (.stmt .withBlock)

/-- A condition and its block, behind a word. -/
theorem condition_follows {word : String} {front : Token → Prop}
    (written : ∀ token, front token → token.isText word = true) :
    scope.condition.Follows [] [] front [] fun out symbols =>
      symbols = [.phrase (.condition word out.1 out.2)] := by
  refine .advance_text written fun _ _ => ?_
  refine (Inner.expr_makes (sound.inner []) _).bind fun test => ?_
  exact (colonSuite_makes sound).bind fun body => .reduce (.stmt .condition) (.pure rfl)

/-- A choice. -/
theorem ifElse_follows :
    scope.ifElse.Follows [] [] (Token.StartsCompound .ifElse) [] fun out =>
      Production (.compound [] out) := by
  have opening := condition_follows sound fun token (starts : token.StartsCompound .ifElse) =>
    starts.isText "if" (by decide)
  refine opening.bind fun first symbols same => ?_
  rw [same]
  refine (Makes.loop .elifs (fun others => ?_) _ _).bind fun others => ?_
  · refine .check fun found => ?_
    cases found with
    | true =>
      have further := condition_follows sound
        fun token (known : True ∧ token.isText "elif" = true) => known.2
      refine further.bind fun next symbols same => ?_
      rw [same]
      exact .pure ⟨trivial, fun _ => .stmt .elifs⟩
    | false => exact .pure (.stmt .elifsEnd)
  · exact (optionalSuite_makes sound _).bind fun last => .pure (.stmt .choice)

/-- A loop under a condition. -/
theorem whileLoop_follows :
    scope.whileLoop.Follows [] [] (Token.StartsCompound .whileLoop) [] fun out =>
      Production (.compound [] out) := by
  have opening := condition_follows sound fun token (starts : token.StartsCompound .whileLoop) =>
    starts.isText "while" (by decide)
  refine opening.bind fun first symbols same => ?_
  rw [same]
  exact (optionalSuite_makes sound _).bind fun orelse => .pure (.stmt .whileLoop)

/-- A handler. -/
theorem handler_makes : scope.handler.Makes [] .handler := by
  have block := colonSuite_makes sound
  refine Follows.makes (.check fun all => ?_)
  cases all with
  | true => exact block.bind fun body => .pure (.stmt .handleAll)
  | false =>
    refine (Inner.expr_makes (sound.inner []) _).bind fun type => ?_
    refine Inner.asName_makes.bind fun name => ?_
    exact block.bind fun body => .pure (.stmt .handler)

/-- Handled exceptions. -/
theorem tryExcept_follows :
    scope.tryExcept.Follows [] [] (Token.StartsCompound .tryExcept) [] fun out =>
      Production (.compound [] out) := by
  have block := colonSuite_makes sound
  refine .advance_text (fun _ starts => starts.isText "try" (by decide)) fun _ _ => ?_
  refine block.bind fun body => ?_
  refine (Makes.loop .handlers (fun handlers => ?_) _ _).bind fun handlers => ?_
  · refine .eat ?_ (.pure (.stmt .handlersEnd))
    exact (handler_makes sound).bind fun handler => .pure ⟨trivial, fun _ => .stmt .handlers⟩
  · refine (optionalSuite_makes sound _).bind fun orelse => .eat ?_ ?_
    · exact block.bind fun final => .pure (.stmt .tryFinally)
    · rw [if_neg Bool.false_ne_true]
      split
      · exact .fail
      · rename_i some_
        rw [List.isEmpty_iff] at some_
        exact .pure (.stmt (.tryExcept some_))

/-- The word async and what is behind it. Only a definition takes decorators. -/
theorem async_follows {decorators : List Expr} :
    scope.async.Follows decorators [] (Token.StartsCompound .async) [] fun out =>
      Production (.compound decorators out) := by
  refine .advance_word (fun _ starts => starts.isText "async" (by decide)) fun token _ => ?_
  refine .check fun defines => ?_
  cases defines with
  | true =>
    have definition := functionDef_follows sound decorators true token.line
    refine (definition.weaken fun _ _ impossible => ?_).last fun out => .stmt .defineAsync
    contradiction
  | false =>
    refine .hasDecorators ?_
    cases decorators with
    | cons decorator decorators => exact .fail
    | nil =>
      refine .check fun loops => ?_
      cases loops with
      | true => exact (forLoop_makes sound true).last fun out => .stmt .loopOverAsync
      | false =>
        refine .check fun enters => ?_
        cases enters with
        | true => exact (withItems_makes sound true).last fun out => .stmt .insideAsync
        | false => exact .fail

end Scope

/-- A compound statement is read by the rule of its first word. Where decorators wait it must be
one that takes them. -/
theorem StatementRule.parse_compound {scope : Scope} (sound : scope.Sound) {rule : StatementRule}
    {decorators : List Expr}
    (takes : decorators = [] ∨ rule ∈ [StatementRule.functionDef, .classDef, .async]) :
    (rule.parse scope).Follows decorators [] (Token.StartsCompound rule) [] fun out =>
      Production (.compound decorators out) := by
  have alone (other : rule ∉ [StatementRule.functionDef, .classDef, .async]) : decorators = [] :=
    takes.resolve_right other
  cases rule with
  | functionDef =>
    refine .current fun token _ => ?_
    have definition := Scope.functionDef_follows sound decorators false token.line
    refine (definition.weaken ?_).last fun out => .stmt .define
    rintro _ rfl _
    rfl
  | async => exact Scope.async_follows sound
  | classDef => exact Scope.classDef_follows sound
  | ifElse =>
    obtain rfl := alone (by decide)
    exact Scope.ifElse_follows sound
  | forLoop =>
    obtain rfl := alone (by decide)
    exact (Scope.forLoop_makes sound false).last fun out => .stmt .loopOver
  | whileLoop =>
    obtain rfl := alone (by decide)
    exact Scope.whileLoop_follows sound
  | withItems =>
    obtain rfl := alone (by decide)
    exact (Scope.withItems_makes sound false).last fun out => .stmt .inside
  | tryExcept =>
    obtain rfl := alone (by decide)
    exact Scope.tryExcept_follows sound
  | importModules | importFrom | breakLoop | continueLoop | pass | returnValue | raise | assert
    | delete | globals | nonlocals =>
    refine .known fun token starts => ?_
    exact absurd (Token.mem_words_of_statementRule starts).2 List.not_mem_nil

/-- A simple statement is read by the rule of its first word. -/
theorem StatementRule.parse_simple {scope : Scope} (sound : scope.Sound) (rule : StatementRule) :
    (rule.parse scope).Follows [] [] (Token.StartsSimple rule) [] fun out =>
      Production (.small out) := by
  have inner := sound.inner []
  cases rule with
  | importModules => exact Inner.importStatement_follows
  | importFrom => exact Inner.importFromStatement_follows
  | breakLoop =>
    exact Inner.wordStatement_follows (fun _ starts => starts.isText "break" (by decide)) .breakLoop
  | continueLoop =>
    exact Inner.wordStatement_follows (fun _ starts => starts.isText "continue" (by decide))
      .continueLoop
  | pass =>
    exact Inner.wordStatement_follows (fun _ starts => starts.isText "pass" (by decide)) .pass
  | returnValue => exact Inner.returnStatement_follows inner
  | raise => exact Inner.raiseStatement_follows inner
  | assert => exact Inner.assertStatement_follows inner
  | delete => exact Inner.deleteStatement_follows inner
  | globals =>
    have names := @Inner.nameList_follows [] scope.inner "global" (Token.StartsSimple .globals)
      fun _ starts => starts.isText "global" (by decide)
    apply names.bind
    rintro found _ ⟨first, rfl⟩
    exact .pure (.stmt .globals)
  | nonlocals =>
    have names := @Inner.nameList_follows [] scope.inner "nonlocal" (Token.StartsSimple .nonlocals)
      fun _ starts => starts.isText "nonlocal" (by decide)
    apply names.bind
    rintro found _ ⟨first, rfl⟩
    exact .pure (.stmt .nonlocals)
  | functionDef | async | classDef | ifElse | forLoop | whileLoop | withItems | tryExcept =>
    refine .known fun token starts => ?_
    exact absurd (Token.mem_words_of_statementRule starts).2 List.not_mem_nil

namespace Scope

variable {scope : Scope} (sound : scope.Sound)
include sound

/-- A simple statement. -/
theorem small_makes : scope.small.Makes [] .small := by
  refine Follows.makes (.simpleRule? fun found => ?_)
  cases found with
  | some rule => exact rule.parse_simple sound
  | none => exact Inner.expressionStatement_follows (sound.inner [])

/-- A line of simple statements. -/
theorem simpleLine_makes : scope.simpleLine.Makes [] .line := by
  have small := small_makes sound
  refine Follows.makes (small.bind fun first => ?_)
  refine (Makes.loop .moreSmall (fun body => ?_) _ _).bind fun body => ?_
  · refine .eat (.checkKind fun ended => .checkKind fun closed => ?_) (.pure (.stmt .smallEnd))
    split
    · exact .pure (.stmt .smallSemicolon)
    · exact small.bind fun stmt => .pure ⟨trivial, fun _ => .stmt .moreSmall⟩
  · exact .expectKind rfl fun _ => .pure (.stmt .line)

/-- Decorators, which wait behind their lines. -/
theorem decorators_moves (bound : Nat) {state behind : State} (standard : state.grammar = .standard)
    (read : loop (fun _ => scope.nextDecorator) bound () state = .ok () behind) :
    State.Moves [.phrase (.decorators state.decorators behind.decorators)] state behind := by
  induction bound generalizing state with
  | zero => exact absurd read failExpression_ne
  | succ bound ih =>
    obtain ⟨result, last, turn, rest⟩ := bind_ok read
    obtain ⟨found, first, head, tail⟩ := bind_ok turn
    rcases eat_ok head with ⟨rfl, -, sign, kept⟩ | ⟨rfl, -, rfl⟩
    · obtain ⟨decorator, second, head, tail⟩ := bind_ok tail
      obtain ⟨expr, waits⟩ := Inner.expr_makes (sound.inner _) _ first decorator second
        (sign.grammar.trans standard) rfl head
      obtain ⟨token, third, head, tail⟩ := bind_ok tail
      obtain ⟨ended, stays⟩ := (expectKind_ok head).2 rfl
      obtain ⟨_, fourth, pushed, tail⟩ := bind_ok tail
      obtain ⟨rfl, rfl⟩ := pure_ok tail
      obtain ⟨-, rfl⟩ := EStateM.Result.ok.inj pushed
      have line := (sign.append expr).append ended
      have further := @ih { third with decorators := third.decorators ++ [decorator] }
        (line.grammar.trans standard) rest
      have same : third.decorators = state.decorators := (stays.trans waits).trans kept
      dsimp only at further
      rw [same] at further
      have pushed : State.Moves _ state
          { third with decorators := state.decorators ++ [decorator] } :=
        ⟨line.covers, line.grammar, line.failure, line.guarded⟩
      exact (pushed.append further).phrase (.stmt .decorators)
    · obtain ⟨rfl, rfl⟩ := pure_ok tail
      obtain ⟨-, rfl⟩ := pure_ok rest
      exact (State.Moves.refl _).phrase (.stmt .decoratorsEnd)

omit sound in
/-- A compound statement before which decorators may stand, if any do, is a definition or starts
with the word async. -/
theorem takes_of_decorated {rule : StatementRule} {token : Token} {decorators : List Expr}
    (starts : token.StartsCompound rule)
    (allowed : ¬(!decorators.isEmpty && !decorated.any token.isText) = true) :
    decorators = [] ∨ rule ∈ [StatementRule.functionDef, .classDef, .async] := by
  by_cases none_ : decorators = []
  · exact .inl none_
  have any : decorated.any token.isText = true := by simpa [none_] using allowed
  obtain ⟨word, member, written⟩ := List.any_eq_true.1 any
  obtain ⟨-, listed⟩ := Token.mem_words_of_statementRule starts
  rw [Token.isText, Bool.and_eq_true, beq_iff_eq] at written
  rw [written.2] at listed
  have takers : ∀ word ∈ decorated, word ∈ rule.words Grammar.standard.compound →
      rule ∈ [StatementRule.functionDef, .classDef, .async] := by
    cases rule <;> decide
  exact .inr (takers word member listed)

/-- The statement behind decorators. -/
theorem decorated_follows (decorators : List Expr) : (do
    let waiting ← hasDecorators
    match ← compoundRule? with
    | some rule =>
      let token ← current
      if waiting && !decorated.any token.isText then fail .unexpectedDecorator
      else return [← rule.parse scope]
    | none => if waiting then fail .unexpectedDecorator else scope.simpleLine
      : Parse (List Stmt)).Follows decorators [] (fun _ => True)
    [.phrase (.decorators [] decorators)] fun out => Production (.statement out) := by
  refine .hasDecorators (.compoundRule? fun found => ?_)
  cases found with
  | some rule =>
    refine .current fun token starts => ?_
    split
    · exact .fail
    · rename_i allowed
      have compound := rule.parse_compound sound (takes_of_decorated starts allowed)
      refine (compound.weaken ?_).bind_phrase fun out => .pure (.stmt .compound)
      rintro _ rfl
      exact starts
  | none =>
    cases decorators with
    | cons decorator decorators => exact .fail
    | nil => exact (simpleLine_makes sound).last fun out => .stmt .simple

/-- A statement line, with the decorators before it. -/
theorem statementLine_makes : scope.statementLine.Makes [] .statement := by
  intro state out behind standard waits read
  obtain ⟨⟨⟩, middle, head, tail⟩ := bind_ok read
  have moves := decorators_moves sound scope.inner.bound standard head
  rw [waits] at moves
  obtain ⟨symbols, production, moved, kept⟩ :=
    decorated_follows sound _ state middle out behind standard rfl moves trivial tail
  exact ⟨moved.phrase production, kept⟩

end Scope

/-- Statements of any depth follow the grammar. -/
theorem statementAt_makes (depth : Nat) :
    (statementAt depth).Makes [] .statement ∧ (lineAt depth).Makes [] .line := by
  induction depth with
  | zero => exact ⟨Follows.makes .failStatement, Follows.makes .failStatement⟩
  | succ depth ih =>
    have sound : Scope.Sound ⟨.upTo (depth + 1), statementAt depth, lineAt depth⟩ :=
      ⟨fun _ => Inner.sound_upTo _, ih.1, ih.2⟩
    exact ⟨Scope.statementLine_makes sound, Scope.simpleLine_makes sound⟩

/-- What reads expressions and statements up to a bound makes them. -/
theorem Scope.sound_upTo (bound : Nat) : (Scope.upTo bound).Sound :=
  ⟨fun _ => Inner.sound_upTo bound, (statementAt_makes bound).1, (statementAt_makes bound).2⟩

/-- The statements of a module are read up to an end mark. -/
theorem moduleBody_moves {scope : Scope} (sound : scope.Sound) {state behind : State}
    {out : List Stmt} (standard : state.grammar = .standard) (waits : state.decorators = [])
    (read : moduleBody scope state = .ok out behind) :
    State.Moves [.phrase (.body [] out)] state behind ∧ behind.current.kind = .endMarker := by
  have body : (moduleBody scope).Makes [] (.body []) := by
    refine Makes.loop .body (fun body => ?_) _ _
    refine .checkKind fun ended => ?_
    cases ended with
    | true => exact .pure (.stmt .bodyEnd)
    | false =>
      exact (Scope.statementLine_makes sound).bind fun more => .pure ⟨trivial, fun _ => .stmt .body⟩
  refine ⟨(body state out behind standard waits read).1, ?_⟩
  refine loop_last (fun _ behind => behind.current.kind = .endMarker)
    (fun body state out behind turn => ?_) read
  obtain ⟨ended, middle, looked, turn⟩ := bind_ok turn
  obtain ⟨rfl, rfl⟩ := EStateM.Result.ok.inj looked
  by_cases ended : state.current.kind = .endMarker
  · rw [if_pos (decide_eq_true ended)] at turn
    obtain ⟨-, rfl⟩ := pure_ok turn
    exact ended
  · rw [if_neg (by simp [ended])] at turn
    obtain ⟨more, last, -, turn⟩ := bind_ok turn
    obtain ⟨same, -⟩ := pure_ok turn
    contradiction

/-- A whole expression is read up to an end mark. -/
theorem wholeExpression_moves {inner : Inner} (sound : inner.Sound []) {state behind : State}
    {out : Expr} (standard : state.grammar = .standard) (waits : state.decorators = [])
    (read : wholeExpression inner state = .ok out behind) :
    ∃ between, State.Moves [.phrase (.root (.expression out))] state between ∧
      between.current.kind = .endMarker := by
  obtain ⟨value, first, head, tail⟩ := bind_ok read
  obtain ⟨expr, kept⟩ := Inner.expr_makes sound _ state value first standard waits head
  obtain ⟨⟨⟩, second, head, tail⟩ := bind_ok tail
  have breaks (bound : Nat) : (loop (fun _ => do
      if ← eatKind .newline then return .again () else return .done ()) bound () :
      Parse Unit).Makes [] fun _ => .lineEnds := by
    refine Makes.loop (fun _ _ => .lineEnds) (fun _ => ?_) bound ()
    refine .eatKind rfl ?_ (.pure (.stmt .lineEndsEnd))
    exact .pure ⟨trivial, fun _ => .stmt .lineEnds⟩
  obtain ⟨ends, -⟩ := breaks _ first () second (expr.grammar.trans standard) kept head
  obtain ⟨mark, third, last, tail⟩ := bind_ok tail
  obtain ⟨rfl, -⟩ := pure_ok tail
  exact ⟨second, (expr.append ends).phrase (.stmt .expression), (expectKind_ok last).1⟩

/-- All of a text follows the grammar up to an end mark, unless it is read as one statement
line. -/
theorem parseRoot_moves {mode : Mode} (whole : mode ≠ .single) {state behind : State} {root : Root}
    (standard : state.grammar = .standard) (waits : state.decorators = [])
    (read : parseRoot mode state = .ok root behind) :
    ∃ between, State.Moves [.phrase (.root root)] state between ∧
      between.current.kind = .endMarker := by
  cases mode with
  | exec =>
    obtain ⟨body, last, head, tail⟩ := bind_ok read
    obtain ⟨rfl, rfl⟩ := pure_ok tail
    obtain ⟨moves, ended⟩ := moduleBody_moves (Scope.sound_upTo state.bound) standard waits head
    exact ⟨_, moves.phrase (.stmt .module), ended⟩
  | eval =>
    obtain ⟨value, last, head, tail⟩ := bind_ok read
    obtain ⟨rfl, rfl⟩ := pure_ok tail
    exact wholeExpression_moves (Inner.sound_upTo state.bound) standard waits head
  | single => contradiction

end Offside
