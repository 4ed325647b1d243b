import Offside.Proofs.Grammar.SteadyExpressions

/-!
# Statements that bounds do not touch

The rules of statements are steady, if what reads the statements inside is. A statement starts with
a token that its rule takes, so that the blocks in it stand behind fewer tokens. By induction on the
depth statements of any depth are steady (`statementAt_steady`), and so is every turn of every loop
(`IsTurn.steady`).
-/
namespace Offside

open Parse

variable {guard : Option Fault} {room : Nat}

/-- What is steady behind one token more is so here, also if no token need be taken. -/
theorem Parse.Steady.inside {β : Type} {takes : β → Prop} {parser other : Parse β}
    (steady : parser.Steady guard (room + 1) takes other) :
    parser.Steady guard room (fun _ => False) other :=
  (steady.less (Nat.le_succ room)).weaken fun _ impossible => impossible.elim

namespace Inner

variable {inner other : Inner} (steady : inner.Steady guard room other)

/-- An annotated target. -/
theorem annotated_steady (target annotation : Expr) (value : Option Expr) (grouped : Bool) :
    (annotated target annotation value grouped).Steady guard room (fun _ => False)
      (annotated target annotation value grouped) := by
  cases target with
  | tuple | list => exact .fail
  | _ => exact .pure id

/-- A statement of one word. -/
theorem wordStatement_consumes (stmt : Stmt) :
    (wordStatement stmt).Consumes guard room (wordStatement stmt) :=
  .advance fun _ => .pure id

/-- The name behind the word as. -/
theorem asName_steady : asName.Steady guard room (fun _ => False) asName :=
  .eat (.expectName fun _ => .pure id) (.pure id)

/-- One turn of reading names between commas. -/
theorem nameTurn_steady (names : List String) :
    (nameTurn names).Steady guard room Turn.GoesOn (nameTurn names) :=
  .eat (.expectName fun _ => .pure id) (.pure id)

/-- One turn of reading the name of a module. -/
theorem partTurn_steady (name : String) :
    (partTurn name).Steady guard room Turn.GoesOn (partTurn name) :=
  .eat (.expectName fun _ => .pure id) (.pure id)

/-- One turn of reading the points before the name of a module. -/
theorem pointTurn_steady (level : Nat) :
    (pointTurn level).Steady guard room Turn.GoesOn (pointTurn level) :=
  .eat (.pure id) (.eat (.pure id) (.pure id))

/-- One turn of reading the names of an import. -/
theorem importedTurn_steady (parenthesized : Bool) (names : List Alias) :
    (importedTurn parenthesized names).Steady guard room Turn.GoesOn
      (importedTurn parenthesized names) := by
  refine .expectName fun name => asName_steady.bind fun bound => .eat ?_ (.pure id)
  exact .check fun ended => .ite (fun _ => .pure id) fun _ => .pure id

include steady

/-- One turn of reading an assignment. -/
theorem assignmentTurn_steady (found : List Expr × Expr) :
    (inner.assignmentTurn found).Steady guard room Turn.GoesOn (other.assignmentTurn found) :=
  .eat (.lift fun _ => (expr_steady steady _).bind_taken fun _ => .pure id) (.pure id)

/-- The targets and the value of an assignment. -/
theorem assignment_steady (first : Expr) :
    (inner.assignment first).Steady guard room (fun _ => False) (other.assignment first) := by
  rw [assignment_eq, assignment_eq]
  exact steady.loop (assignmentTurn_steady steady)

/-- The statement that starts with an expression and perhaps an annotation. -/
theorem statementFrom_steady (value : Expr) (declared : Option Expr) (grouped : Bool) :
    (inner.statementFrom value declared grouped).Steady guard room (fun _ => False)
      (other.statementFrom value declared grouped) := by
  refine .check fun assigns => .ite (fun _ => ?_) fun _ => ?_
  · refine (assignment_steady steady value).bind fun found => ?_
    cases declared with
    | none => exact .pure id
    | some annotation =>
      obtain ⟨targets, value⟩ := found
      cases targets with
      | nil => exact .fail
      | cons target more =>
        cases more with
        | nil => exact annotated_steady _ _ _ _
        | cons => exact .fail
  · intro state listed within
    refine .look (fun state => if state.current.kind = .operator then
      BinaryOperator.ofAugmented? state.current.value else none) rfl
      (by rw [State.guarded_current]) ?_
    cases declared with
    | some annotation =>
      have target : (do
          annotated (← lift (value.withContext .store)) annotation none grouped).Steady guard room
          (fun _ => False) (do
          annotated (← lift (value.withContext .store)) annotation none grouped) :=
        .lift fun _ => annotated_steady _ _ _ _
      exact target state listed within
    | none =>
      by_cases kind : state.current.kind = .operator
      · rw [if_pos kind]
        cases BinaryOperator.ofAugmented? state.current.value with
        | none => exact .pure listed id
        | some operator =>
          have assigned : (do
              let target ← lift (value.withContext .store)
              return .augAssign target operator (← inner.expr Power.any) : Parse Stmt).Steady
              guard room (fun _ => False) (do
              let target ← lift (value.withContext .store)
              return .augAssign target operator (← other.expr Power.any)) :=
            .lift fun _ => (expr_steady steady _).bind_taken fun _ => .pure id
          have front := State.ahead_of_kind (by rw [kind]; decide)
          exact .advance listed front fun between onward fewer => assigned between onward (by omega)
      · rw [if_neg kind]
        exact .pure listed id

/-- A statement that starts with an expression. -/
theorem expressionStatement_steady :
    inner.expressionStatement.Steady guard room (fun _ => True) other.expressionStatement := by
  refine .look (fun state => state.current.kind = .indent || state.current.kind = .dedent ||
    (state.current.isKeyword &&
      !((state.grammar.behavior? state.current).bind Behavior.prefixRule).isSome)) rfl
    (fun state _ => by rw [State.guarded_current]; rfl) fun ended => ?_
  refine .ite (fun _ => failStatement_steady) fun _ => ?_
  refine (optionalOperand_steady steady _).bind_some failStatement_steady fun first => ?_
  refine .finish fun value => .eat ?_ (statementFrom_steady steady value none _)
  exact (expr_steady steady _).bind_taken fun annotation =>
    statementFrom_steady steady value (some annotation) _

/-- The word return. -/
theorem returnStatement_consumes :
    inner.returnStatement.Consumes guard room other.returnStatement :=
  .advance fun _ => (optionalExpr_steady steady _).bind fun _ => .pure id

/-- The word raise. -/
theorem raiseStatement_consumes :
    inner.raiseStatement.Consumes guard room other.raiseStatement := by
  refine .advance fun _ => (optionalExpr_steady steady _).bind fun found => ?_
  cases found with
  | none => exact .pure id
  | some exception =>
    exact .eat ((expr_steady steady _).bind_taken fun cause => .pure id) (.pure id)

/-- The word assert. -/
theorem assertStatement_consumes :
    inner.assertStatement.Consumes guard room other.assertStatement := by
  refine .advance fun _ => (expr_steady steady _).bind_taken fun test => ?_
  exact .eat ((expr_steady steady _).bind_taken fun message => .pure id) (.pure id)

/-- One turn of reading the targets of a deletion. -/
theorem deletionTurn_steady (targets : List Expr) :
    (inner.deletionTurn targets).Steady guard room Turn.GoesOn (other.deletionTurn targets) :=
  (optionalTarget_steady steady _ _).bind_some (.pure id) fun _ => .eat (.pure id) (.pure id)

/-- The targets of a deletion. -/
theorem deleteTargets_steady :
    inner.deleteTargets.Steady guard room (fun _ => False) other.deleteTargets := by
  rw [deleteTargets_eq, deleteTargets_eq]
  exact steady.loop (deletionTurn_steady steady)

/-- The word del. -/
theorem deleteStatement_consumes :
    inner.deleteStatement.Consumes guard room other.deleteStatement :=
  .advance fun _ => (deleteTargets_steady steady).bind fun _ =>
    .ite (fun _ => .current fun _ => .fail) fun _ => .pure id

/-- Names between commas. -/
theorem nameList_consumes : inner.nameList.Consumes guard room other.nameList := by
  rw [nameList_eq, nameList_eq]
  exact .advance fun _ => .expectName fun first => steady.loop nameTurn_steady

/-- The name of a module. -/
theorem dottedName_steady :
    inner.dottedName.Steady guard room (fun _ => True) other.dottedName := by
  rw [dottedName_eq, dottedName_eq]
  exact .expectName fun first => steady.loop partTurn_steady

/-- One turn of reading the modules of an import. -/
theorem importTurn_steady (names : List Alias) :
    (inner.importTurn names).Steady guard room Turn.GoesOn (other.importTurn names) := by
  refine (dottedName_steady steady).bind_taken fun name => asName_steady.bind fun bound => ?_
  exact .eat (.pure id) (.pure id)

/-- The import of modules. -/
theorem importStatement_consumes :
    inner.importStatement.Consumes guard room other.importStatement := by
  rw [importStatement_eq, importStatement_eq]
  exact .advance fun _ => (steady.loop (importTurn_steady steady)).bind fun names => .pure id

/-- The points before the name of a module. -/
theorem leadingPoints_steady :
    inner.leadingPoints.Steady guard room (fun _ => False) other.leadingPoints := by
  rw [leadingPoints_eq, leadingPoints_eq]
  exact steady.loop pointTurn_steady

/-- The names of an import. -/
theorem importedNames_steady (parenthesized : Bool) :
    (inner.importedNames parenthesized).Steady guard room (fun _ => False)
      (other.importedNames parenthesized) := by
  rw [importedNames_eq, importedNames_eq]
  exact steady.loop (importedTurn_steady parenthesized)

/-- What is imported from a module. -/
theorem importedList_steady :
    inner.importedList.Steady guard room (fun _ => False) other.importedList := by
  refine .eat (.pure id) (.eat ?_ (importedNames_steady steady false))
  exact (importedNames_steady steady true).bind fun names => .expect fun _ => .pure id

/-- The import of names from a module. -/
theorem importFromStatement_consumes :
    inner.importFromStatement.Consumes guard room other.importFromStatement := by
  have rest (level : Nat) (name : Option String) : (do
      let _ ← expect "import"
      return .importFrom name (← inner.importedList) level : Parse Stmt).Steady guard room
      (fun _ => False) (do
      let _ ← expect "import"
      return .importFrom name (← other.importedList) level) :=
    .expect fun _ => (importedList_steady steady).bind fun names => .pure id
  refine .advance fun _ => (leadingPoints_steady steady).bind fun level => .check fun bare => ?_
  refine .ite (fun _ => rest level none) fun _ => ?_
  exact (dottedName_steady steady).bind_taken fun name => rest level (some name)

end Inner

/-- What reads statements is steady. Expressions may start with the token in front, statements
inside stand behind it. -/
structure Scope.Steady (guard : Option Fault) (room : Nat) (scope other : Scope) : Prop where
  /-- Expressions are steady. -/
  inner : scope.inner.Steady guard (room + 1) other.inner
  /-- Statements take a token. -/
  statement : scope.statement.Steady guard room (fun _ => True) other.statement
  /-- Lines of simple statements take a token. -/
  line : scope.line.Steady guard room (fun _ => True) other.line

namespace Scope

variable {scope other : Scope} (steady : scope.Steady guard room other)
include steady

/-- What reads expressions is steady behind the token in front. -/
theorem Steady.behind : scope.inner.Steady guard room other.inner :=
  steady.inner.less (Nat.le_succ room)

/-- One turn of reading a block. -/
theorem blockTurn_steady (body : List Stmt) :
    (scope.blockTurn body).Steady guard room Turn.GoesOn (other.blockTurn body) :=
  .eatKind (by decide) (.pure id) (steady.statement.bind_taken fun _ => .pure id)

/-- The block behind a colon. -/
theorem suite_steady : scope.suite.Steady guard room (fun _ => False) other.suite := by
  have block : scope.indented.Steady guard room (fun _ => False) other.indented := by
    rw [indented_eq, indented_eq]
    exact .expectKind (by decide) fun _ => steady.behind.loop (blockTurn_steady steady)
  exact .eatKind (by decide) block (steady.line.weaken fun _ _ => trivial)

/-- A colon and the block behind it. -/
theorem colonSuite_steady :
    scope.colonSuite.Steady guard room (fun _ => False) other.colonSuite :=
  .expect fun _ => suite_steady steady

/-- The block behind a word. -/
theorem optionalSuite_steady (word : String) :
    (scope.optionalSuite word).Steady guard room (fun _ => False) (other.optionalSuite word) :=
  .eat (colonSuite_steady steady) (.pure id)

/-- The definition of a function, from the word def on. -/
theorem functionDef_steady (isAsync : Bool) (line : Nat) :
    (scope.functionDef isAsync line).Steady guard (room + 1) (fun _ => True)
      (other.functionDef isAsync line) := by
  have rest (name : String) (parameters : Arguments) (returns : Option Expr) : (do
      let _ ← expect ":"
      let decorators ← takeDecorators
      let body ← scope.suite
      return .functionDef isAsync name parameters body decorators returns line :
        Parse Stmt).Steady guard room (fun _ => False) (do
      let _ ← expect ":"
      let decorators ← takeDecorators
      let body ← other.suite
      return .functionDef isAsync name parameters body decorators returns line) :=
    .expect fun _ => takeDecorators_steady.bind fun decorators =>
      (suite_steady steady).bind fun body => .pure id
  refine expect_steady.bind_less fun _ => .expectName fun name => .expect fun _ => ?_
  refine (Inner.parameters_steady steady.behind .definition).bind fun parameters => ?_
  refine .expect fun _ => .eat ?_ (rest name parameters none)
  exact (Inner.expr_steady steady.behind _).bind_taken fun returns =>
    rest name parameters (some returns)

/-- The definition of a class. -/
theorem classDef_consumes : scope.classDef.Consumes guard room other.classDef := by
  have rest (word : Token) (name : String) (found : CallArguments) : (do
      let _ ← expect ":"
      let decorators ← takeDecorators
      let body ← scope.suite
      return .classDef name found.positional found.keywords body decorators word.line :
        Parse Stmt).Steady guard room (fun _ => False) (do
      let _ ← expect ":"
      let decorators ← takeDecorators
      let body ← other.suite
      return .classDef name found.positional found.keywords body decorators word.line) :=
    .expect fun _ => takeDecorators_steady.bind fun decorators =>
      (suite_steady steady).bind fun body => .pure id
  refine .advance fun word => .expectName fun name => .eat ?_ (rest word name _)
  exact (Inner.callArguments_steady steady.behind).bind fun found => rest word name found

/-- A loop over a sequence, from the word for on. -/
theorem forLoop_steady (isAsync : Bool) :
    (scope.forLoop isAsync).Steady guard (room + 1) (fun _ => True) (other.forLoop isAsync) := by
  refine expect_steady.bind_less fun _ => (Inner.forIn_steady steady.behind _).bind fun found => ?_
  refine (colonSuite_steady steady).bind fun body => ?_
  exact (optionalSuite_steady steady "else").bind fun orelse => .pure id

/-- A context. -/
theorem withItem_steady : scope.withItem.Steady guard room (fun _ => True) other.withItem := by
  refine (Inner.expr_steady steady.behind _).bind_taken fun context => .eat ?_ (.pure id)
  refine (Inner.optionalTarget_steady steady.behind _ _).bind fun found => ?_
  cases found with
  | some target => exact .pure id
  | none => exact .current fun _ => .fail

/-- One turn of reading contexts. -/
theorem contextTurn_steady (items : List WithItem) :
    (scope.contextTurn items).Steady guard room Turn.GoesOn (other.contextTurn items) :=
  (withItem_steady steady).bind_taken fun _ => .eat (.pure id) (.pure id)

/-- Contexts and the block inside them, from the word with on. -/
theorem withItems_steady (isAsync : Bool) :
    (scope.withItems isAsync).Steady guard (room + 1) (fun _ => True)
      (other.withItems isAsync) := by
  rw [withItems_eq, withItems_eq]
  refine expect_steady.bind_less fun _ => ?_
  refine (steady.behind.loop (contextTurn_steady steady)).bind fun items => ?_
  exact (colonSuite_steady steady).bind fun body => .pure id

/-- The word async, and the statement behind it. -/
theorem async_consumes : scope.async.Consumes guard room other.async := by
  refine .advance fun word => .check fun defines => ?_
  refine .ite (fun _ => (functionDef_steady steady true word.line).inside) fun _ => ?_
  refine .hasDecorators fun waiting => .ite (fun _ => .fail) fun _ => .check fun loops => ?_
  refine .ite (fun _ => (forLoop_steady steady true).inside) fun _ => .check fun opens => ?_
  exact .ite (fun _ => (withItems_steady steady true).inside) fun _ => .fail

/-- A condition and its block. -/
theorem condition_consumes : scope.condition.Consumes guard room other.condition := by
  refine .advance fun _ => (Inner.expr_steady steady.behind _).bind_taken fun test => ?_
  exact (colonSuite_steady steady).bind fun body => .pure id

/-- One turn of reading the further conditions of a choice. -/
theorem branchTurn_steady (others : List (Expr × List Stmt)) :
    (scope.branchTurn others).Steady guard room Turn.GoesOn (other.branchTurn others) := by
  intro state listed within
  refine .look (fun state => state.current.isText "elif") rfl State.guarded_isText ?_
  by_cases further : state.current.isText "elif" = true
  · rw [if_pos further, if_pos further]
    have front := State.ahead_of_isText further
    have taken := condition_consumes steady state listed front (Nat.lt_succ_of_lt within)
    exact taken.bind_taken fun _ _ onward _ => .pure onward id
  · rw [if_neg further, if_neg further]
    exact .pure listed id

/-- A choice. -/
theorem ifElse_consumes : scope.ifElse.Consumes guard room other.ifElse := by
  rw [ifElse_eq, ifElse_eq]
  refine (condition_consumes steady).bind fun first => ?_
  refine (steady.behind.loop (branchTurn_steady steady)).bind fun others => ?_
  exact (optionalSuite_steady steady "else").bind fun last => .pure id

/-- A loop under a condition. -/
theorem whileLoop_consumes : scope.whileLoop.Consumes guard room other.whileLoop := by
  refine (condition_consumes steady).bind fun first => ?_
  exact (optionalSuite_steady steady "else").bind fun orelse => .pure id

/-- A handler. -/
theorem handler_steady : scope.handler.Steady guard room (fun _ => False) other.handler := by
  refine .check fun bare => .ite (fun _ => ?_) fun _ => ?_
  · exact (colonSuite_steady steady).bind fun body => .pure id
  · refine (Inner.expr_steady steady.behind _).bind_taken fun type => ?_
    refine Inner.asName_steady.bind fun name => ?_
    exact (colonSuite_steady steady).bind fun body => .pure id

/-- One turn of reading handlers. -/
theorem handlerTurn_steady (handlers : List ExceptHandler) :
    (scope.handlerTurn handlers).Steady guard room Turn.GoesOn (other.handlerTurn handlers) :=
  .eat ((handler_steady steady).bind fun _ => .pure id) (.pure id)

/-- Handled exceptions. -/
theorem tryExcept_consumes : scope.tryExcept.Consumes guard room other.tryExcept := by
  rw [tryExcept_eq, tryExcept_eq]
  refine .advance fun _ => (colonSuite_steady steady).bind fun body => ?_
  refine (steady.behind.loop (handlerTurn_steady steady)).bind fun handlers => ?_
  refine (optionalSuite_steady steady "else").bind fun orelse => .eat ?_ ?_
  · exact (colonSuite_steady steady).bind fun final => .pure id
  · cases handlers with
    | nil => exact .fail
    | cons => exact .pure id

end Scope

/-- The rule of a statement takes the token in front. -/
theorem StatementRule.parse_consumes {scope other : Scope} (steady : scope.Steady guard room other)
    (rule : StatementRule) : (rule.parse scope).Consumes guard room (rule.parse other) := by
  cases rule with
  | functionDef =>
    exact .current fun token => (Scope.functionDef_steady steady false token.line).consumes
  | async => exact Scope.async_consumes steady
  | classDef => exact Scope.classDef_consumes steady
  | ifElse => exact Scope.ifElse_consumes steady
  | forLoop => exact (Scope.forLoop_steady steady false).consumes
  | whileLoop => exact Scope.whileLoop_consumes steady
  | withItems => exact (Scope.withItems_steady steady false).consumes
  | tryExcept => exact Scope.tryExcept_consumes steady
  | importModules => exact Inner.importStatement_consumes steady.behind
  | importFrom => exact Inner.importFromStatement_consumes steady.behind
  | breakLoop | continueLoop | pass => exact Inner.wordStatement_consumes _
  | returnValue => exact Inner.returnStatement_consumes steady.behind
  | raise => exact Inner.raiseStatement_consumes steady.behind
  | assert => exact Inner.assertStatement_consumes steady.behind
  | delete => exact Inner.deleteStatement_consumes steady.behind
  | globals | nonlocals => exact (Inner.nameList_consumes steady.behind).bind fun _ => .pure id

namespace Scope

variable {scope other : Scope} (steady : scope.Steady guard room other)
include steady

/-- A simple statement. -/
theorem small_steady : scope.small.Steady guard (room + 1) (fun _ => True) other.small := by
  intro state listed within
  refine .look (fun state => Grammar.statementRule? state.grammar.simple state.current) rfl
    (by rw [State.guarded_current]; rfl) ?_
  cases known : Grammar.statementRule? state.grammar.simple state.current with
  | none => exact Inner.expressionStatement_steady steady.inner state listed within
  | some rule =>
    have front := State.ahead_of_isText (Token.mem_words_of_statementRule known).1
    exact rule.parse_consumes steady state listed front within

/-- One turn of reading a line of simple statements. -/
theorem smallTurn_steady (body : List Stmt) :
    (scope.smallTurn body).Steady guard (room + 1) Turn.GoesOn (other.smallTurn body) := by
  refine .eat (.checkKind fun breaks => .checkKind fun ends => ?_) (.pure id)
  exact .ite (fun _ => .pure id) fun _ => (small_steady steady).bind_taken fun _ => .pure id

/-- A line of simple statements. -/
theorem simpleLine_steady :
    scope.simpleLine.Steady guard (room + 1) (fun _ => True) other.simpleLine := by
  rw [simpleLine_eq, simpleLine_eq]
  refine (small_steady steady).bind_taken fun first => ?_
  refine (steady.inner.loop (smallTurn_steady steady)).bind fun body => ?_
  exact .expectKind (by decide) fun _ => .pure id

/-- One line of a decorator. -/
theorem nextDecorator_steady :
    scope.nextDecorator.Steady guard (room + 1) Turn.GoesOn other.nextDecorator := by
  refine .eat ((Inner.expr_steady steady.inner _).bind_taken fun decorator => ?_) (.pure id)
  exact .expectKind (by decide) fun _ => pushDecorator_steady.bind fun _ => .pure id

/-- Decorators. -/
theorem decorators_steady :
    scope.decorators.Steady guard (room + 1) (fun _ => False) other.decorators := by
  rw [decorators_eq, decorators_eq]
  exact steady.inner.loop fun _ => nextDecorator_steady steady

/-- A statement line, with the decorators before it. -/
theorem statementLine_steady :
    scope.statementLine.Steady guard (room + 1) (fun _ => True) other.statementLine := by
  refine (decorators_steady steady).bind fun _ => .hasDecorators fun waiting => ?_
  intro state listed within
  refine .look (fun state => Grammar.statementRule? state.grammar.compound state.current) rfl
    (by rw [State.guarded_current]; rfl) ?_
  cases known : Grammar.statementRule? state.grammar.compound state.current with
  | none =>
    have simple : (if waiting then fail .unexpectedDecorator else scope.simpleLine).Steady guard
        (room + 1) (fun _ => True)
        (if waiting then fail .unexpectedDecorator else other.simpleLine) :=
      .ite (fun _ => .fail) fun _ => simpleLine_steady steady
    exact simple state listed within
  | some rule =>
    have front := State.ahead_of_isText (Token.mem_words_of_statementRule known).1
    have taken := rule.parse_consumes steady state listed front within
    refine .look State.current rfl State.guarded_current ?_
    by_cases misplaced : (waiting && !decorated.any state.current.isText) = true
    · rw [if_pos misplaced, if_pos misplaced]
      exact Steady.fail state listed within
    · rw [if_neg misplaced, if_neg misplaced]
      exact taken.bind_taken fun _ _ onward _ => .pure onward id

/-- One turn of reading a module. -/
theorem moduleTurn_steady (body : List Stmt) :
    (moduleTurn scope body).Steady guard (room + 1) Turn.GoesOn (moduleTurn other body) := by
  refine .checkKind fun ended => .ite (fun _ => .pure id) fun _ => ?_
  exact (statementLine_steady steady).bind_taken fun line => .pure id

end Scope

/-- One turn of passing over line ends. -/
theorem lineEndTurn_steady (value : Unit) :
    (lineEndTurn value).Steady guard room Turn.GoesOn (lineEndTurn value) :=
  .eatKind (by decide) (.pure id) (.pure id)

/-- Statements of any depth are steady, if the depths are as great as the room. -/
theorem statementAt_steady {depth otherDepth : Nat} (enough : room ≤ depth)
    (otherEnough : room ≤ otherDepth) :
    (statementAt depth).Steady guard room (fun _ => True) (statementAt otherDepth) ∧
      (lineAt depth).Steady guard room (fun _ => True) (lineAt otherDepth) := by
  induction room generalizing depth otherDepth with
  | zero =>
    exact ⟨fun _ _ within => absurd within (Nat.not_lt_zero _),
      fun _ _ within => absurd within (Nat.not_lt_zero _)⟩
  | succ room ih =>
    obtain ⟨depth, rfl⟩ : ∃ less, depth = less + 1 := ⟨depth - 1, by omega⟩
    obtain ⟨otherDepth, rfl⟩ : ∃ less, otherDepth = less + 1 := ⟨otherDepth - 1, by omega⟩
    have deep := ih (Nat.le_of_succ_le_succ enough) (Nat.le_of_succ_le_succ otherEnough)
    have inside : Scope.Steady guard room ⟨.upTo (depth + 1), statementAt depth, lineAt depth⟩
        ⟨.upTo (otherDepth + 1), statementAt otherDepth, lineAt otherDepth⟩ :=
      ⟨Inner.steady_upTo enough otherEnough, deep.1, deep.2⟩
    exact ⟨Scope.statementLine_steady inside, Scope.simpleLine_steady inside⟩

/-- Every turn of every loop is steady: one that goes on takes a token. -/
theorem IsTurn.steady {α β : Type} {turn : Scope → α → Parse (Turn α β)} (isTurn : IsTurn turn)
    {scope other : Scope} (steady : scope.Steady guard room other) (value : α) :
    (turn scope value).Steady guard room Turn.GoesOn (turn other value) := by
  have fewer := Nat.le_succ room
  have behind := steady.behind
  cases isTurn with
  | moduleLine => exact (Scope.moduleTurn_steady steady value).less fewer
  | lineEnd => exact lineEndTurn_steady value
  | block => exact Scope.blockTurn_steady steady value
  | small => exact (Scope.smallTurn_steady steady value).less fewer
  | decorator => exact (Scope.nextDecorator_steady steady).less fewer
  | context => exact Scope.contextTurn_steady steady value
  | branch => exact Scope.branchTurn_steady steady value
  | handler => exact Scope.handlerTurn_steady steady value
  | assignment => exact Inner.assignmentTurn_steady behind value
  | deletion => exact Inner.deletionTurn_steady behind value
  | name => exact Inner.nameTurn_steady value
  | part => exact Inner.partTurn_steady value
  | importModule => exact Inner.importTurn_steady behind value
  | point => exact Inner.pointTurn_steady value
  | imported parenthesized => exact Inner.importedTurn_steady parenthesized value
  | climb power => exact (Inner.climb_steady behind power value).less fewer
  | tuple power => exact Inner.tupleTurn_steady behind power value
  | list => exact Inner.listTurn_steady behind value
  | brace => exact Inner.braceTurn_steady behind value
  | argument => exact Inner.argumentTurn_steady behind value
  | parameter signature => exact Inner.parametersTurn_steady behind signature value
  | dimension => exact Inner.dimensionTurn_steady behind value
  | target => exact Inner.targetTurn_steady behind value
  | condition => exact Inner.conditionTurn_steady behind value

end Offside
