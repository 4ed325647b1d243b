import Offside.Proofs.Grammar.MirrorExpressions
import Offside.Proofs.Grammar.Statements
import Offside.Proofs.Tree.Lines

/-!
# Statements side by side

The rules of statements give the same on both sides up to the lines of definitions, if what reads
the statements inside does. A statement reads to the end of a line and may stop at the seam, where
it looks for no more than the words that would go on with it (`Parse.Closing`). By induction on
the depth this holds of statements of any depth (`Scope.mirrors_upTo`).
-/
namespace Offside

open Parse

/-- The statement on the other side is the same with its lines moved. -/
def Frame.Moved (frame : Frame) (stmt other : Stmt) : Prop :=
  other = stmt.moveLines frame.move

/-- The statements on the other side are the same with their lines moved. -/
def Frame.MovedBody (frame : Frame) (body other : List Stmt) : Prop :=
  other = moveBody frame.move body

namespace Parse

variable {α β γ δ : Type} {frame : Frame}

/-- From a state, a parser reads to the end of a line and is mirrored, up to the seam. -/
structure ClosingAt (frame : Frame) (related : α → β → Prop) (state : State) (parser : Parse α)
    (other : Parse β) : Prop where
  /-- The parser is mirrored. -/
  mirrors : MirrorsAt frame true related state parser other
  /-- The parser reads to the end of a line. -/
  closes {behind : State} {out : α} (read : parser state = .ok out behind) : state.Closes behind

/-- A parser reads to the end of a line and is mirrored, up to the seam. -/
def Closing (frame : Frame) (related : α → β → Prop) (parser : Parse α) (other : Parse β) : Prop :=
  ∀ state : State, state.grammar = .standard → ClosingAt frame related state parser other

/-- A parser behind the end of a line reads to the end of a line, or nothing, and is mirrored, up to
the seam. -/
structure Trailing (frame : Frame) (related : α → β → Prop) (parser : Parse α) (other : Parse β) :
    Prop where
  /-- The parser is mirrored. -/
  mirrors : parser.Mirrors frame true related other
  /-- Behind the end of a line the parser stops behind the end of a line. -/
  keeps {start state behind : State} {out : α} (standard : state.grammar = .standard)
    (read : parser state = .ok out behind) (closed : start.Closes state) : start.Closes behind

variable {related : α → β → Prop} {result : γ → δ → Prop}

/-- A parser that reads to the end of a line is mirrored. -/
theorem Closing.mirrors {parser : Parse γ} {other : Parse δ}
    (closing : parser.Closing frame result other) : parser.Mirrors frame true result other :=
  fun state standard => (closing state standard).mirrors

/-- A parser that reads to the end of a line does so behind another line. -/
theorem Closing.trailing {parser : Parse γ} {other : Parse δ}
    (closing : parser.Closing frame result other) : parser.Trailing frame result other := by
  refine ⟨closing.mirrors, fun {_ state _ _} standard read closed => ?_⟩
  exact ((closing state standard).closes read).of_suffix closed.suffix

/-- A parser that fails reads whatever is asked for. -/
theorem Closing.of_fails {parser : Parse γ} {other : Parse δ} (fails : parser.Fails) :
    parser.Closing frame result other := by
  refine fun state standard => ⟨Mirrors.of_fails fails state standard, fun read => ?_⟩
  obtain ⟨cause, failed⟩ := fails state
  rw [failed] at read
  contradiction

/-- A parser inside a line, and one that reads the line to its end. -/
theorem MirrorsAt.bind_closing {state : State} {parser : Parse α} {other : Parse β}
    {next : α → Parse γ} {otherNext : β → Parse δ} (standard : state.grammar = .standard)
    (first : MirrorsAt frame false related state parser other)
    (later : ∀ value found, related value found →
      (next value).Closing frame result (otherNext found)) :
    ClosingAt frame result state (parser >>= next) (other >>= otherNext) := by
  constructor
  · refine .bind_of standard first (fun value found fits => (later value found fits).mirrors) ?_
    intro value found between out behind fits onward _ read leaves
    exact leaves.of_closes ((later value found fits between onward).closes read)
  · intro behind out read
    obtain ⟨value, between, head, tail⟩ := bind_ok read
    obtain ⟨passes, found, fits⟩ := first.passes head
    have onward := passes.grammar.trans standard
    exact ((later value found fits between onward).closes tail).of_suffix passes.suffix

/-- A parser inside a line, and one that reads the line to its end. -/
theorem Mirrors.bind_closing {parser : Parse α} {other : Parse β} {next : α → Parse γ}
    {otherNext : β → Parse δ} (first : parser.Mirrors frame false related other)
    (later : ∀ value found, related value found →
      (next value).Closing frame result (otherNext found)) :
    (parser >>= next).Closing frame result (other >>= otherNext) :=
  fun state standard => (first state standard).bind_closing standard later

/-- A parser inside a line that gives the same on both sides, and one that reads the line to its
end. -/
theorem Mirrors.then_closing {parser other : Parse α} {next : α → Parse γ} {otherNext : α → Parse δ}
    (first : parser.Mirrors frame false Eq other)
    (later : ∀ value, (next value).Closing frame result (otherNext value)) :
    (parser >>= next).Closing frame result (other >>= otherNext) := by
  refine first.bind_closing ?_
  rintro value _ rfl
  exact later value

/-- A look at the state before a line that is read to its end. -/
theorem ClosingAt.peek {state : State} (view : State → α) (otherView : State → β)
    {next : α → Parse γ} {otherNext : β → Parse δ} (total : ∃ found, related (view state) found)
    (later : ∀ found, related (view state) found →
      ClosingAt frame result state (next (view state)) (otherNext found))
    (same : ∀ start, frame.Beside state start → frame.Leaves false state →
      related (view state) (otherView start)) :
    ClosingAt frame result state ((fun state => .ok (view state) state : Parse α) >>= next)
      ((fun state => .ok (otherView state) state : Parse β) >>= otherNext) := by
  obtain ⟨witness, fits⟩ := total
  refine ⟨.peek false view otherView ⟨witness, fits⟩ (fun found fits => (later found fits).mirrors)
    same fun _ _ _ read leaves => ?_, fun read => (later witness fits).closes read⟩
  exact leaves.of_closes ((later witness fits).closes read)

/-- A look at the token in front before a line that is read to its end. -/
theorem ClosingAt.current {state : State} {next : Token → Parse γ} {otherNext : Token → Parse δ}
    (later : ∀ found, state.current.Alike frame.move found →
      ClosingAt frame result state (next state.current) (otherNext found)) :
    ClosingAt frame result state (Parse.current >>= next) (Parse.current >>= otherNext) :=
  .peek State.current State.current ⟨_, state.current.alike_move _⟩ later
    fun _ beside leaves => beside.current leaves

/-- A line, and a parser behind it. -/
theorem ClosingAt.bind {state : State} {parser : Parse α} {other : Parse β} {next : α → Parse γ}
    {otherNext : β → Parse δ} (standard : state.grammar = .standard)
    (first : ClosingAt frame related state parser other)
    (later : ∀ value found, related value found →
      (next value).Trailing frame result (otherNext found)) :
    ClosingAt frame result state (parser >>= next) (other >>= otherNext) := by
  refine ⟨.bind standard first.mirrors fun value found fits => (later value found fits).mirrors, ?_⟩
  intro behind out read
  obtain ⟨value, between, head, tail⟩ := bind_ok read
  obtain ⟨passes, found, fits⟩ := first.mirrors.passes head
  exact (later value found fits).keeps (passes.grammar.trans standard) tail (first.closes head)

/-- A line, and a parser behind it. -/
theorem Closing.bind {parser : Parse α} {other : Parse β} {next : α → Parse γ}
    {otherNext : β → Parse δ} (first : parser.Closing frame related other)
    (later : ∀ value found, related value found →
      (next value).Trailing frame result (otherNext found)) :
    (parser >>= next).Closing frame result (other >>= otherNext) :=
  fun state standard => (first state standard).bind standard later

/-- Two parsers behind the end of a line. -/
theorem Trailing.bind {parser : Parse α} {other : Parse β} {next : α → Parse γ}
    {otherNext : β → Parse δ} (first : parser.Trailing frame related other)
    (later : ∀ value found, related value found →
      (next value).Trailing frame result (otherNext found)) :
    (parser >>= next).Trailing frame result (other >>= otherNext) := by
  refine ⟨first.mirrors.bind fun value found fits => (later value found fits).mirrors, ?_⟩
  intro start state behind out standard read closed
  obtain ⟨value, between, head, tail⟩ := bind_ok read
  obtain ⟨passes, found, fits⟩ := (first.mirrors state standard).passes head
  exact (later value found fits).keeps (passes.grammar.trans standard) tail
    (first.keeps standard head closed)

/-- A value without reading. -/
theorem Trailing.pure {value : γ} {other : δ} (fits : result value other) :
    (Pure.pure value : Parse γ).Trailing frame result (Pure.pure other) := by
  refine ⟨.pure fits, fun _ read closed => ?_⟩
  obtain ⟨-, rfl⟩ := pure_ok read
  exact closed

/-- The other side of a choice. -/
theorem Closing.ite {condition : Prop} [Decidable condition] {first second : Parse γ}
    {otherFirst otherSecond : Parse δ}
    (holds : condition → first.Closing frame result otherFirst)
    (fails : ¬condition → second.Closing frame result otherSecond) :
    (if condition then first else second).Closing frame result
      (if condition then otherFirst else otherSecond) := by
  by_cases known : condition
  · rw [if_pos known, if_pos known]
    exact holds known
  · rw [if_neg known, if_neg known]
    exact fails known

/-- A look for a word that goes on with a compound statement. -/
theorem Trailing.check_word {text : String} (word : text ∈ continuing) {next : Bool → Parse γ}
    {otherNext : Bool → Parse δ}
    (later : ∀ found, (next found).Trailing frame result (otherNext found)) :
    (Parse.check text >>= next).Trailing frame result (Parse.check text >>= otherNext) :=
  ⟨.check_word word fun found => (later found).mirrors, fun standard read closed =>
    (later _).keeps standard read closed⟩

/-- A word that goes on with a compound statement is taken if it is in front, with what goes on
behind it. -/
theorem Trailing.eat_word {text : String} (word : text ∈ continuing) {next : Bool → Parse γ}
    {otherNext : Bool → Parse δ} (taken : (next true).Closing frame result (otherNext true))
    (other : (next false).Trailing frame result (otherNext false)) :
    (Parse.eat text >>= next).Trailing frame result (Parse.eat text >>= otherNext) := by
  rw [eat_bind, eat_bind]
  refine .check_word word fun found => ?_
  cases found with
  | false => exact other
  | true =>
    have behind : (Parse.advance >>= fun _ => next true).Closing frame result
        (Parse.advance >>= fun _ => otherNext true) :=
      advance_mirrors.bind_closing fun _ _ _ => taken
    exact behind.trailing

/-- A mark that closes a block is taken if it is in front. -/
theorem Trailing.eat_dedent {next : Bool → Parse γ} {otherNext : Bool → Parse δ}
    (taken : (next true).Trailing frame result (otherNext true))
    (other : (next false).Trailing frame result (otherNext false)) :
    (Parse.eatKind .dedent >>= next).Trailing frame result
      (Parse.eatKind .dedent >>= otherNext) := by
  refine ⟨.eat_dedent taken.mirrors other.mirrors, fun {_ state _ _} standard read closed => ?_⟩
  rw [eatKind_bind (by decide)] at read
  obtain ⟨found, same, looked, read⟩ := bind_ok read
  obtain ⟨rfl, rfl⟩ := EStateM.Result.ok.inj looked
  by_cases closes : state.current.kind = .dedent
  · rw [if_pos (decide_eq_true closes)] at read
    obtain ⟨token, between, head, tail⟩ := bind_ok read
    obtain ⟨rfl, front, grammar⟩ := advance_takes head (by simp [closes])
    exact taken.keeps (grammar.trans standard) tail (closed.dedent front closes)
  · rw [if_neg (by simp [closes])] at read
    exact other.keeps standard read closed

/-- A loop behind the end of a line, which gives what its turns have gathered. -/
theorem Trailing.loop (related : α → β → Prop) {turn : α → Parse (Turn α α)}
    {otherTurn : β → Parse (Turn β β)}
    (turns : ∀ found other, related found other →
      (turn found).Trailing frame (Turn.Related related related) (otherTurn other))
    {bound otherBound : Nat} (within : bound ≤ otherBound) {found : α} {other : β}
    (start : related found other) :
    (loop turn bound found).Trailing frame related (loop otherTurn otherBound other) := by
  induction bound generalizing otherBound found other with
  | zero => exact (Closing.of_fails failExpression_fails).trailing
  | succ bound ih =>
    obtain ⟨further, rfl⟩ := Nat.exists_eq_add_of_le' (Nat.one_le_of_lt within)
    refine (turns found other start).bind ?_
    rintro _ _ (fits | fits)
    · exact ih (Nat.le_of_succ_le_succ within) fits
    · exact .pure fits

/-- The end of a line, or a mark that opens a block, is required. -/
theorem expectKind_closing {kind : Kind} (ends : kind = .newline ∨ kind = .indent) :
    (expectKind kind).Closing frame (Token.Alike frame.move) (expectKind kind) := by
  refine fun state standard => ⟨expectKind_mirrors state standard, fun read => ?_⟩
  obtain ⟨found, same, looked, read⟩ := bind_ok read
  obtain ⟨rfl, rfl⟩ := EStateM.Result.ok.inj looked
  by_cases known : state.current.kind = kind
  · rw [if_pos (decide_eq_true known)] at read
    have more : state.current.kind ≠ .endMarker := by
      rw [known]
      rintro rfl
      simp at ends
    obtain ⟨rfl, front, -⟩ := advance_takes read more
    exact ⟨[], _, [], front, known ▸ ends, fun _ member => absurd member List.not_mem_nil⟩
  · rw [if_neg (by simp [known])] at read
    obtain ⟨cause, failed⟩ := failExpected_fails state
    rw [failed] at read
    contradiction

end Parse

variable {frame : Frame}

/-- Statements in order are moved in order. -/
theorem Frame.MovedBody.append {first second other further : List Stmt}
    (front : frame.MovedBody first other) (back : frame.MovedBody second further) :
    frame.MovedBody (first ++ second) (other ++ further) := by
  rw [Frame.MovedBody, moveBody_append, ← front, ← back]

/-- A statement alone is moved. -/
theorem Frame.Moved.alone {stmt other : Stmt} (moved : frame.Moved stmt other) :
    frame.MovedBody [stmt] [other] := by
  rw [Frame.MovedBody, moveBody, moveBody, ← moved]

namespace Inner

variable {inner other : Inner} (alike : inner.Mirrors frame other)

/-- An annotated target. -/
theorem annotated_mirrors (target annotation : Expr) (value : Option Expr) (grouped : Bool) :
    (annotated target annotation value grouped).Mirrors frame false frame.Moved
      (annotated target annotation value grouped) := by
  cases target with
  | tuple | list => exact .fail
  | _ => exact .pure rfl

/-- A look for an operator that is applied in place. -/
theorem augmentedOperator?_mirrors :
    augmentedOperator?.Mirrors frame false Eq augmentedOperator? := by
  refine .current ?_
  rintro _ _ ⟨moved⟩
  exact .pure rfl

/-- A look for a token that starts no statement. -/
theorem atNoStatement_mirrors : atNoStatement.Mirrors frame false Eq atNoStatement := by
  refine .current ?_
  rintro _ _ ⟨moved⟩
  exact .behavior? fun found => .pure rfl

/-- A statement of one word. -/
theorem wordStatement_mirrors {stmt : Stmt} (plain : stmt.moveLines frame.move = stmt) :
    (wordStatement stmt).Mirrors frame false frame.Moved (wordStatement stmt) :=
  .advance fun _ _ _ => .pure plain.symm

/-- The name behind the word as. -/
theorem asName_mirrors : asName.Mirrors frame false Eq asName :=
  .eat (.expectName fun _ => .pure rfl) (.pure rfl)

include alike

/-- The targets and the value of an assignment. -/
theorem assignment_mirrors (first : Expr) :
    (inner.assignment first).Mirrors frame false Eq (other.assignment first) := by
  refine .loop (fun found => .eat ?_ (.pure rfl)) alike.bound _
  exact .lift fun target _ => (expr_mirrors alike _).bind_eq fun value => .pure rfl

/-- The statement that starts with an expression and perhaps an annotation. -/
theorem statementFrom_mirrors (value : Expr) (declared : Option Expr) (grouped : Bool) :
    (inner.statementFrom value declared grouped).Mirrors frame false frame.Moved
      (other.statementFrom value declared grouped) := by
  refine .check fun assigns => .ite (fun _ => ?_) fun _ => ?_
  · refine (assignment_mirrors alike value).bind_eq fun found => ?_
    cases declared with
    | none => exact .pure rfl
    | some annotation =>
      obtain ⟨targets, value⟩ := found
      cases targets with
      | nil => exact .fail
      | cons target more =>
        cases more with
        | nil => exact annotated_mirrors _ _ _ _
        | cons => exact .fail
  · refine augmentedOperator?_mirrors.bind_eq fun found => ?_
    cases declared with
    | some annotation => exact .lift fun target _ => annotated_mirrors _ _ _ _
    | none =>
      cases found with
      | none => exact .pure rfl
      | some operator =>
        refine .advance fun _ _ _ => .lift fun target _ => ?_
        exact (expr_mirrors alike _).bind_eq fun value => .pure rfl

/-- A statement that starts with an expression. -/
theorem expressionStatement_mirrors :
    inner.expressionStatement.Mirrors frame false frame.Moved other.expressionStatement := by
  refine atNoStatement_mirrors.bind_eq fun ended => ?_
  refine .ite (fun _ => .of_fails failStatement_fails) fun _ => ?_
  refine (optionalOperand_mirrors alike _).bind_eq fun found => ?_
  cases found with
  | none => exact .of_fails failStatement_fails
  | some first =>
    refine .finish (.eat ?_ ?_)
    · refine (expr_mirrors alike _).bind_eq fun annotation => ?_
      exact statementFrom_mirrors alike first.expr (some annotation) _
    · exact statementFrom_mirrors alike first.expr none _

/-- The word return. -/
theorem returnStatement_mirrors :
    inner.returnStatement.Mirrors frame false frame.Moved other.returnStatement :=
  .advance fun _ _ _ => (optionalExpr_mirrors alike _).bind_eq fun _ => .pure rfl

/-- The word raise. -/
theorem raiseStatement_mirrors :
    inner.raiseStatement.Mirrors frame false frame.Moved other.raiseStatement := by
  refine .advance fun _ _ _ => (optionalExpr_mirrors alike _).bind_eq fun found => ?_
  cases found with
  | none => exact .pure rfl
  | some exception => exact .eat ((expr_mirrors alike _).bind_eq fun cause => .pure rfl) (.pure rfl)

/-- The word assert. -/
theorem assertStatement_mirrors :
    inner.assertStatement.Mirrors frame false frame.Moved other.assertStatement := by
  refine .advance fun _ _ _ => (expr_mirrors alike _).bind_eq fun test => .eat ?_ (.pure rfl)
  exact (expr_mirrors alike _).bind_eq fun message => .pure rfl

/-- The targets of a deletion. -/
theorem deleteTargets_mirrors :
    inner.deleteTargets.Mirrors frame false Eq other.deleteTargets := by
  refine .loop (fun targets => ?_) alike.bound _
  refine (optionalTarget_mirrors alike _ _).bind_eq fun found => ?_
  cases found with
  | none => exact .pure rfl
  | some target => exact .eat (.pure rfl) (.pure rfl)

/-- The word del. -/
theorem deleteStatement_mirrors :
    inner.deleteStatement.Mirrors frame false frame.Moved other.deleteStatement := by
  refine .advance fun _ _ _ => (deleteTargets_mirrors alike).bind_eq fun targets => ?_
  exact .ite (fun _ => .of_fails (.current fun _ => .fail)) fun _ => .pure rfl

/-- Names between commas. -/
theorem nameList_mirrors : inner.nameList.Mirrors frame false Eq other.nameList := by
  refine .advance fun _ _ _ => .expectName fun first => .loop (fun names => ?_) alike.bound _
  exact .eat (.expectName fun name => .pure rfl) (.pure rfl)

/-- The name of a module. -/
theorem dottedName_mirrors : inner.dottedName.Mirrors frame false Eq other.dottedName := by
  refine .expectName fun first => .loop (fun name => ?_) alike.bound _
  exact .eat (.expectName fun part => .pure rfl) (.pure rfl)

/-- The import of modules. -/
theorem importStatement_mirrors :
    inner.importStatement.Mirrors frame false frame.Moved other.importStatement := by
  refine .advance fun _ _ _ => Mirrors.bind_eq (.loop (fun names => ?_) alike.bound _)
    fun names => .pure rfl
  refine (dottedName_mirrors alike).bind_eq fun name => asName_mirrors.bind_eq fun bound => ?_
  exact .eat (.pure rfl) (.pure rfl)

/-- The points before the name of a module. -/
theorem leadingPoints_mirrors :
    inner.leadingPoints.Mirrors frame false Eq other.leadingPoints := by
  refine .loop (fun level => .eat (.pure rfl) ?_) alike.bound _
  exact .eat (.pure rfl) (.pure rfl)

/-- The names of an import. -/
theorem importedNames_mirrors (parenthesized : Bool) :
    (inner.importedNames parenthesized).Mirrors frame false Eq
      (other.importedNames parenthesized) := by
  refine .loop (fun names => .expectName fun name => ?_) alike.bound _
  refine asName_mirrors.bind_eq fun bound => .eat ?_ (.pure rfl)
  exact .check fun ended => .ite (fun _ => .pure rfl) fun _ => .pure rfl

/-- What is imported from a module. -/
theorem importedList_mirrors : inner.importedList.Mirrors frame false Eq other.importedList := by
  refine .eat (.pure rfl) (.eat ?_ (importedNames_mirrors alike _))
  exact (importedNames_mirrors alike _).bind_eq fun names => .expect fun _ _ => .pure rfl

/-- The import of names from a module. -/
theorem importFromStatement_mirrors :
    inner.importFromStatement.Mirrors frame false frame.Moved other.importFromStatement := by
  have rest (module : Option String) (level : Nat) : (do
      let _ ← expect "import"
      return .importFrom module (← inner.importedList) level : Parse Stmt).Mirrors frame false
        frame.Moved (do
      let _ ← expect "import"
      return .importFrom module (← other.importedList) level) :=
    .expect fun _ _ => (importedList_mirrors alike).bind_eq fun names => .pure rfl
  refine .advance fun _ _ _ => (leadingPoints_mirrors alike).bind_eq fun level => ?_
  refine .check fun bare => .ite (fun _ => rest _ _) fun _ => ?_
  exact (dottedName_mirrors alike).bind_eq fun name => rest _ _

end Inner

/-- What reads expressions and statements is mirrored. -/
structure Scope.Mirrors (frame : Frame) (scope other : Scope) : Prop where
  /-- What reads expressions is mirrored. -/
  inner : scope.inner.Mirrors frame other.inner
  /-- Statement lines are read to their end. -/
  statement : scope.statement.Closing frame frame.MovedBody other.statement
  /-- Lines of simple statements are read to their end. -/
  line : scope.line.Closing frame frame.MovedBody other.line

namespace Scope

variable {scope other : Scope} (alike : scope.Mirrors frame other)
include alike

/-- An indented block. -/
theorem indented_closing : scope.indented.Closing frame frame.MovedBody other.indented := by
  refine (expectKind_closing (.inr rfl)).bind fun _ _ _ => ?_
  refine .loop frame.MovedBody (fun body otherBody moved => ?_) alike.inner.bound rfl
  refine .eat_dedent (.pure (.done moved)) ?_
  exact alike.statement.trailing.bind fun more otherMore fits => .pure (.again (moved.append fits))

/-- The block behind a colon. -/
theorem suite_closing : scope.suite.Closing frame frame.MovedBody other.suite := by
  refine (eatKind_mirrors (by decide)).then_closing fun breaks => ?_
  exact .ite (fun _ => indented_closing alike) fun _ => alike.line

/-- A colon and the block behind it. -/
theorem colonSuite_closing : scope.colonSuite.Closing frame frame.MovedBody other.colonSuite :=
  expect_mirrors.bind_closing fun _ _ _ => suite_closing alike

/-- The block behind a word. -/
theorem optionalSuite_trailing {word : String} (goesOn : word ∈ continuing) :
    (scope.optionalSuite word).Trailing frame frame.MovedBody (other.optionalSuite word) :=
  .eat_word goesOn (colonSuite_closing alike) (.pure rfl)

/-- The end of a definition: a colon, and the block behind it. The decorators that wait are
taken. -/
theorem definition_closing {make otherMake : List Expr → List Stmt → Stmt}
    (moved : ∀ decorators body,
      frame.Moved (make decorators body) (otherMake decorators (moveBody frame.move body))) : (do
      let _ ← expect ":"
      let decorators ← takeDecorators
      let body ← scope.suite
      return make decorators body : Parse Stmt).Closing frame frame.Moved (do
      let _ ← expect ":"
      let decorators ← takeDecorators
      let body ← other.suite
      return otherMake decorators body) := by
  refine expect_mirrors.bind_closing fun _ _ _ => ?_
  refine takeDecorators_mirrors.then_closing fun decorators => ?_
  refine (suite_closing alike).bind ?_
  rintro body _ rfl
  exact .pure (moved decorators body)

/-- The definition of a function, on a line that is moved. -/
theorem functionDef_closing (isAsync : Bool) (line : Nat) :
    (scope.functionDef isAsync line).Closing frame frame.Moved
      (other.functionDef isAsync (frame.move line)) := by
  refine expect_mirrors.bind_closing fun _ _ _ => expectName_mirrors.then_closing fun name => ?_
  refine expect_mirrors.bind_closing fun _ _ _ => ?_
  refine (Inner.parameters_mirrors alike.inner _).then_closing fun parameters => ?_
  refine expect_mirrors.bind_closing fun _ _ _ => eat_mirrors.then_closing fun annotated => ?_
  cases annotated with
  | false => exact definition_closing alike fun _ _ => rfl
  | true =>
    refine (Inner.expr_mirrors alike.inner _).then_closing fun returns => ?_
    exact definition_closing alike fun _ _ => rfl

/-- The definition of a class, whose first word is in front. -/
theorem classDef_closing {state : State} (standard : state.grammar = .standard)
    (written : state.current.isText "class" = true) :
    ClosingAt frame frame.Moved state scope.classDef other.classDef := by
  refine MirrorsAt.bind_closing standard (advance_word standard written (by decide)) ?_
  intro token found moved
  refine expectName_mirrors.then_closing fun name => eat_mirrors.then_closing fun called => ?_
  rw [moved]
  cases called with
  | false => exact definition_closing alike fun _ _ => rfl
  | true =>
    refine (Inner.callArguments_mirrors alike.inner).then_closing fun arguments => ?_
    exact definition_closing alike fun _ _ => rfl

/-- A loop over a sequence. -/
theorem forLoop_closing (isAsync : Bool) :
    (scope.forLoop isAsync).Closing frame frame.Moved (other.forLoop isAsync) := by
  refine expect_mirrors.bind_closing fun _ _ _ => ?_
  refine (Inner.forIn_mirrors alike.inner _).then_closing fun found => ?_
  refine (colonSuite_closing alike).bind ?_
  rintro body _ rfl
  refine (optionalSuite_trailing alike (by decide)).bind ?_
  rintro orelse _ rfl
  exact .pure rfl

/-- A context. -/
theorem withItem_mirrors : scope.withItem.Mirrors frame false Eq other.withItem := by
  refine (Inner.expr_mirrors alike.inner _).bind_eq fun context => .eat ?_ (.pure rfl)
  refine (Inner.optionalTarget_mirrors alike.inner _ _).bind_eq fun found => ?_
  cases found with
  | none => exact .of_fails (.current fun _ => .fail)
  | some target => exact .pure rfl

/-- Contexts and the block inside them. -/
theorem withItems_closing (isAsync : Bool) :
    (scope.withItems isAsync).Closing frame frame.Moved (other.withItems isAsync) := by
  refine expect_mirrors.bind_closing fun _ _ _ => ?_
  refine Mirrors.then_closing (.loop (fun items => ?_) alike.inner.bound _) fun items => ?_
  · exact (withItem_mirrors alike).bind_eq fun item => .eat (.pure rfl) (.pure rfl)
  · refine (colonSuite_closing alike).bind ?_
    rintro body _ rfl
    exact .pure rfl

/-- What is behind the word async, which is in front. -/
theorem async_closing {state : State} (standard : state.grammar = .standard)
    (written : state.current.isText "async" = true) :
    ClosingAt frame frame.Moved state scope.async other.async := by
  refine MirrorsAt.bind_closing standard (advance_word standard written (by decide)) ?_
  intro token found moved
  refine check_mirrors.then_closing fun defines => ?_
  rw [moved]
  refine .ite (fun _ => functionDef_closing alike true token.line) fun _ => ?_
  refine hasDecorators_mirrors.then_closing fun waiting => ?_
  refine .ite (fun _ => .of_fails .fail) fun _ => check_mirrors.then_closing fun loops => ?_
  refine .ite (fun _ => forLoop_closing alike true) fun _ => ?_
  refine check_mirrors.then_closing fun enters => ?_
  exact .ite (fun _ => withItems_closing alike true) fun _ => .of_fails .fail

/-- A condition with its block moved. -/
def movedBranch (frame : Frame) (branch : Expr × List Stmt) : Expr × List Stmt :=
  (branch.1, moveBody frame.move branch.2)

/-- A condition behind a word, and its block. -/
theorem condition_closing :
    scope.condition.Closing frame (fun branch found => found = movedBranch frame branch)
      other.condition := by
  refine advance_mirrors.bind_closing fun _ _ _ => ?_
  refine (Inner.expr_mirrors alike.inner _).then_closing fun test => ?_
  refine (colonSuite_closing alike).bind ?_
  rintro body _ rfl
  exact .pure rfl

omit alike in
/-- Further conditions, nested in each other, are moved one by one. -/
theorem moveBody_branches (others : List (Expr × List Stmt)) (last : List Stmt) :
    moveBody frame.move (others.foldr (fun (test, body) orelse => [.ifElse test body orelse]) last) =
      (others.map (movedBranch frame)).foldr (fun (test, body) orelse => [.ifElse test body orelse])
        (moveBody frame.move last) := by
  induction others with
  | nil => rfl
  | cons branch rest ih =>
    rw [List.map_cons, List.foldr_cons, List.foldr_cons, ← ih]
    rfl

/-- A choice. -/
theorem ifElse_closing : scope.ifElse.Closing frame frame.Moved other.ifElse := by
  refine (condition_closing alike).bind ?_
  rintro ⟨test, body⟩ _ rfl
  refine Trailing.bind (.loop (fun others found => found = others.map (movedBranch frame))
    (fun others found moved => ?_) alike.inner.bound rfl) ?_
  · refine .check_word (by decide) fun further => ?_
    cases further with
    | false => exact .pure (.done moved)
    | true =>
      refine (condition_closing alike).trailing.bind ?_
      rintro branch _ rfl
      exact .pure (.again (by rw [moved, List.map_append, List.map_singleton]))
  · rintro others _ rfl
    refine (optionalSuite_trailing alike (by decide)).bind ?_
    rintro last _ rfl
    refine .pure ?_
    rw [Frame.Moved, Stmt.moveLines, moveBody_branches]

/-- A loop under a condition. -/
theorem whileLoop_closing : scope.whileLoop.Closing frame frame.Moved other.whileLoop := by
  refine (condition_closing alike).bind ?_
  rintro ⟨test, body⟩ _ rfl
  refine (optionalSuite_trailing alike (by decide)).bind ?_
  rintro orelse _ rfl
  exact .pure rfl

/-- A handler. -/
theorem handler_closing :
    scope.handler.Closing frame (fun handler found => found = handler.moveLines frame.move)
      other.handler := by
  have block {type : Option Expr} {name : Option String} : (do
      return ⟨type, name, ← scope.colonSuite⟩ : Parse ExceptHandler).Closing frame
      (fun handler found => found = handler.moveLines frame.move) (do
      return ⟨type, name, ← other.colonSuite⟩) := by
    refine (colonSuite_closing alike).bind ?_
    rintro body _ rfl
    exact .pure rfl
  refine check_mirrors.then_closing fun all => .ite (fun _ => block) fun _ => ?_
  refine (Inner.expr_mirrors alike.inner _).then_closing fun type => ?_
  exact Inner.asName_mirrors.then_closing fun name => block

/-- Handled exceptions. -/
theorem tryExcept_closing : scope.tryExcept.Closing frame frame.Moved other.tryExcept := by
  refine advance_mirrors.bind_closing fun _ _ _ => (colonSuite_closing alike).bind ?_
  rintro body _ rfl
  refine Trailing.bind (.loop (fun handlers found => found = moveHandlers frame.move handlers)
    (fun handlers found moved => ?_) alike.inner.bound rfl) ?_
  · refine .eat_word (by decide) ?_ (.pure (.done moved))
    refine (handler_closing alike).bind ?_
    rintro handler _ rfl
    exact .pure (.again (by rw [moved, moveHandlers_append]; rfl))
  · rintro handlers _ rfl
    refine (optionalSuite_trailing alike (by decide)).bind ?_
    rintro orelse _ rfl
    refine .eat_word (by decide) ?_ ?_
    · refine (colonSuite_closing alike).bind ?_
      rintro final _ rfl
      exact .pure rfl
    · cases handlers with
      | nil => exact (Closing.of_fails .fail).trailing
      | cons handler rest => exact .pure rfl

end Scope

/-- A compound statement is read by the rule of its first word. -/
theorem StatementRule.parse_closing {scope other : Scope} (alike : scope.Mirrors frame other)
    {rule : StatementRule} {state : State} (standard : state.grammar = .standard)
    (starts : state.current.StartsCompound rule) :
    ClosingAt frame frame.Moved state (rule.parse scope) (rule.parse other) := by
  obtain ⟨-, listed⟩ := Token.mem_words_of_statementRule starts
  cases rule with
  | functionDef =>
    refine .current fun found same => ?_
    rw [same.line (starts.isText "def" (by decide)) (by decide)]
    exact Scope.functionDef_closing alike false _ state standard
  | async => exact Scope.async_closing alike standard (starts.isText "async" (by decide))
  | classDef => exact Scope.classDef_closing alike standard (starts.isText "class" (by decide))
  | ifElse => exact Scope.ifElse_closing alike state standard
  | forLoop => exact Scope.forLoop_closing alike false state standard
  | whileLoop => exact Scope.whileLoop_closing alike state standard
  | withItems => exact Scope.withItems_closing alike false state standard
  | tryExcept => exact Scope.tryExcept_closing alike state standard
  | importModules | importFrom | breakLoop | continueLoop | pass | returnValue | raise | assert
    | delete | globals | nonlocals => exact absurd listed List.not_mem_nil

/-- A simple statement is read by the rule of its first word. -/
theorem StatementRule.parse_mirrors {scope other : Scope} (alike : scope.Mirrors frame other)
    {rule : StatementRule} {state : State} (standard : state.grammar = .standard)
    (starts : state.current.StartsSimple rule) :
    MirrorsAt frame false frame.Moved state (rule.parse scope) (rule.parse other) := by
  obtain ⟨-, listed⟩ := Token.mem_words_of_statementRule starts
  have inner := alike.inner
  cases rule with
  | functionDef | async | classDef | ifElse | forLoop | whileLoop | withItems | tryExcept =>
    exact absurd listed List.not_mem_nil
  | importModules => exact Inner.importStatement_mirrors inner state standard
  | importFrom => exact Inner.importFromStatement_mirrors inner state standard
  | breakLoop | continueLoop | pass => exact Inner.wordStatement_mirrors rfl state standard
  | returnValue => exact Inner.returnStatement_mirrors inner state standard
  | raise => exact Inner.raiseStatement_mirrors inner state standard
  | assert => exact Inner.assertStatement_mirrors inner state standard
  | delete => exact Inner.deleteStatement_mirrors inner state standard
  | globals | nonlocals =>
    refine (Inner.nameList_mirrors inner).bind_eq (fun names => ?_) state standard
    exact .pure rfl

namespace Scope

variable {scope other : Scope} (alike : scope.Mirrors frame other)
include alike

/-- A simple statement. -/
theorem small_mirrors : scope.small.Mirrors frame false frame.Moved other.small := by
  intro state standard
  refine .look (fun grammar => Grammar.statementRule? grammar.simple) rfl
    (by rintro _ _ _ ⟨⟩; rfl) ?_
  rw [standard]
  cases found : Grammar.statementRule? Grammar.standard.simple state.current with
  | none => exact Inner.expressionStatement_mirrors alike.inner state standard
  | some rule => exact rule.parse_mirrors alike standard found

/-- A line of simple statements. -/
theorem simpleLine_closing : scope.simpleLine.Closing frame frame.MovedBody other.simpleLine := by
  refine (small_mirrors alike).bind_closing fun first otherFirst moved => ?_
  refine Mirrors.bind_closing (.loop_of frame.MovedBody frame.MovedBody
    (fun body otherBody moved => ?_) alike.inner.bound moved.alone) fun body otherBody moved => ?_
  · refine .eat ?_ (.pure (.done moved))
    refine .checkKind fun breaks => .checkKind fun ends => ?_
    refine .ite (fun _ => .pure (.done moved)) fun _ => ?_
    exact (small_mirrors alike).bind fun stmt otherStmt fits =>
      .pure (.again (moved.append fits.alone))
  · exact (expectKind_closing (.inl rfl)).bind fun _ _ _ => .pure moved

/-- Decorators. -/
theorem decorators_mirrors : scope.decorators.Mirrors frame false Eq other.decorators := by
  refine .loop (fun _ => .eat ?_ (.pure rfl)) alike.inner.bound _
  refine (Inner.expr_mirrors alike.inner _).bind_eq fun decorator => .expectKind fun _ _ => ?_
  exact pushDecorator_mirrors.bind_eq fun _ => .pure rfl

/-- A statement line, with the decorators before it. -/
theorem statementLine_closing :
    scope.statementLine.Closing frame frame.MovedBody other.statementLine := by
  refine (decorators_mirrors alike).then_closing fun _ => ?_
  refine hasDecorators_mirrors.then_closing fun waiting state standard => ?_
  refine .peek (fun state => Grammar.statementRule? state.grammar.compound state.current)
    (fun state => Grammar.statementRule? state.grammar.compound state.current) ⟨_, rfl⟩ ?_ ?_
  · rintro _ rfl
    rw [standard]
    cases found : Grammar.statementRule? Grammar.standard.compound state.current with
    | none =>
      exact Closing.ite (fun _ => .of_fails .fail) (fun _ => simpleLine_closing alike) state standard
    | some rule =>
      refine .current fun token same => ?_
      rw [same.isText]
      by_cases refused : (waiting && !decorated.any state.current.isText) = true
      · rw [if_pos refused]
        exact Closing.of_fails .fail state standard
      · rw [if_neg refused, if_neg refused]
        refine (rule.parse_closing alike standard found).bind standard ?_
        exact fun stmt other moved => .pure moved.alone
  · intro start beside leaves
    have same := beside.current leaves
    rw [beside.grammar]
    generalize state.current = token, start.current = other at same
    obtain ⟨moved⟩ := same
    rfl

end Scope

/-- Statements of any depth are the same on both sides up to their lines, if the other side allows
for as much depth. -/
theorem statementAt_closing {depth otherDepth : Nat} (within : depth ≤ otherDepth) :
    (statementAt depth).Closing frame frame.MovedBody (statementAt otherDepth) ∧
      (lineAt depth).Closing frame frame.MovedBody (lineAt otherDepth) := by
  induction depth generalizing otherDepth with
  | zero => exact ⟨.of_fails failStatement_fails, .of_fails failStatement_fails⟩
  | succ depth ih =>
    obtain ⟨further, rfl⟩ := Nat.exists_eq_add_of_le' (Nat.one_le_of_lt within)
    obtain ⟨statement, line⟩ := @ih further (Nat.le_of_succ_le_succ within)
    have alike : Scope.Mirrors frame ⟨.upTo (depth + 1), statementAt depth, lineAt depth⟩
        ⟨.upTo (further + 1), statementAt further, lineAt further⟩ :=
      ⟨Inner.mirrors_upTo within, statement, line⟩
    exact ⟨Scope.statementLine_closing alike, Scope.simpleLine_closing alike⟩

/-- What reads statements up to a bound is mirrored by what reads them up to a greater one. -/
theorem Scope.mirrors_upTo {bound otherBound : Nat} (within : bound ≤ otherBound) :
    (Scope.upTo bound).Mirrors frame (Scope.upTo otherBound) :=
  ⟨Inner.mirrors_upTo within, (statementAt_closing within).1, (statementAt_closing within).2⟩

end Offside
