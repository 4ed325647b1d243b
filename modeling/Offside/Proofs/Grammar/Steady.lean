import Offside.Proofs.Grammar.Mirror

/-!
# Parsers that their bounds do not touch

The bound on the depth of what is read, and on the turns of a loop, is there for the recursion to be
one over numbers. Two parsers with different bounds are steady (`Parse.Steady`) if they do the same
from every state with fewer tokens than the room says, and if what has to take a token takes one.
The second parser may have a guard behind its tokens (`State.guarded`): the end mark is written out
there, and behind it waits a fault that arises as soon as the mark is taken. So two parsers that do
the same under a guard never take the end mark. Each way of putting parsers together has a rule.
-/
namespace Offside

namespace State

/-- The state is that of reading a list of tokens: no fault waits behind them, and they mean what
they mean in the language. -/
structure Listed (state : State) : Prop where
  /-- The meanings of tokens are those of the language. -/
  grammar : state.grammar = .standard
  /-- Behind the tokens is nothing but the end mark. -/
  failure : state.failure = none

/-- The line of the end mark: that of the last token. -/
def lastLine (state : State) : Nat :=
  (state.ahead.getLast?.map Token.line).getD state.line

/-- The state with a guard behind its tokens: the end mark is written out, and a fault waits behind
it. Without a guard the state is as it is. -/
def guarded (guard : Option Fault) (state : State) : State :=
  { state with
    ahead := state.ahead ++ (guard.map fun _ => Token.endMarker state.lastLine).toList
    failure := guard }

variable {state : State} {guard : Option Fault}

/-- Without a guard nothing is changed. -/
theorem Listed.guarded_none (listed : state.Listed) : state.guarded none = state := by
  obtain ⟨ahead, line, failure, file, grammar, decorators⟩ := state
  have nothing : failure = none := listed.failure
  rw [guarded, Option.map_none, Option.toList_none, List.append_nil, nothing]

/-- The token in front is the same with a guard. -/
@[simp]
theorem guarded_current : (state.guarded guard).current = state.current := by
  obtain ⟨ahead, line, failure, file, grammar, decorators⟩ := state
  cases ahead with
  | cons token ahead => rfl
  | nil => cases guard <;> rfl

/-- The token in front has the same text with a guard. -/
theorem guarded_isText {text : String} :
    (state.guarded guard).current.isText text = state.current.isText text := by
  rw [guarded_current]

/-- Faults arise at the same position with a guard. -/
@[simp]
theorem guarded_position : (state.guarded guard).position = state.position := by
  rw [position, position, guarded_current]
  rfl

/-- A token in front that is a name or an operator is one of the tokens. -/
theorem ahead_of_isText {text : String} (written : state.current.isText text = true) :
    state.ahead ≠ [] := by
  intro empty
  rw [current, empty] at written
  contradiction

/-- A token in front of another kind than the end mark is one of the tokens. -/
theorem ahead_of_kind (other : state.current.kind ≠ .endMarker) : state.ahead ≠ [] := by
  intro empty
  rw [current, empty] at other
  exact other rfl

/-- A token in front that means something in expressions is one of the tokens. -/
theorem Listed.ahead_of_behavior {behavior : Behavior} (listed : state.Listed)
    (known : state.grammar.behavior? state.current = some behavior) : state.ahead ≠ [] := by
  apply ahead_of_kind
  intro last
  rw [listed.grammar, Grammar.behavior?, last] at known
  contradiction

/-- The state behind the token in front. -/
def next (state : State) : State :=
  { state with ahead := state.ahead.tail, line := state.current.line }

/-- Behind the token in front the end mark is on the same line. -/
theorem next_lastLine (front : state.ahead ≠ []) : state.next.lastLine = state.lastLine := by
  obtain ⟨ahead, line, failure, file, grammar, decorators⟩ := state
  cases ahead with
  | nil => exact absurd rfl front
  | cons token ahead =>
    cases ahead with
    | nil => rfl
    | cons second ahead =>
      rw [lastLine, lastLine, List.getLast?_cons_cons]
      obtain ⟨last, found⟩ : ∃ last, (second :: ahead).getLast? = some last :=
        ⟨_, List.getLast?_eq_some_getLast (List.cons_ne_nil second ahead)⟩
      show ((second :: ahead).getLast?.map Token.line).getD _ = _
      rw [found]
      rfl

/-- Behind the token in front there are fewer tokens. -/
theorem next_shorter (front : state.ahead ≠ []) : state.next.ahead.length < state.ahead.length := by
  have tail := List.length_tail (l := state.ahead)
  have some_ := List.length_pos_iff.2 front
  show state.ahead.tail.length < _
  omega

end State

namespace Parse

variable {α β : Type} {guard : Option Fault} {room : Nat} {state : State}

/-- What two parsers do from a state, where the second one has a guard behind the tokens. -/
structure SteadyAt (guard : Option Fault) (takes : α → Prop) (state : State)
    (parser other : Parse α) : Prop where
  /-- Where the first one succeeds, so does the second one, and a token is taken if the value says
  so. -/
  follows {out : α} {behind : State} (read : parser state = .ok out behind) :
    other (state.guarded guard) = .ok out (behind.guarded guard) ∧ behind.Listed ∧
      behind.ahead.length ≤ state.ahead.length ∧
        (takes out → behind.ahead.length < state.ahead.length)
  /-- Where the first one fails, so does the second one, with the same fault. -/
  fails {fault : Fault} {behind : State} (failed : parser state = .error fault behind) :
    other (state.guarded guard) = .error fault (behind.guarded guard) ∧ behind.Listed

/-- What two parsers do from all states with fewer tokens than the room says. -/
def Steady (guard : Option Fault) (room : Nat) (takes : α → Prop) (parser other : Parse α) : Prop :=
  ∀ state : State, state.Listed → state.ahead.length < room →
    SteadyAt guard takes state parser other

/-- What two parsers do that start with the token in front, from all states with one. They take
it, and behind it there are fewer tokens than the room says. -/
def Consumes (guard : Option Fault) (room : Nat) (parser other : Parse α) : Prop :=
  ∀ state : State, state.Listed → state.ahead ≠ [] → state.ahead.length < room + 1 →
    SteadyAt guard (fun _ => True) state parser other


/-- The turn leads to a further one. -/
def Turn.GoesOn : Turn α β → Prop
  | .again _ => True
  | .done _ => False

section states

variable {takes : β → Prop} {given : α → Prop}

/-- A value without reading. -/
theorem SteadyAt.pure {value : β} (listed : state.Listed) (stays : ¬takes value) :
    SteadyAt guard takes state (Pure.pure value) (Pure.pure value) where
  follows read := by
    obtain ⟨rfl, rfl⟩ := pure_ok read
    exact ⟨rfl, listed, Nat.le_refl _, fun taken => absurd taken stays⟩
  fails failed := by contradiction

/-- Two parsers that succeed and take no token. -/
theorem SteadyAt.of_ok {parser other : Parse β} {value : β} {behind : State}
    (read : parser state = .ok value behind)
    (otherRead : other (state.guarded guard) = .ok value (behind.guarded guard))
    (listed : behind.Listed) (fewer : behind.ahead.length ≤ state.ahead.length) :
    SteadyAt guard (fun _ => False) state parser other where
  follows again := by
    rw [read] at again
    obtain ⟨rfl, rfl⟩ := EStateM.Result.ok.inj again
    exact ⟨otherRead, listed, fewer, False.elim⟩
  fails failed := by
    rw [read] at failed
    contradiction

/-- Two parsers in order. A token that has to be taken is taken by the first one or by the second
one. -/
theorem SteadyAt.bind_of (rest : α → β → Prop) {parser other : Parse α}
    {next otherNext : α → Parse β}
    (first : SteadyAt guard given state parser other)
    (later : ∀ value between, between.Listed → between.ahead.length ≤ state.ahead.length →
      (given value → between.ahead.length < state.ahead.length) →
        SteadyAt guard (rest value) between (next value) (otherNext value) ∧
          ∀ out, takes out → rest value out ∨ given value) :
    SteadyAt guard takes state (parser >>= next) (other >>= otherNext) where
  follows read := by
    obtain ⟨value, between, head, tail⟩ := bind_ok read
    have taken := first.follows head
    have onward := later value between taken.2.1 taken.2.2.1 taken.2.2.2
    have behind := onward.1.follows tail
    refine ⟨(bind_of_ok taken.1).trans behind.1, behind.2.1,
      Nat.le_trans behind.2.2.1 taken.2.2.1, fun needed => ?_⟩
    rcases onward.2 _ needed with here | there
    · exact Nat.lt_of_lt_of_le (behind.2.2.2 here) taken.2.2.1
    · exact Nat.lt_of_le_of_lt behind.2.2.1 (taken.2.2.2 there)
  fails failed := by
    rcases bind_error failed with failed | ⟨value, between, head, tail⟩
    · have refused := first.fails failed
      exact ⟨bind_of_error refused.1, refused.2⟩
    · have taken := first.follows head
      have onward := later value between taken.2.1 taken.2.2.1 taken.2.2.2
      have refused := onward.1.fails tail
      exact ⟨(bind_of_ok taken.1).trans refused.1, refused.2⟩

/-- Two parsers in order. -/
theorem SteadyAt.bind {parser other : Parse α} {next otherNext : α → Parse β}
    (first : SteadyAt guard given state parser other)
    (later : ∀ value between, between.Listed → between.ahead.length ≤ state.ahead.length →
      (given value → between.ahead.length < state.ahead.length) →
        SteadyAt guard takes between (next value) (otherNext value)) :
    SteadyAt guard takes state (parser >>= next) (other >>= otherNext) :=
  first.bind_of (fun _ => takes) fun value between listed fewer taken =>
    ⟨later value between listed fewer taken, fun _ needed => .inl needed⟩

/-- Two parsers in order, of which the first one takes a token. -/
theorem SteadyAt.bind_taken {parser other : Parse α} {next otherNext : α → Parse β}
    (first : SteadyAt guard (fun _ => True) state parser other)
    (later : ∀ value between, between.Listed → between.ahead.length < state.ahead.length →
      SteadyAt guard (fun _ => False) between (next value) (otherNext value)) :
    SteadyAt guard takes state (parser >>= next) (other >>= otherNext) :=
  first.bind_of (fun _ _ => False) fun value between listed _ taken =>
    ⟨later value between listed (taken trivial), fun _ _ => .inr trivial⟩

/-- A look at the state that finds the same with a guard. -/
theorem SteadyAt.look {parser : Parse α} (view : State → α)
    (looks : parser = fun state => .ok (view state) state)
    (same : view (state.guarded guard) = view state) {next otherNext : α → Parse β}
    (later : SteadyAt guard takes state (next (view state)) (otherNext (view state))) :
    SteadyAt guard takes state (parser >>= next) (parser >>= otherNext) := by
  subst looks
  have there : ((fun state => .ok (view state) state : Parse α) >>= otherNext)
      (state.guarded guard) = otherNext (view state) (state.guarded guard) := by
    show otherNext (view (state.guarded guard)) _ = _
    rw [same]
  refine ⟨fun read => ?_, fun failed => ?_⟩
  · rw [there]
    exact later.follows read
  · rw [there]
    exact later.fails failed

/-- The token in front is taken. -/
theorem advance_of_ahead (listed : state.Listed) (front : state.ahead ≠ []) :
    advance state = .ok state.current state.next := by
  obtain ⟨token, rest, ahead⟩ := List.exists_cons_of_ne_nil front
  rw [advance_of_cons ahead fun waits => absurd listed.failure waits, State.next, State.current,
    ahead]
  rfl

/-- The token in front is taken in the same way with a guard. -/
theorem advance_guarded (front : state.ahead ≠ []) :
    advance (state.guarded guard) = .ok state.current (state.next.guarded guard) := by
  have line := State.next_lastLine front
  obtain ⟨token, rest, ahead⟩ := List.exists_cons_of_ne_nil front
  have cut : (state.guarded guard).ahead =
      token :: (rest ++ (guard.map fun _ => Token.endMarker state.lastLine).toList) := by
    rw [State.guarded, ahead]
    rfl
  rw [advance_of_cons cut ?_]
  · rw [State.guarded, State.guarded, line, State.next, State.current, ahead]
    rfl
  · intro waits
    cases guard with
    | none => exact absurd rfl waits
    | some fault => exact List.append_ne_nil_of_right_ne_nil _ (List.cons_ne_nil _ _)

/-- The token in front is taken, and a parser follows. -/
theorem SteadyAt.advance (listed : state.Listed) (front : state.ahead ≠ [])
    {next otherNext : Token → Parse β}
    (later : ∀ between : State, between.Listed → between.ahead.length < state.ahead.length →
      SteadyAt guard (fun _ => False) between (next state.current) (otherNext state.current)) :
    SteadyAt guard takes state (Parse.advance >>= next) (Parse.advance >>= otherNext) := by
  have shorter := State.next_shorter front
  have steady := later state.next ⟨listed.grammar, listed.failure⟩ shorter
  refine ⟨fun read => ?_, fun failed => ?_⟩
  · rw [bind_of_ok (advance_of_ahead listed front)] at read
    rw [bind_of_ok (advance_guarded front)]
    have behind := steady.follows read
    have fewer := behind.2.2.1
    exact ⟨behind.1, behind.2.1, by omega, fun _ => by omega⟩
  · rw [bind_of_ok (advance_of_ahead listed front)] at failed
    rw [bind_of_ok (advance_guarded front)]
    exact steady.fails failed

end states

section rules

variable {takes : β → Prop} {given : α → Prop}

/-- What holds with more room holds with less. -/
theorem Steady.less {less : Nat} {parser other : Parse β}
    (steady : parser.Steady guard room takes other) (fewer : less ≤ room) :
    parser.Steady guard less takes other :=
  fun state listed within => steady state listed (Nat.lt_of_lt_of_le within fewer)

/-- Less may be asked for. -/
theorem Steady.weaken {weak : β → Prop} {parser other : Parse β}
    (steady : parser.Steady guard room takes other) (weaker : ∀ out, weak out → takes out) :
    parser.Steady guard room weak other := by
  intro state listed within
  have here := steady state listed within
  refine ⟨fun read => ?_, here.fails⟩
  have behind := here.follows read
  exact ⟨behind.1, behind.2.1, behind.2.2.1, fun needed => behind.2.2.2 (weaker _ needed)⟩

/-- A value without reading. -/
theorem Steady.pure {value : β} (stays : ¬takes value) :
    (Pure.pure value : Parse β).Steady guard room takes (Pure.pure value) :=
  fun _ listed _ => .pure listed stays

/-- Two parsers in order. -/
theorem Steady.bind {parser other : Parse α} {next otherNext : α → Parse β}
    (first : parser.Steady guard room given other)
    (later : ∀ value, (next value).Steady guard room takes (otherNext value)) :
    (parser >>= next).Steady guard room takes (other >>= otherNext) := by
  intro state listed within
  refine (first state listed within).bind fun value between onward fewer _ => ?_
  exact later value between onward (Nat.lt_of_le_of_lt fewer within)

/-- Two parsers in order, of which the first one takes a token. -/
theorem Steady.bind_taken {parser other : Parse α} {next otherNext : α → Parse β}
    (first : parser.Steady guard room (fun _ => True) other)
    (later : ∀ value, (next value).Steady guard room (fun _ => False) (otherNext value)) :
    (parser >>= next).Steady guard room takes (other >>= otherNext) := by
  intro state listed within
  refine (first state listed within).bind_taken fun value between onward fewer => ?_
  exact later value between onward (Nat.lt_trans fewer within)

/-- Two parsers in order, of which the first one takes a token, so that there is room for one token
less behind it. -/
theorem Steady.bind_less {parser other : Parse α} {next otherNext : α → Parse β}
    (first : parser.Steady guard (room + 1) (fun _ => True) other)
    (later : ∀ value, (next value).Steady guard room (fun _ => False) (otherNext value)) :
    (parser >>= next).Steady guard (room + 1) takes (other >>= otherNext) := by
  intro state listed within
  refine (first state listed within).bind_taken fun value between onward fewer => ?_
  exact later value between onward (by omega)

/-- Two parsers in order, of which the first one takes a token where it finds something. -/
theorem Steady.bind_some {parser other : Parse (Option α)} {next otherNext : Option α → Parse β}
    (first : parser.Steady guard room (fun found => found.isSome = true) other)
    (missing : (next none).Steady guard room takes (otherNext none))
    (later : ∀ value, (next (some value)).Steady guard room (fun _ => False)
      (otherNext (some value))) :
    (parser >>= next).Steady guard room takes (other >>= otherNext) := by
  intro state listed within
  refine (first state listed within).bind_of (fun found => found.elim takes fun _ _ => False)
    fun found between onward fewer _ => ?_
  have fits := Nat.lt_of_le_of_lt fewer within
  cases found with
  | none => exact ⟨missing between onward fits, fun _ needed => .inl needed⟩
  | some value => exact ⟨later value between onward fits, fun _ _ => .inr rfl⟩

/-- The same choice on both sides. -/
theorem Steady.ite {condition : Prop} [Decidable condition] {first second : Parse β}
    {otherFirst otherSecond : Parse β}
    (holds : condition → first.Steady guard room takes otherFirst)
    (fails : ¬condition → second.Steady guard room takes otherSecond) :
    (if condition then first else second).Steady guard room takes
      (if condition then otherFirst else otherSecond) := by
  by_cases known : condition
  · rw [if_pos known, if_pos known]
    exact holds known
  · rw [if_neg known, if_neg known]
    exact fails known

/-- A failure with a cause. -/
theorem Steady.fail {cause : Cause} :
    (Parse.fail cause : Parse β).Steady guard room takes (Parse.fail cause) := by
  intro state listed _
  refine ⟨fun read => by contradiction, fun failed => ?_⟩
  obtain ⟨rfl, rfl⟩ := EStateM.Result.error.inj failed
  have there : (Parse.fail cause : Parse β) (state.guarded guard) =
      .error ⟨cause, (state.guarded guard).position⟩ (state.guarded guard) := rfl
  rw [State.guarded_position] at there
  exact ⟨there, listed⟩

/-- A look at the state that finds the same with a guard. -/
theorem Steady.look {parser : Parse α} (view : State → α)
    (looks : parser = fun state => .ok (view state) state)
    (same : ∀ state : State, state.Listed → view (state.guarded guard) = view state)
    {next otherNext : α → Parse β}
    (later : ∀ value, (next value).Steady guard room takes (otherNext value)) :
    (parser >>= next).Steady guard room takes (parser >>= otherNext) :=
  fun state listed within => .look view looks (same state listed) (later _ state listed within)

/-- A look at the token in front. -/
theorem Steady.current {next otherNext : Token → Parse β}
    (later : ∀ token, (next token).Steady guard room takes (otherNext token)) :
    (Parse.current >>= next).Steady guard room takes (Parse.current >>= otherNext) :=
  .look State.current rfl (fun _ _ => State.guarded_current) later

/-- A look for a text. -/
theorem Steady.check {text : String} {next otherNext : Bool → Parse β}
    (later : ∀ found, (next found).Steady guard room takes (otherNext found)) :
    (Parse.check text >>= next).Steady guard room takes (Parse.check text >>= otherNext) :=
  .look (fun state => state.current.isText text) rfl
    (fun _ _ => State.guarded_isText) later

/-- A look for a kind. -/
theorem Steady.checkKind {kind : Kind} {next otherNext : Bool → Parse β}
    (later : ∀ found, (next found).Steady guard room takes (otherNext found)) :
    (Parse.checkKind kind >>= next).Steady guard room takes (Parse.checkKind kind >>= otherNext) :=
  .look (fun state => decide (state.current.kind = kind)) rfl
    (fun _ _ => by rw [State.guarded_current]) later

/-- A look for the end of an expression. -/
theorem Steady.atDelimiter {next otherNext : Bool → Parse β}
    (later : ∀ found, (next found).Steady guard room takes (otherNext found)) :
    (Parse.atDelimiter >>= next).Steady guard room takes (Parse.atDelimiter >>= otherNext) :=
  .look (fun state => state.current.kind = .newline || state.current.kind = .endMarker ||
    (state.current.kind = .operator && delimiters.contains state.current.value)) rfl
    (fun _ _ => by rw [State.guarded_current]) later

/-- A look for decorators that wait. -/
theorem Steady.hasDecorators {next otherNext : Bool → Parse β}
    (later : ∀ found, (next found).Steady guard room takes (otherNext found)) :
    (Parse.hasDecorators >>= next).Steady guard room takes (Parse.hasDecorators >>= otherNext) :=
  .look (fun state => !state.decorators.isEmpty) rfl (fun _ _ => rfl) later

/-- A missing expression. -/
theorem failExpression_steady :
    (failExpression : Parse β).Steady guard room takes failExpression := by
  refine .current fun token => ?_
  split <;> exact .fail

/-- A missing statement. -/
theorem failStatement_steady :
    (failStatement : Parse β).Steady guard room takes failStatement := by
  refine .current fun token => ?_
  split <;> exact .fail

/-- A token that is something else than what is required. -/
theorem failExpected_steady {expected : String} :
    (failExpected expected : Parse β).Steady guard room takes (failExpected expected) :=
  .current fun _ => .fail

/-- A value or a failure. -/
theorem Steady.lift {value : Except Cause α} {next otherNext : α → Parse β}
    (later : ∀ out, (next out).Steady guard room takes (otherNext out)) :
    (Parse.lift value >>= next).Steady guard room takes (Parse.lift value >>= otherNext) := by
  cases value with
  | error cause =>
    have failed : (Parse.fail cause : Parse α).Steady guard room (fun _ => False)
        (Parse.fail cause) := .fail
    exact failed.bind later
  | ok out => exact later out

/-- The end of an expression that is no comprehension without brackets. -/
theorem Steady.finish {parsed : Parsed} {next otherNext : Expr → Parse β}
    (later : ∀ value, (next value).Steady guard room takes (otherNext value)) :
    (parsed.finish >>= next).Steady guard room takes (parsed.finish >>= otherNext) := by
  have finished : parsed.finish.Steady guard room (fun _ => False) parsed.finish :=
    .ite (fun _ => .fail) fun _ => .pure id
  exact finished.bind later

/-- A token is taken if it has the right look, and another token is none. -/
theorem SteadyAt.taken (listed : state.Listed) (within : state.ahead.length < room) {found : Bool}
    (front : found = true → state.ahead ≠ []) {next otherNext : Bool → Parse β}
    (taken : (next true).Steady guard room (fun _ => False) (otherNext true))
    (missing : (next false).Steady guard room takes (otherNext false)) :
    SteadyAt guard takes state
      (if found then Parse.advance >>= fun _ => next true else next false)
      (if found then Parse.advance >>= fun _ => otherNext true else otherNext false) := by
  cases found with
  | false => exact missing state listed within
  | true =>
    have ahead := front rfl
    exact .advance listed ahead fun between onward fewer => taken between onward (by omega)

/-- A text is taken if it is in front. -/
theorem Steady.eat {text : String} {next otherNext : Bool → Parse β}
    (taken : (next true).Steady guard room (fun _ => False) (otherNext true))
    (missing : (next false).Steady guard room takes (otherNext false)) :
    (Parse.eat text >>= next).Steady guard room takes (Parse.eat text >>= otherNext) := by
  intro state listed within
  rw [eat_bind, eat_bind]
  refine .look (fun state => state.current.isText text) rfl State.guarded_isText ?_
  exact .taken listed within State.ahead_of_isText taken missing

/-- A mark of the layout is taken if it is in front. -/
theorem Steady.eatKind {kind : Kind} (layout : kind ≠ .endMarker) {next otherNext : Bool → Parse β}
    (taken : (next true).Steady guard room (fun _ => False) (otherNext true))
    (missing : (next false).Steady guard room takes (otherNext false)) :
    (Parse.eatKind kind >>= next).Steady guard room takes (Parse.eatKind kind >>= otherNext) := by
  intro state listed within
  rw [eatKind_bind layout, eatKind_bind layout]
  refine .look (fun state => decide (state.current.kind = kind)) rfl
    (by rw [State.guarded_current]) ?_
  refine .taken listed within (fun found => State.ahead_of_kind ?_) taken missing
  rw [of_decide_eq_true found]
  exact layout

/-- The token in front is taken, alone. -/
theorem SteadyAt.advance_alone (listed : state.Listed) (front : state.ahead ≠ []) :
    SteadyAt guard (fun _ => True) state Parse.advance Parse.advance := by
  have alone : SteadyAt guard (fun _ => True) state (Parse.advance >>= Pure.pure)
      (Parse.advance >>= Pure.pure) :=
    .advance listed front fun _ onward _ => .pure onward id
  rwa [bind_pure] at alone

/-- A text is required. -/
theorem expect_steady {text : String} :
    (Parse.expect text).Steady guard room (fun _ => True) (Parse.expect text) := by
  intro state listed within
  refine .look (fun state => state.current.isText text) rfl State.guarded_isText ?_
  by_cases written : state.current.isText text = true
  · rw [if_pos written]
    exact .advance_alone listed (State.ahead_of_isText written)
  · rw [if_neg written]
    exact failExpected_steady state listed within

/-- A text is required, and a parser follows. -/
theorem Steady.expect {text : String} {next otherNext : Token → Parse β}
    (later : ∀ token, (next token).Steady guard room (fun _ => False) (otherNext token)) :
    (Parse.expect text >>= next).Steady guard room takes (Parse.expect text >>= otherNext) :=
  expect_steady.bind_taken later

/-- A mark of the layout is required, and a parser follows. -/
theorem Steady.expectKind {kind : Kind} (layout : kind ≠ .endMarker)
    {next otherNext : Token → Parse β}
    (later : ∀ token, (next token).Steady guard room (fun _ => False) (otherNext token)) :
    (Parse.expectKind kind >>= next).Steady guard room takes
      (Parse.expectKind kind >>= otherNext) := by
  have required : (Parse.expectKind kind).Steady guard room (fun _ => True)
      (Parse.expectKind kind) := by
    intro state listed within
    refine .look (fun state => decide (state.current.kind = kind)) rfl
      (by rw [State.guarded_current]) ?_
    by_cases found : state.current.kind = kind
    · rw [decide_eq_true found, if_pos rfl]
      exact .advance_alone listed (State.ahead_of_kind (by rw [found]; exact layout))
    · rw [decide_eq_false found, if_neg Bool.false_ne_true]
      exact failExpected_steady state listed within
  exact required.bind_taken later

/-- A name that is no reserved word is taken, and anything else is refused. -/
theorem Steady.named {make : Token → Token → β} {refuse : Parse β}
    (refuses : refuse.Steady guard room (fun _ => True) refuse) :
    (do
      let token ← Parse.current
      if token.kind = .name && !token.isKeyword then return make token (← Parse.advance)
      else refuse : Parse β).Steady guard room (fun _ => True) (do
      let token ← Parse.current
      if token.kind = .name && !token.isKeyword then return make token (← Parse.advance)
      else refuse) := by
  intro state listed within
  refine .look State.current rfl State.guarded_current ?_
  by_cases named : (decide (state.current.kind = .name) && !state.current.isKeyword) = true
  · rw [if_pos named]
    rw [Bool.and_eq_true, decide_eq_true_eq] at named
    have front := State.ahead_of_kind (by rw [named.1]; decide)
    exact .advance listed front fun _ onward _ => .pure onward id
  · rw [if_neg named]
    exact refuses state listed within

/-- A name is required. -/
theorem expectName_steady :
    expectName.Steady guard room (fun _ => True) expectName :=
  .named failExpected_steady

/-- A text is taken if it is in front and a condition holds. -/
theorem Steady.eat_if {condition : Bool} {text : String}
    {next otherNext missing otherMissing : Parse β}
    (taken : next.Steady guard room (fun _ => False) otherNext)
    (stays : missing.Steady guard room (fun _ => False) otherMissing) :
    (do if condition && (← Parse.check text) then do let _ ← Parse.advance; next
        else missing : Parse β).Steady guard room (fun _ => False)
      (do if condition && (← Parse.check text) then do let _ ← Parse.advance; otherNext
          else otherMissing) := by
  intro state listed within
  refine .look (fun state => state.current.isText text) rfl State.guarded_isText ?_
  by_cases both : (condition && state.current.isText text) = true
  · rw [if_pos both, if_pos both]
    have front := State.ahead_of_isText (Bool.and_eq_true_iff.1 both).2
    exact .advance listed front fun between onward fewer => taken between onward (by omega)
  · rw [if_neg both, if_neg both]
    exact stays state listed within

/-- A name is required, and a parser follows. -/
theorem Steady.expectName {next otherNext : String → Parse β}
    (later : ∀ name, (next name).Steady guard room (fun _ => False) (otherNext name)) :
    (Parse.expectName >>= next).Steady guard room takes (Parse.expectName >>= otherNext) :=
  expectName_steady.bind_taken later

/-- A decorator is put behind those that wait. -/
theorem pushDecorator_steady {decorator : Expr} :
    (pushDecorator decorator).Steady guard room (fun _ => False) (pushDecorator decorator) :=
  fun _ listed _ => .of_ok rfl rfl ⟨listed.grammar, listed.failure⟩ (Nat.le_refl _)

/-- The decorators that wait are taken. -/
theorem takeDecorators_steady :
    takeDecorators.Steady guard room (fun _ => False) takeDecorators :=
  fun _ listed _ => .of_ok rfl rfl ⟨listed.grammar, listed.failure⟩ (Nat.le_refl _)

/-- Two loops with the same turns. A turn that goes on takes a token, so no bound that is as great
as the room is met. -/
theorem Steady.loop {turn otherTurn : α → Parse (Turn α β)}
    (turns : ∀ value, (turn value).Steady guard room Turn.GoesOn (otherTurn value))
    {bound otherBound : Nat} (enough : room ≤ bound) (otherEnough : room ≤ otherBound) {value : α} :
    (Parse.loop turn bound value).Steady guard room (fun _ => False)
      (Parse.loop otherTurn otherBound value) := by
  have main (bound : Nat) : ∀ (otherBound : Nat) (value : α) (state : State), state.Listed →
      state.ahead.length < room → state.ahead.length < bound → state.ahead.length < otherBound →
        SteadyAt guard (fun _ => False) state (Parse.loop turn bound value)
          (Parse.loop otherTurn otherBound value) := by
    induction bound with
    | zero =>
      intro _ _ state _ _ short
      exact absurd short (Nat.not_lt_zero _)
    | succ bound ih =>
      intro otherBound value state listed within short otherShort
      obtain ⟨otherBound, rfl⟩ : ∃ less, otherBound = less + 1 := ⟨otherBound - 1, by omega⟩
      refine (turns value state listed within).bind fun result between onward fewer taken => ?_
      cases result with
      | done out => exact .pure onward id
      | again more =>
        have shorter := taken trivial
        exact ih otherBound more between onward (by omega) (by omega) (by omega)
  intro state listed within
  exact main bound otherBound value state listed within (by omega) (by omega)

end rules

section consumes

variable {takes : β → Prop}

/-- What takes a token from everywhere does so from a token in front. -/
theorem Steady.consumes {parser other : Parse β}
    (steady : parser.Steady guard (room + 1) (fun _ => True) other) :
    parser.Consumes guard room other :=
  fun state listed _ within => steady state listed within

/-- The token in front is taken, and a parser follows. -/
theorem Consumes.advance {next otherNext : Token → Parse β}
    (later : ∀ token, (next token).Steady guard room (fun _ => False) (otherNext token)) :
    (Parse.advance >>= next).Consumes guard room (Parse.advance >>= otherNext) :=
  fun _ listed front within =>
    .advance listed front fun between onward fewer => later _ between onward (by omega)

/-- A look at the token in front. -/
theorem Consumes.current {next otherNext : Token → Parse β}
    (later : ∀ token, (next token).Consumes guard room (otherNext token)) :
    (Parse.current >>= next).Consumes guard room (Parse.current >>= otherNext) :=
  fun state listed front within =>
    .look State.current rfl State.guarded_current (later _ state listed front within)

/-- A value or a failure. -/
theorem Consumes.lift {value : Except Cause α} {next otherNext : α → Parse β}
    (later : ∀ out, (next out).Consumes guard room (otherNext out)) :
    (Parse.lift value >>= next).Consumes guard room (Parse.lift value >>= otherNext) := by
  cases value with
  | ok out => exact later out
  | error cause =>
    have failed : (Parse.fail cause : Parse β).Consumes guard room (Parse.fail cause) :=
      Steady.fail.consumes
    exact failed

/-- A parser that takes the token in front, and a parser behind it. -/
theorem Consumes.bind {parser other : Parse α} {next otherNext : α → Parse β}
    (first : parser.Consumes guard room other)
    (later : ∀ value, (next value).Steady guard room (fun _ => False) (otherNext value)) :
    (parser >>= next).Consumes guard room (other >>= otherNext) := by
  intro state listed front within
  refine (first state listed front within).bind_taken fun value between onward fewer => ?_
  exact later value between onward (by omega)

end consumes

end Parse

end Offside
