import Offside.Proofs.Grammar.Phrase

/-!
# Parsers that follow the grammar

A parser follows the grammar if what it takes, where it succeeds, is covered by symbols that fit
what it gives (`Parse.Follows`). The symbols that have been read are carried along from the start
of a phrase, and what is known of the token in front is carried to the place where it is taken.
The decorators that wait before and behind are told as well. Each way of putting parsers together
has a rule. A parser of a whole phrase is told by `Parse.Makes`, and a loop makes a phrase if each
of its turns follows a production of it.
-/
namespace Offside

open Literal

/-- A terminal never asks for the end mark. -/
theorem Terminal.Admits.kind_ne {terminal : Terminal} {token : Token}
    (admits : terminal.Admits token) : token.kind ≠ .endMarker := by
  intro last
  have named {written : String} (found : token.isText written = true) : False := by
    rw [Token.isText, last] at found
    simp at found
  cases terminal with
  | text => exact named admits
  | word => exact named admits.1
  | layout kind =>
    obtain ⟨same, layout⟩ := admits
    rw [← same, last] at layout
    contradiction
  | identifier | name | number | string | augmented =>
    have kind := admits.1
    rw [last] at kind
    contradiction

/-- A name that is no reserved word is what the terminal for its text asks for. -/
theorem Terminal.admits_identifier {token : Token}
    (named : (token.kind = .name && !token.isKeyword) = true) :
    (Terminal.identifier token.value).Admits token := by
  rw [Bool.and_eq_true, decide_eq_true_eq, Bool.not_eq_true', Token.isKeyword] at named
  obtain ⟨kind, free⟩ := named
  rw [kind] at free
  exact ⟨kind, rfl, free⟩

namespace State

/-- From one state to another the tokens that symbols cover are taken. The grammar and the fault
that waits are kept, and while a fault waits the tokens are not used up. -/
structure Moves (symbols : List Symbol) (start behind : State) : Prop where
  /-- The symbols cover what is taken. -/
  covers : Covers symbols start.ahead behind.ahead
  /-- The grammar is kept. -/
  grammar : behind.grammar = start.grammar
  /-- The fault is kept. -/
  failure : behind.failure = start.failure
  /-- The tokens are not used up while a fault waits. -/
  guarded : start.failure ≠ none → start.ahead ≠ [] → behind.ahead ≠ []

variable {first second body : List Symbol} {start between behind : State}

/-- Symbols in order are covered in order. -/
theorem Moves.append (front : Moves first start between) (back : Moves second between behind) :
    Moves (first ++ second) start behind where
  covers := front.covers.append back.covers
  grammar := back.grammar.trans front.grammar
  failure := back.failure.trans front.failure
  guarded := fun waits some_ =>
    back.guarded (by rwa [front.failure]) (front.guarded waits some_)

/-- A phrase is covered as a production of it is. -/
theorem Moves.phrase {phrase : Phrase} (production : Production phrase body)
    (inside : Moves body start behind) : Moves [.phrase phrase] start behind :=
  { inside with covers := inside.covers.phrase production }

/-- Nothing is taken. -/
theorem Moves.refl (state : State) : Moves [] state state where
  covers := ⟨[], .nil⟩
  grammar := rfl
  failure := rfl
  guarded := fun _ some_ => some_

/-- Expressions may be dropped behind symbols. -/
theorem Moves.drop (elements : List Expr) (front : Moves first start behind) :
    Moves (first ++ [.dropped elements]) start behind :=
  { front with covers := front.covers.append ⟨_, .dropped .nil⟩ }

end State

namespace Parse

open State

variable {α β : Type}

/-- The result of two parsers in order is that of the second one behind the first one. -/
theorem bind_ok {parser : Parse α} {next : α → Parse β} {state behind : State} {out : β}
    (read : (parser >>= next) state = .ok out behind) :
    ∃ value between, parser state = .ok value between ∧ next value between = .ok out behind := by
  rw [Bind.bind, Monad.toBind, EStateM.instMonad] at read
  simp only [EStateM.bind] at read
  split at read
  · rename_i value between first
    exact ⟨value, between, first, read⟩
  · contradiction

/-- Two parsers in order where the first one succeeds. -/
theorem bind_of_ok {parser : Parse α} {next : α → Parse β} {state behind : State} {value : α}
    (read : parser state = .ok value behind) : (parser >>= next) state = next value behind := by
  show EStateM.bind parser next state = next value behind
  rw [EStateM.bind, read]

/-- Two parsers in order where the first one fails. -/
theorem bind_of_error {parser : Parse α} {next : α → Parse β} {state behind : State}
    {fault : Fault} (failed : parser state = .error fault behind) :
    (parser >>= next) state = .error fault behind := by
  show EStateM.bind parser next state = .error fault behind
  rw [EStateM.bind, failed]

/-- The result of a value alone. -/
theorem pure_ok {value out : α} {state behind : State}
    (read : (pure value : Parse α) state = .ok out behind) : out = value ∧ behind = state := by
  obtain ⟨rfl, rfl⟩ := EStateM.Result.ok.inj read
  exact ⟨rfl, rfl⟩

/-- A missing expression gives nothing. -/
theorem failExpression_ne {state behind : State} {out : α} :
    (failExpression : Parse α) state ≠ .ok out behind := by
  intro read
  obtain ⟨token, middle, -, tail⟩ := bind_ok read
  cases kind : token.kind <;> simp only [kind] at tail <;> contradiction

/-- The token in front is taken, if a terminal asks for it. -/
theorem advance_ok (terminal : Terminal) {state behind : State} {token : Token}
    (admits : terminal.Admits state.current) (read : advance state = .ok token behind) :
    token = state.current ∧ Moves [.terminal terminal] state behind ∧
      behind.decorators = state.decorators := by
  obtain ⟨ahead, line, failure, file, grammar, decorators⟩ := state
  have moves {token : Token} {later : List Token} (asked : terminal.Admits token)
      (guarded : failure ≠ none → later ≠ []) :
      Moves [.terminal terminal] ⟨token :: later, line, failure, file, grammar, decorators⟩
        ⟨later, token.line, failure, file, grammar, decorators⟩ :=
    ⟨⟨[], .terminal asked .nil⟩, rfl, rfl, fun waits _ => guarded waits⟩
  cases ahead with
  | nil => exact absurd rfl admits.kind_ne
  | cons front later =>
    cases later with
    | nil =>
      cases failure with
      | none =>
        obtain ⟨rfl, rfl⟩ := EStateM.Result.ok.inj read
        exact ⟨rfl, moves admits (fun waits => absurd rfl waits), rfl⟩
      | some fault => contradiction
    | cons second later =>
      obtain ⟨rfl, rfl⟩ := EStateM.Result.ok.inj read
      exact ⟨rfl, moves admits (fun _ => by simp), rfl⟩

/-- A name or an operator is taken if it is in front. -/
theorem eat_ok {text : String} {state behind : State} {found : Bool}
    (read : eat text state = .ok found behind) :
    (found = true ∧ state.current.isText text = true ∧ Moves [.text text] state behind ∧
      behind.decorators = state.decorators) ∨
    (found = false ∧ state.current.isText text = false ∧ behind = state) := by
  obtain ⟨written, same, looked, read⟩ := bind_ok read
  obtain ⟨rfl, rfl⟩ := EStateM.Result.ok.inj looked
  by_cases written : state.current.isText text = true
  · rw [if_pos written] at read
    obtain ⟨token, last, read, done⟩ := bind_ok read
    obtain ⟨rfl, rfl⟩ := pure_ok done
    obtain ⟨-, moved, kept⟩ := advance_ok (.text text) written read
    exact .inl ⟨rfl, written, moved, kept⟩
  · rw [if_neg written] at read
    obtain ⟨rfl, rfl⟩ := pure_ok read
    rw [Bool.not_eq_true] at written
    exact .inr ⟨rfl, written, rfl⟩

/-- A kind that is required is in front, and a mark of the layout is taken. -/
theorem expectKind_ok {kind : Kind} {state behind : State} {token : Token}
    (read : expectKind kind state = .ok token behind) :
    state.current.kind = kind ∧ (kind.isLayout = true →
      Moves [.terminal (.layout kind)] state behind ∧ behind.decorators = state.decorators) := by
  obtain ⟨known, same, looked, read⟩ := bind_ok read
  obtain ⟨rfl, rfl⟩ := EStateM.Result.ok.inj looked
  by_cases known : state.current.kind = kind
  · rw [if_pos (decide_eq_true known)] at read
    refine ⟨known, fun layout => ?_⟩
    exact (advance_ok (.layout kind) ⟨known, layout⟩ read).2
  · rw [if_neg (by simp [known])] at read
    obtain ⟨_, _, -, failed⟩ := bind_ok read
    contradiction

/-- Behind the symbols before it, the parser takes what further symbols cover, so that all of
them fit what it gives. The grammar is the standard one, the token in front is as the predicate
says, and decorators wait before and behind as given. -/
def Follows (waiting after : List Expr) (parser : Parse α) (front : Token → Prop)
    (before : List Symbol) (fits : α → List Symbol → Prop) : Prop :=
  ∀ start state out behind, start.grammar = .standard → state.decorators = waiting →
    Moves before start state → front state.current → parser state = .ok out behind →
    ∃ symbols, fits out symbols ∧ Moves symbols start behind ∧ behind.decorators = after

/-- The parser reads a phrase and keeps the decorators that wait. -/
def Makes (waiting : List Expr) (parser : Parse α) (phrase : α → Phrase) : Prop :=
  ∀ state out behind, state.grammar = .standard → state.decorators = waiting →
    parser state = .ok out behind →
    Moves [.phrase (phrase out)] state behind ∧ behind.decorators = waiting

/-- A parser that follows the productions of a phrase covers the phrase. -/
theorem Follows.moves {waiting after : List Expr} {parser : Parse α} {front : Token → Prop}
    {phrase : α → Phrase}
    (follows : parser.Follows waiting after front [] fun out => Production (phrase out))
    {state behind : State} {out : α} (standard : state.grammar = .standard)
    (waits : state.decorators = waiting) (known : front state.current)
    (read : parser state = .ok out behind) :
    Moves [.phrase (phrase out)] state behind ∧ behind.decorators = after := by
  obtain ⟨symbols, production, moves, kept⟩ :=
    follows state state out behind standard waits (.refl state) known read
  exact ⟨moves.phrase production, kept⟩

/-- A parser that follows the productions of a phrase reads it. -/
theorem Follows.makes {waiting : List Expr} {parser : Parse α} {phrase : α → Phrase}
    (follows : parser.Follows waiting waiting (fun _ => True) [] fun out =>
      Production (phrase out)) :
    parser.Makes waiting phrase :=
  fun _ _ _ standard waits read => follows.moves standard waits trivial read

section rules

variable {waiting after : List Expr} {front : Token → Prop} {before : List Symbol}
  {fits : β → List Symbol → Prop}

/-- A value without reading. -/
theorem Follows.pure {value : β} (fit : fits value before) :
    (Pure.pure value : Parse β).Follows waiting waiting front before fits := by
  intro start state out behind _ waits moves _ read
  obtain ⟨rfl, rfl⟩ := pure_ok read
  exact ⟨before, fit, moves, waits⟩

/-- Two parsers in order. -/
theorem Follows.bind {inner : List Expr} {parser : Parse α} {next : α → Parse β}
    {between : α → List Symbol → Prop}
    (first : parser.Follows waiting inner front before between)
    (later : ∀ value symbols, between value symbols →
      (next value).Follows inner after (fun _ => True) symbols fits) :
    (parser >>= next).Follows waiting after front before fits := by
  intro start state out behind standard waits moves known read
  obtain ⟨value, middle, head, tail⟩ := bind_ok read
  obtain ⟨symbols, fit, moved, kept⟩ :=
    first start state value middle standard waits moves known head
  exact later value symbols fit start middle out behind standard kept moved trivial tail

/-- A phrase, and a parser behind it. -/
theorem Makes.bind {parser : Parse α} {phrase : α → Phrase} {next : α → Parse β}
    (first : parser.Makes waiting phrase)
    (later : ∀ value, (next value).Follows waiting after (fun _ => True)
      (before ++ [.phrase (phrase value)]) fits) :
    (parser >>= next).Follows waiting after front before fits := by
  intro start state out behind standard waits moves _ read
  obtain ⟨value, middle, head, tail⟩ := bind_ok read
  obtain ⟨moved, kept⟩ := first state value middle (moves.grammar.trans standard) waits head
  exact later value start middle out behind standard kept (moves.append moved) trivial tail

/-- A phrase at the end. -/
theorem Makes.last {parser : Parse β} {phrase : β → Phrase} (last : parser.Makes waiting phrase)
    (fit : ∀ out, fits out (before ++ [.phrase (phrase out)])) :
    parser.Follows waiting waiting front before fits := by
  intro start state out behind standard waits moves _ read
  obtain ⟨moved, kept⟩ := last state out behind (moves.grammar.trans standard) waits read
  exact ⟨_, fit out, moves.append moved, kept⟩

/-- A phrase at the end, behind which other decorators wait. -/
theorem Follows.last {parser : Parse β} {phrase : β → Phrase}
    (last : parser.Follows waiting after front [] fun out => Production (phrase out))
    (fit : ∀ out, fits out (before ++ [.phrase (phrase out)])) :
    parser.Follows waiting after front before fits := by
  intro start state out behind standard waits moves known read
  obtain ⟨moved, kept⟩ := last.moves (moves.grammar.trans standard) waits known read
  exact ⟨_, fit out, moves.append moved, kept⟩

/-- A phrase, and a parser behind it and behind other decorators. -/
theorem Follows.bind_phrase {inner : List Expr} {parser : Parse α} {phrase : α → Phrase}
    {next : α → Parse β}
    (first : parser.Follows waiting inner front [] fun out => Production (phrase out))
    (later : ∀ value, (next value).Follows inner after (fun _ => True)
      (before ++ [.phrase (phrase value)]) fits) :
    (parser >>= next).Follows waiting after front before fits := by
  have whole : parser.Follows waiting inner front before fun out symbols =>
      symbols = before ++ [.phrase (phrase out)] := first.last fun _ => rfl
  exact whole.bind fun value symbols same => same ▸ later value

/-- What is known of the token in front may be used. -/
theorem Follows.known {parser : Parse β}
    (follows : ∀ token, front token → parser.Follows waiting after front before fits) :
    parser.Follows waiting after front before fits :=
  fun start state out behind standard waits moves known read =>
    follows _ known start state out behind standard waits moves known read

/-- Less may be known of the token in front. -/
theorem Follows.weaken {known : Token → Prop} {parser : Parse β}
    (follows : parser.Follows waiting after known before fits)
    (weaker : ∀ token, front token → known token) :
    parser.Follows waiting after front before fits :=
  fun start state out behind standard waits moves known read =>
    follows start state out behind standard waits moves (weaker _ known) read

/-- What the parser gives may fit less. -/
theorem Follows.weaken_fits {parser : Parse β} {fitted : β → List Symbol → Prop}
    (follows : parser.Follows waiting after front before fitted)
    (weaker : ∀ out symbols, fitted out symbols → fits out symbols) :
    parser.Follows waiting after front before fits := by
  intro start state out behind standard waits moves known read
  obtain ⟨symbols, fit, moved, kept⟩ :=
    follows start state out behind standard waits moves known read
  exact ⟨symbols, weaker _ _ fit, moved, kept⟩

/-- The symbols before are put together to a phrase. -/
theorem Follows.reduce {parser : Parse β} {phrase : Phrase} (production : Production phrase before)
    (follows : parser.Follows waiting after front [.phrase phrase] fits) :
    parser.Follows waiting after front before fits :=
  fun start state out behind standard waits moves known read =>
    follows start state out behind standard waits (moves.phrase production) known read

/-- The last symbols before are put together to a phrase. -/
theorem Follows.reduce_last (before : List Symbol) {parser : Parse β} {phrase : Phrase}
    {body : List Symbol} (production : Production phrase body)
    (follows : parser.Follows waiting after front (before ++ [.phrase phrase]) fits) :
    parser.Follows waiting after front (before ++ body) fits :=
  fun start state out behind standard waits moves known read =>
    follows start state out behind standard waits
      { moves with covers := moves.covers.phrase_last production } known read

/-- Expressions are dropped. -/
theorem Follows.drop {parser : Parse β} (elements : List Expr)
    (follows : parser.Follows waiting after front (before ++ [.dropped elements]) fits) :
    parser.Follows waiting after front before fits :=
  fun start state out behind standard waits moves known read =>
    follows start state out behind standard waits (moves.drop elements) known read

/-- A failure gives nothing. -/
theorem Follows.fail {cause : Cause} :
    (Parse.fail cause : Parse β).Follows waiting after front before fits := by
  intro start state out behind _ _ _ _ read
  contradiction

/-- A value or a failure. -/
theorem Follows.lift {result : Except Cause α} {next : α → Parse β}
    (later : ∀ value, result = .ok value → (next value).Follows waiting after front before fits) :
    (Parse.lift result >>= next).Follows waiting after front before fits := by
  intro start state out behind standard waits moves known read
  obtain ⟨value, middle, head, tail⟩ := bind_ok read
  cases result with
  | error cause => contradiction
  | ok found =>
    obtain ⟨rfl, rfl⟩ := pure_ok head
    exact later value rfl start middle out behind standard waits moves known tail

/-- A look at the token in front. -/
theorem Follows.current {next : Token → Parse β}
    (later : ∀ token, front token →
      (next token).Follows waiting after (fun found => found = token) before fits) :
    (Parse.current >>= next).Follows waiting after front before fits := by
  intro start state out behind standard waits moves known read
  exact later state.current known start state out behind standard waits moves rfl read

/-- A look for a name or an operator. -/
theorem Follows.check {text : String} {next : Bool → Parse β}
    (later : ∀ found, (next found).Follows waiting after
      (fun token => front token ∧ token.isText text = found) before fits) :
    (Parse.check text >>= next).Follows waiting after front before fits := by
  intro start state out behind standard waits moves known read
  exact later _ start state out behind standard waits moves ⟨known, rfl⟩ read

/-- A look for a kind. -/
theorem Follows.checkKind {kind : Kind} {next : Bool → Parse β}
    (later : ∀ found, (next found).Follows waiting after
      (fun token => front token ∧ decide (token.kind = kind) = found) before fits) :
    (Parse.checkKind kind >>= next).Follows waiting after front before fits := by
  intro start state out behind standard waits moves known read
  exact later _ start state out behind standard waits moves ⟨known, rfl⟩ read

/-- A look for the end of an expression. -/
theorem Follows.atDelimiter {next : Bool → Parse β}
    (later : ∀ found, (next found).Follows waiting after front before fits) :
    (Parse.atDelimiter >>= next).Follows waiting after front before fits := by
  intro start state out behind standard waits moves known read
  exact later _ start state out behind standard waits moves known read

/-- A look for the rule of the compound statement that starts with the token in front. -/
theorem Follows.compoundRule? {next : Option StatementRule → Parse β}
    (later : ∀ found, (next found).Follows waiting after
      (fun token => Grammar.statementRule? Grammar.standard.compound token = found) before fits) :
    (Parse.compoundRule? >>= next).Follows waiting after front before fits := by
  intro start state out behind standard waits moves known read
  refine later _ start state out behind standard waits moves ?_ read
  rw [moves.grammar, standard]

/-- A look for the rule of the simple statement that starts with the token in front. -/
theorem Follows.simpleRule? {next : Option StatementRule → Parse β}
    (later : ∀ found, (next found).Follows waiting after
      (fun token => Grammar.statementRule? Grammar.standard.simple token = found) before fits) :
    (Parse.simpleRule? >>= next).Follows waiting after front before fits := by
  intro start state out behind standard waits moves known read
  refine later _ start state out behind standard waits moves ?_ read
  rw [moves.grammar, standard]

/-- A look for decorators that wait. -/
theorem Follows.hasDecorators {next : Bool → Parse β}
    (later : (next !waiting.isEmpty).Follows waiting after front before fits) :
    (Parse.hasDecorators >>= next).Follows waiting after front before fits := by
  intro start state out behind standard waits moves known read
  subst waits
  exact later start state out behind standard rfl moves known read

/-- The decorators that wait are taken. -/
theorem Follows.takeDecorators {next : List Expr → Parse β}
    (later : (next waiting).Follows [] after front before fits) :
    (Parse.takeDecorators >>= next).Follows waiting after front before fits := by
  intro start state out behind standard waits moves known read
  subst waits
  exact later start { state with decorators := [] } out behind standard rfl
    ⟨moves.covers, moves.grammar, moves.failure, moves.guarded⟩ known read

/-- A look for the meaning of the token in front. -/
theorem Follows.behavior? {next : Option Behavior → Parse β}
    (later : ∀ found, (next found).Follows waiting after
      (fun token => front token ∧ token.behavior? = found) before fits) :
    (Parse.behavior? >>= next).Follows waiting after front before fits := by
  intro start state out behind standard waits moves known read
  obtain ⟨found, middle, head, tail⟩ := bind_ok read
  have looked : Parse.behavior? state = .ok (state.grammar.behavior? state.current) state := rfl
  obtain ⟨rfl, rfl⟩ := EStateM.Result.ok.inj (looked.symm.trans head)
  refine later _ start state out behind standard waits moves ⟨known, ?_⟩ tail
  rw [moves.grammar, standard, Token.behavior?]

/-- The token in front is taken. -/
theorem Follows.advance (terminal : Token → Terminal) {next : Token → Parse β}
    (admits : ∀ token, front token → (terminal token).Admits token)
    (later : ∀ token, front token → (next token).Follows waiting after (fun _ => True)
      (before ++ [.terminal (terminal token)]) fits) :
    (Parse.advance >>= next).Follows waiting after front before fits := by
  intro start state out behind standard waits moves known read
  obtain ⟨token, middle, head, tail⟩ := bind_ok read
  obtain ⟨rfl, moved, kept⟩ := advance_ok (terminal _) (admits _ known) head
  exact later _ known start middle out behind standard (kept.trans waits) (moves.append moved)
    trivial tail

/-- A name or an operator that is in front is taken. -/
theorem Follows.advance_text {text : String} {next : Token → Parse β}
    (written : ∀ token, front token → token.isText text = true)
    (later : ∀ token, front token → (next token).Follows waiting after (fun _ => True)
      (before ++ [.text text]) fits) :
    (Parse.advance >>= next).Follows waiting after front before fits :=
  .advance (fun _ => .text text) written later

/-- A name or an operator is taken if it is in front, where something is known of it. -/
theorem Follows.eat_known {text : String} {next : Bool → Parse β}
    (taken : ∀ token, front token → token.isText text = true →
      (next true).Follows waiting after (fun _ => True) (before ++ [.text text]) fits)
    (other : (next false).Follows waiting after
      (fun token => front token ∧ token.isText text = false) before fits) :
    (Parse.eat text >>= next).Follows waiting after front before fits := by
  intro start state out behind standard waits moves known read
  obtain ⟨found, middle, head, tail⟩ := bind_ok read
  rcases eat_ok head with ⟨rfl, written, moved, kept⟩ | ⟨rfl, differs, rfl⟩
  · exact taken _ known written start middle out behind standard (kept.trans waits)
      (moves.append moved) trivial tail
  · exact other start middle out behind standard waits moves ⟨known, differs⟩ tail

/-- A name or an operator is taken if it is in front. -/
theorem Follows.eat {text : String} {next : Bool → Parse β}
    (taken : (next true).Follows waiting after (fun _ => True) (before ++ [.text text]) fits)
    (other : (next false).Follows waiting after
      (fun token => front token ∧ token.isText text = false) before fits) :
    (Parse.eat text >>= next).Follows waiting after front before fits :=
  .eat_known (fun _ _ _ => taken) other

/-- A failure that names the token in front gives nothing. -/
theorem Follows.failExpected {expected : String} :
    (Parse.failExpected expected : Parse β).Follows waiting after front before fits :=
  .current fun _ _ => .fail

/-- A missing expression gives nothing. -/
theorem Follows.failExpression :
    (Parse.failExpression : Parse β).Follows waiting after front before fits := by
  refine .current fun token _ => ?_
  split <;> exact .fail

/-- A missing statement gives nothing. -/
theorem Follows.failStatement :
    (Parse.failStatement : Parse β).Follows waiting after front before fits := by
  refine .current fun token _ => ?_
  split <;> exact .fail

/-- A name or an operator is required: a parser looks for it and takes it. -/
theorem expect_bind {text : String} {next : Token → Parse β} :
    Parse.expect text >>= next = Parse.check text >>= fun found =>
      (if found then Parse.advance else Parse.failExpected text) >>= next := by
  rw [Parse.expect, bind_assoc]

/-- A name or an operator is required, for a terminal that asks for it. -/
theorem Follows.expect_of {text : String} (terminal : Token → Terminal) {next : Token → Parse β}
    (admits : ∀ token, token.isText text = true → (terminal token).Admits token)
    (later : ∀ token, front token → (next token).Follows waiting after (fun _ => True)
      (before ++ [.terminal (terminal token)]) fits) :
    (Parse.expect text >>= next).Follows waiting after front before fits := by
  rw [expect_bind]
  refine .check fun found => ?_
  cases found with
  | true =>
    exact .advance terminal (fun token known => admits token known.2) fun token known =>
      later token known.1
  | false =>
    have refused : (Parse.failExpected text : Parse Token).Follows waiting after
      (fun token => front token ∧ token.isText text = false) before fun _ _ => False :=
        .failExpected
    exact refused.bind fun _ _ => False.elim

/-- A name or an operator is required. -/
theorem Follows.expect {text : String} {next : Token → Parse β}
    (later : ∀ token, (next token).Follows waiting after (fun _ => True)
      (before ++ [.text text]) fits) :
    (Parse.expect text >>= next).Follows waiting after front before fits :=
  .expect_of (fun _ => .text text) (fun _ written => written) fun token _ => later token

/-- A mark of the layout is required. -/
theorem Follows.expectKind {kind : Kind} {next : Token → Parse β} (layout : kind.isLayout = true)
    (later : ∀ token, (next token).Follows waiting after (fun _ => True)
      (before ++ [.terminal (.layout kind)]) fits) :
    (Parse.expectKind kind >>= next).Follows waiting after front before fits := by
  intro start state out behind standard waits moves known read
  obtain ⟨token, middle, head, tail⟩ := bind_ok read
  obtain ⟨moved, kept⟩ := (expectKind_ok head).2 layout
  exact later token start middle out behind standard (kept.trans waits) (moves.append moved) trivial
    tail

/-- A mark of the layout is taken if it is in front. -/
theorem Follows.eatKind {kind : Kind} {next : Bool → Parse β} (layout : kind.isLayout = true)
    (taken : (next true).Follows waiting after (fun _ => True)
      (before ++ [.terminal (.layout kind)]) fits)
    (other : (next false).Follows waiting after front before fits) :
    (Parse.eatKind kind >>= next).Follows waiting after front before fits := by
  intro start state out behind standard waits moves known read
  obtain ⟨found, middle, head, tail⟩ := bind_ok read
  obtain ⟨written, same, looked, head⟩ := bind_ok head
  obtain ⟨rfl, rfl⟩ := EStateM.Result.ok.inj looked
  have inner : kind ≠ .endMarker := by
    rintro rfl
    contradiction
  by_cases written : state.current.kind = kind
  · rw [if_pos (by simp [written, inner])] at head
    obtain ⟨token, last, head, done⟩ := bind_ok head
    obtain ⟨rfl, rfl⟩ := pure_ok done
    obtain ⟨rfl, moved, kept⟩ := advance_ok (.layout kind) ⟨written, layout⟩ head
    exact taken start middle out behind standard (kept.trans waits) (moves.append moved) trivial
      tail
  · rw [if_neg (by simp [written])] at head
    obtain ⟨rfl, rfl⟩ := pure_ok head
    exact other start middle out behind standard waits moves known tail

/-- A name that is no reserved word is required. -/
theorem Follows.expectName {next : String → Parse β}
    (later : ∀ id,
      (next id).Follows waiting after (fun _ => True) (before ++ [.identifier id]) fits) :
    (Parse.expectName >>= next).Follows waiting after front before fits := by
  have taken : Parse.expectName.Follows waiting waiting front before
      fun id symbols => symbols = before ++ [.identifier id] := ?taken
  · exact taken.bind fun id symbols same => same ▸ later id
  refine .current fun token _ => ?_
  by_cases named : (token.kind = .name && !token.isKeyword) = true
  · rw [if_pos named]
    refine .advance (fun _ => .identifier token.value) ?_ ?_
    · rintro _ rfl
      exact Terminal.admits_identifier named
    · rintro _ rfl
      exact .pure rfl
  · rw [if_neg named]
    exact .failExpected

/-- The end of an expression that is no comprehension without brackets. -/
theorem Follows.finish {parsed : Parsed} {next : Expr → Parse β}
    (later : parsed.Bare → (next parsed.expr).Follows waiting after front before fits) :
    (parsed.finish >>= next).Follows waiting after front before fits := by
  intro start state out behind standard waits moves known read
  obtain ⟨value, middle, head, tail⟩ := bind_ok read
  rw [Parsed.finish] at head
  split at head
  · contradiction
  · rename_i bare
    obtain ⟨rfl, rfl⟩ := pure_ok head
    exact later bare start middle out behind standard waits moves known tail

end rules

section loops

variable {waiting : List Expr} {turn : α → Parse (Turn α β)}

/-- What a turn of a loop has read is part of a production of the phrase that the loop makes: all
of it at the last turn, and what is before the rest of the phrase at each other turn. -/
def TurnFits (holds : α → Prop) (phrase : α → β → Phrase) (found : α) (result : Turn α β)
    (symbols : List Symbol) : Prop :=
  match result with
  | .again next => holds next ∧
    ∀ out, Production (phrase found out) (symbols ++ [.phrase (phrase next out)])
  | .done out => Production (phrase found out) symbols

/-- A loop whose turns follow the productions of a phrase and keep an invariant makes the
phrase. -/
theorem Makes.loop_of (holds : α → Prop) (phrase : α → β → Phrase)
    (turns : ∀ found, holds found →
      (turn found).Follows waiting waiting (fun _ => True) [] (TurnFits holds phrase found))
    (bound : Nat) {found : α} (start : holds found) :
    (loop turn bound found).Makes waiting (phrase found) := by
  induction bound generalizing found with
  | zero =>
    exact Follows.makes .failExpression
  | succ bound ih =>
    intro state out behind standard waits read
    obtain ⟨result, middle, head, tail⟩ := bind_ok read
    obtain ⟨symbols, fit, moves, kept⟩ :=
      turns found start state state result middle standard waits (.refl state) trivial head
    cases result with
    | again next =>
      obtain ⟨moved, kept⟩ := ih fit.1 middle out behind (moves.grammar.trans standard) kept tail
      exact ⟨(moves.append moved).phrase (fit.2 out), kept⟩
    | done last =>
      obtain ⟨rfl, rfl⟩ := pure_ok tail
      exact ⟨moves.phrase fit, kept⟩

/-- A loop whose turns follow the productions of a phrase makes the phrase. -/
theorem Makes.loop (phrase : α → β → Phrase)
    (turns : ∀ found, (turn found).Follows waiting waiting (fun _ => True) []
      (TurnFits (fun _ => True) phrase found))
    (bound : Nat) (found : α) : (loop turn bound found).Makes waiting (phrase found) :=
  .loop_of (fun _ => True) phrase (fun found _ => turns found) bound trivial

/-- What the last turn of a loop leaves is what the loop leaves. -/
theorem loop_last (holds : β → State → Prop) {bound : Nat} {found : α} {state behind : State}
    {out : β}
    (last : ∀ found state out behind, turn found state = .ok (.done out) behind → holds out behind)
    (read : loop turn bound found state = .ok out behind) : holds out behind := by
  induction bound generalizing found state with
  | zero => exact absurd read failExpression_ne
  | succ bound ih =>
    obtain ⟨result, middle, head, tail⟩ := bind_ok read
    cases result with
    | again next => exact ih tail
    | done out =>
      obtain ⟨rfl, rfl⟩ := pure_ok tail
      exact last _ _ _ _ head

end loops

end Parse

end Offside
