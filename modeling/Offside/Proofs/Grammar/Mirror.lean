import Mathlib.Data.List.Forall2
import Offside.Proofs.Grammar.Follows

/-!
# Parsers side by side

Two parsers run on tokens that are alike up to a seam, behind which they may differ. If the first
one succeeds and has not looked beyond the seam, the second one succeeds with a value that is
related to what the first one gives, and both stop at the same place (`Parse.MirrorsAt`). A parser
that is given a greater bound mirrors the one with the smaller bound, and so does a parser on
tokens that stand on other lines. It is told as well what the first parser leaves of the tokens
where it succeeds, and what its fault may be where it fails. Each way of putting parsers together
has a rule.

Behind a compound statement a parser looks for the words that would go on with it. It may do so at
a seam where neither side has such a word (`Frame.Fresh`), if that is all it looks for.
-/
namespace Offside

namespace State

/-- Reading may lead from one state to another: tokens are taken, and the grammar, the file and
the fault that waits are kept. While a fault waits the tokens are not used up. -/
structure Passes (start behind : State) : Prop where
  /-- What is left is an end of what was in front. -/
  suffix : behind.ahead <:+ start.ahead
  /-- The grammar is kept. -/
  grammar : behind.grammar = start.grammar
  /-- The file is kept. -/
  file : behind.file = start.file
  /-- The fault is kept. -/
  failure : behind.failure = start.failure
  /-- The tokens are not used up while a fault waits. -/
  guarded : start.failure ≠ none → start.ahead ≠ [] → behind.ahead ≠ []
  /-- The line of the last token is kept, or it is that of a token in front. -/
  line : behind.line = start.line ∨ ∃ token ∈ start.ahead, behind.line = token.line

/-- Nothing is taken. -/
theorem Passes.refl (state : State) : state.Passes state where
  suffix := List.suffix_refl _
  grammar := rfl
  file := rfl
  failure := rfl
  guarded := fun _ some_ => some_
  line := .inl rfl

/-- Reading goes on. -/
theorem Passes.trans {start between behind : State} (front : start.Passes between)
    (back : between.Passes behind) : start.Passes behind where
  suffix := back.suffix.trans front.suffix
  grammar := back.grammar.trans front.grammar
  file := back.file.trans front.file
  failure := back.failure.trans front.failure
  guarded := fun waits some_ => back.guarded (by rwa [front.failure]) (front.guarded waits some_)
  line := by
    rcases back.line with same | ⟨token, member, same⟩
    · rw [same]
      exact front.line
    · exact .inr ⟨token, front.suffix.subset member, same⟩

/-- What a fault of reading from a state may be: the one that waits behind the tokens, or one at
the token in front of a state that is reached. -/
def Blames (start : State) (fault : Fault) : Prop :=
  start.failure = some fault ∨ ∃ between, start.Passes between ∧ fault.position = between.position

/-- A fault that is met later is met all the same. -/
theorem Passes.blames {start between : State} {fault : Fault} (front : start.Passes between)
    (later : between.Blames fault) : start.Blames fault := by
  rcases later with waits | ⟨behind, back, place⟩
  · exact .inl (front.failure.symm.trans waits)
  · exact .inr ⟨behind, front.trans back, place⟩

/-- The tokens from one state to another end with the end of a line, or with a mark that opens a
block, and with marks that close blocks behind it. -/
def Closes (start behind : State) : Prop :=
  ∃ front mark closing, start.ahead = front ++ mark :: closing ++ behind.ahead ∧
    (mark.kind = .newline ∨ mark.kind = .indent) ∧ ∀ token ∈ closing, token.kind = .dedent

/-- What is read before a line does not matter for its end. -/
theorem Closes.of_suffix {start between behind : State} (within : between.ahead <:+ start.ahead)
    (closes : between.Closes behind) : start.Closes behind := by
  obtain ⟨before, same⟩ := within
  obtain ⟨more, mark, closing, ahead, kind, dedents⟩ := closes
  refine ⟨before ++ more, mark, closing, ?_, kind, dedents⟩
  rw [← same, ahead]
  simp

/-- What is left behind a line is an end of what was in front. -/
theorem Closes.suffix {start behind : State} (closes : start.Closes behind) :
    behind.ahead <:+ start.ahead := by
  obtain ⟨front, mark, closing, ahead, -⟩ := closes
  exact ⟨_, ahead.symm⟩

/-- Behind the end of a line a block may close. -/
theorem Closes.dedent {start between behind : State} {token : Token}
    (closes : start.Closes between) (taken : between.ahead = token :: behind.ahead)
    (kind : token.kind = .dedent) : start.Closes behind := by
  obtain ⟨front, mark, closing, ahead, ends, dedents⟩ := closes
  refine ⟨front, mark, closing ++ [token], ?_, ends, fun found member => ?_⟩
  · rw [ahead, taken]
    simp
  · rcases List.mem_append.1 member with member | member
    · exact dedents found member
    · exact List.mem_singleton.1 member ▸ kind

/-- The end mark is not taken with the lines before it. -/
theorem Closes.getLast {state behind : State} {last : Token} (closes : state.Closes behind)
    (ends : state.ahead.getLast? = some last) (mark : last.kind = .endMarker) :
    behind.ahead.getLast? = some last := by
  obtain ⟨front, ending, closing, ahead, kind, dedents⟩ := closes
  cases left : behind.ahead with
  | nil =>
    rw [ahead, left, List.append_nil, List.getLast?_append_of_ne_nil _ (List.cons_ne_nil _ _)] at ends
    rcases List.mem_cons.1 (List.mem_of_getLast? ends) with rfl | member
    · rcases kind with kind | kind <;> rw [mark] at kind <;> contradiction
    · have kind := dedents last member
      rw [mark] at kind
      contradiction
  | cons token rest =>
    rw [ahead, left, List.getLast?_append_of_ne_nil _ (List.cons_ne_nil _ _)] at ends
    exact ends

end State

/-- A token and the same token elsewhere: kind and text agree, and the line of a word that starts a
definition is moved. -/
inductive Token.Alike (move : Nat → Nat) : Token → Token → Prop where
  /-- The lines of other tokens do not matter. -/
  | mk {kind : Kind} {value raw otherRaw : String} {line other : Nat}
      (moved : value ∈ Scope.decorated → other = move line) :
      Alike move ⟨kind, value, line, raw⟩ ⟨kind, value, other, otherRaw⟩

/-- Some token is the same elsewhere. -/
theorem Token.alike_move (move : Nat → Nat) (token : Token) :
    token.Alike move { token with line := move token.line } :=
  .mk fun _ => rfl

/-- The same token elsewhere is the same name or operator. -/
theorem Token.Alike.isText {move : Nat → Nat} {token found : Token} (alike : token.Alike move found) :
    found.isText = token.isText := by
  obtain ⟨moved⟩ := alike
  rfl

/-- A word that starts a definition is on the line to which it is moved. -/
theorem Token.Alike.line {move : Nat → Nat} {token found : Token} {text : String}
    (alike : token.Alike move found) (written : token.isText text = true)
    (word : text ∈ Scope.decorated) : found.line = move token.line := by
  rw [Token.isText, Bool.and_eq_true, beq_iff_eq] at written
  rw [← written.2] at word
  obtain ⟨moved⟩ := alike
  exact moved word

/-- The texts that go on with a compound statement behind one of its blocks. -/
def continuing : List String := ["elif", "else", "except", "finally"]

/-- The token goes on with a compound statement, or it closes a block. -/
def Token.Continues (token : Token) : Prop :=
  token.kind = .dedent ∨ ∃ text ∈ continuing, token.isText text = true

/-- Nothing goes on at an end mark. -/
theorem Token.not_continues_of_endMarker {token : Token} (mark : token.kind = .endMarker) :
    ¬token.Continues := by
  rintro (kind | ⟨text, -, written⟩)
  · rw [mark] at kind
    contradiction
  · simp [isText, mark] at written

/-- The same token elsewhere goes on all the same. -/
theorem Token.Alike.continues {move : Nat → Nat} {token found : Token}
    (alike : token.Alike move found) (continues : found.Continues) : token.Continues := by
  have same := alike.isText
  obtain ⟨moved⟩ := alike
  rcases continues with kind | ⟨text, word, written⟩
  · exact .inl kind
  · exact .inr ⟨text, word, same ▸ written⟩

/-- Where two texts are alike: how lines are moved, and the tokens behind the seam. -/
structure Frame where
  /-- The line of what stands on a line. -/
  move : Nat → Nat
  /-- What is behind the seam. -/
  tail : List Token
  /-- What is behind the seam on the other side. -/
  after : List Token

namespace Frame

/-- No compound statement goes on behind the seam. -/
structure Fresh (frame : Frame) : Prop where
  /-- There is a token behind the seam. -/
  nonempty : frame.tail ≠ []
  /-- The first token behind the seam does not go on. -/
  tail : ∀ token ∈ frame.tail.head?, ¬token.Continues
  /-- Neither does the one on the other side. -/
  after : ∀ token ∈ frame.after.head?, ¬token.Continues

/-- Two states with tokens in front that are alike up to the seam. No fault waits. -/
structure Beside (frame : Frame) (state other : State) : Prop where
  /-- The tokens up to the seam are alike. -/
  front : ∃ front back, state.ahead = front ++ frame.tail ∧ other.ahead = back ++ frame.after ∧
    List.Forall₂ (Token.Alike frame.move) front back
  /-- The grammar is the same. -/
  grammar : other.grammar = state.grammar
  /-- The decorators that wait are the same. -/
  decorators : other.decorators = state.decorators
  /-- No fault waits. -/
  failure : state.failure = none
  /-- No fault waits on the other side. -/
  otherFailure : other.failure = none

/-- A parser stops before the seam, or, if it may, at a seam where nothing goes on. -/
def Leaves (frame : Frame) (edge : Bool) (behind : State) : Prop :=
  ∃ front, behind.ahead = front ++ frame.tail ∧ (front = [] → edge = true ∧ frame.Fresh)

variable {frame : Frame} {edge : Bool} {state other behind : State}

/-- A parser that stops before the seam was before it all the time. -/
theorem Leaves.of_passes (leaves : frame.Leaves edge behind) (passes : state.Passes behind) :
    frame.Leaves edge state := by
  obtain ⟨front, ahead, seam⟩ := leaves
  obtain ⟨before, same⟩ := passes.suffix
  refine ⟨before ++ front, ?_, fun empty => seam (List.append_eq_nil_iff.1 empty).2⟩
  rw [← same, ahead, List.append_assoc]

/-- Before a token that is taken a parser is before the seam. -/
theorem Leaves.of_cons {token : Token} (leaves : frame.Leaves edge behind)
    (taken : state.ahead = token :: behind.ahead) : frame.Leaves false state := by
  obtain ⟨front, ahead, -⟩ := leaves
  refine ⟨token :: front, ?_, fun empty => absurd empty (List.cons_ne_nil _ _)⟩
  rw [taken, ahead, List.cons_append]

/-- Before a line that is read to its end a parser is before the seam. -/
theorem Leaves.of_closes (leaves : frame.Leaves edge behind) (closes : state.Closes behind) :
    frame.Leaves false state := by
  obtain ⟨front, ahead, -⟩ := leaves
  obtain ⟨before, mark, closing, taken, -⟩ := closes
  refine ⟨before ++ mark :: closing ++ front, ?_, fun empty => by simp at empty⟩
  rw [taken, ahead, ← List.append_assoc]

/-- Before the seam both states have a token in front. -/
theorem Beside.inside (beside : frame.Beside state other) (leaves : frame.Leaves false state) :
    ∃ token found front back, state.ahead = token :: (front ++ frame.tail) ∧
      other.ahead = found :: (back ++ frame.after) ∧ token.Alike frame.move found ∧
      List.Forall₂ (Token.Alike frame.move) front back := by
  obtain ⟨front, back, ahead, otherAhead, alike⟩ := beside.front
  obtain ⟨left, same, seam⟩ := leaves
  have whole : left = front := List.append_cancel_right (same.symm.trans ahead)
  subst whole
  cases alike with
  | nil => exact absurd (seam rfl).1 Bool.false_ne_true
  | @cons token found front back here rest =>
    exact ⟨token, found, front, back, ahead, otherAhead, here, rest⟩

/-- Where one side stops at the seam, so does the other one. -/
theorem Beside.at_seam (beside : frame.Beside state other) (here : state.ahead = frame.tail) :
    other.ahead = frame.after := by
  obtain ⟨front, back, ahead, otherAhead, alike⟩ := beside.front
  obtain rfl : front = [] := by
    rw [here] at ahead
    exact List.append_cancel_right (ahead.symm.trans (List.nil_append _).symm)
  cases alike
  exact otherAhead

/-- Before the seam the tokens in front are alike. -/
theorem Beside.current (beside : frame.Beside state other) (leaves : frame.Leaves false state) :
    state.current.Alike frame.move other.current := by
  obtain ⟨token, found, front, back, ahead, otherAhead, here, -⟩ := beside.inside leaves
  rw [State.current, State.current, ahead, otherAhead]
  exact here

/-- The token in front of a state at the seam does not go on, if nothing goes on there. -/
theorem not_continues_of_head {tokens : List Token} {line : Nat}
    (fresh : ∀ token ∈ tokens.head?, ¬token.Continues) :
    ¬(tokens.headD (.endMarker line)).Continues := by
  cases tokens with
  | nil => exact Token.not_continues_of_endMarker rfl
  | cons token rest => exact fresh token rfl

/-- A look at the token in front that tells only whether it goes on finds the same on both sides. -/
theorem Beside.look {α : Type} (view : Token → α)
    (same : ∀ token found, token.Alike frame.move found → view found = view token)
    (apart : ∀ token found : Token, ¬token.Continues → ¬found.Continues → view found = view token)
    (beside : frame.Beside state other) (leaves : frame.Leaves edge state) :
    view other.current = view state.current := by
  obtain ⟨front, back, ahead, otherAhead, alike⟩ := beside.front
  obtain ⟨left, whole, seam⟩ := leaves
  obtain rfl : left = front := List.append_cancel_right (whole.symm.trans ahead)
  cases alike with
  | nil =>
    obtain ⟨-, fresh⟩ := seam rfl
    refine apart _ _ ?_ ?_
    · rw [State.current, ahead]
      exact not_continues_of_head fresh.tail
    · rw [State.current, otherAhead]
      exact not_continues_of_head fresh.after
  | cons here rest =>
    refine same _ _ ?_
    rw [State.current, State.current, ahead, otherAhead]
    exact here

end Frame

namespace Parse

variable {α β γ δ : Type} {frame : Frame} {edge : Bool} {state : State}

/-- What a parser does from a state, and what another parser does beside it. -/
structure MirrorsAt (frame : Frame) (edge : Bool) (related : α → β → Prop) (state : State)
    (parser : Parse α) (other : Parse β) : Prop where
  /-- Where the parser succeeds, it has taken tokens, and some value is related to what it
  gives. -/
  passes {out : α} {behind : State} (read : parser state = .ok out behind) :
    state.Passes behind ∧ ∃ value, related out value
  /-- Where the parser fails, it blames the token in front, or the fault that waits. -/
  blames {fault : Fault} {behind : State} (failed : parser state = .error fault behind) :
    state.Blames fault
  /-- Where the parser succeeds and leaves the seam alone, so does the other one. -/
  follows {out : α} {start behind : State} (beside : frame.Beside state start)
    (read : parser state = .ok out behind) (leaves : frame.Leaves edge behind) :
    ∃ value last, other start = .ok value last ∧ related out value ∧ frame.Beside behind last

/-- What a parser and another parser beside it do from every state with the standard grammar. -/
def Mirrors (frame : Frame) (edge : Bool) (related : α → β → Prop) (parser : Parse α)
    (other : Parse β) : Prop :=
  ∀ state : State, state.grammar = .standard → MirrorsAt frame edge related state parser other

/-- Two parsers in order fail where the first one fails or where the second one does behind it. -/
theorem bind_error {parser : Parse α} {next : α → Parse β} {behind : State} {fault : Fault}
    (failed : (parser >>= next) state = .error fault behind) :
    parser state = .error fault behind ∨ ∃ value between, parser state = .ok value between ∧
      next value between = .error fault behind := by
  rw [Bind.bind, Monad.toBind, EStateM.instMonad] at failed
  simp only [EStateM.bind] at failed
  split at failed
  · rename_i value between first
    exact .inr ⟨value, between, first, failed⟩
  · rename_i found between first
    obtain ⟨rfl, rfl⟩ := EStateM.Result.error.inj failed
    exact .inl first

/-- The parser fails at the token in front. -/
def Fails (parser : Parse α) : Prop :=
  ∀ state : State, ∃ cause, parser state = .error ⟨cause, state.position⟩ state

/-- A failure gives nothing. -/
theorem Fails.ne {parser : Parse α} {behind : State} {out : α} (fails : parser.Fails) :
    parser state ≠ .ok out behind := by
  intro read
  obtain ⟨cause, failed⟩ := fails state
  rw [failed] at read
  contradiction

/-- A failure with a cause. -/
theorem Fails.fail {cause : Cause} : (Parse.fail cause : Parse α).Fails :=
  fun _ => ⟨cause, rfl⟩

/-- A failure behind a look at the token in front. -/
theorem Fails.current {next : Token → Parse α} (later : ∀ token, (next token).Fails) :
    (Parse.current >>= next).Fails :=
  fun state => later state.current state

/-- A failure, whatever would be read behind it. -/
theorem Fails.bind {parser : Parse α} {next : α → Parse β} (fails : parser.Fails) :
    (parser >>= next).Fails := by
  intro state
  obtain ⟨cause, failed⟩ := fails state
  refine ⟨cause, ?_⟩
  show EStateM.bind parser next state = _
  rw [EStateM.bind, failed]

/-- A missing expression. -/
theorem failExpression_fails : (failExpression : Parse α).Fails := by
  refine .current fun token => ?_
  split <;> exact .fail

/-- A missing statement. -/
theorem failStatement_fails : (failStatement : Parse α).Fails := by
  refine .current fun token => ?_
  split <;> exact .fail

/-- A token that is something else than what is required. -/
theorem failExpected_fails {expected : String} : (failExpected expected : Parse α).Fails :=
  .current fun _ => .fail

section rules

variable {related : α → β → Prop} {result : γ → δ → Prop}

/-- A value without reading. -/
theorem MirrorsAt.pure {value : γ} {other : δ} (fits : result value other) :
    MirrorsAt frame edge result state (Pure.pure value) (Pure.pure other) where
  passes read := by
    obtain ⟨rfl, rfl⟩ := pure_ok read
    exact ⟨.refl _, other, fits⟩
  blames failed := by contradiction
  follows {_ start _} beside read _ := by
    obtain ⟨rfl, rfl⟩ := pure_ok read
    exact ⟨other, start, rfl, fits, beside⟩

/-- Two parsers in order, where it is known how far from the seam the second one starts. -/
theorem MirrorsAt.bind_of {early : Bool} {parser : Parse α} {other : Parse β}
    {next : α → Parse γ} {otherNext : β → Parse δ} (standard : state.grammar = .standard)
    (first : MirrorsAt frame early related state parser other)
    (later : ∀ value found, related value found →
      Mirrors frame edge result (next value) (otherNext found))
    (near : ∀ value found between out behind, related value found →
      between.grammar = .standard → between.Passes behind →
      next value between = .ok out behind → frame.Leaves edge behind →
      frame.Leaves early between) :
    MirrorsAt frame edge result state (parser >>= next) (other >>= otherNext) where
  passes read := by
    obtain ⟨value, between, head, tail⟩ := bind_ok read
    obtain ⟨front, found, fits⟩ := first.passes head
    have kept := later value found fits between (front.grammar.trans standard)
    obtain ⟨back, last⟩ := kept.passes tail
    exact ⟨front.trans back, last⟩
  blames failed := by
    rcases bind_error failed with failed | ⟨value, between, head, tail⟩
    · exact first.blames failed
    · obtain ⟨front, found, fits⟩ := first.passes head
      have kept := later value found fits between (front.grammar.trans standard)
      exact front.blames (kept.blames tail)
  follows beside read leaves := by
    obtain ⟨value, between, head, tail⟩ := bind_ok read
    obtain ⟨front, witness, fits⟩ := first.passes head
    have onward := front.grammar.trans standard
    obtain ⟨back, -⟩ := (later value witness fits between onward).passes tail
    obtain ⟨found, middle, otherHead, fits, beside⟩ :=
      first.follows beside head (near value witness between _ _ fits onward back tail leaves)
    obtain ⟨out, last, otherTail, fits, beside⟩ :=
      (later value found fits between onward).follows beside tail leaves
    exact ⟨out, last, (bind_of_ok otherHead).trans otherTail, fits, beside⟩

/-- Two parsers in order. -/
theorem MirrorsAt.bind {parser : Parse α} {other : Parse β} {next : α → Parse γ}
    {otherNext : β → Parse δ} (standard : state.grammar = .standard)
    (first : MirrorsAt frame edge related state parser other)
    (later : ∀ value found, related value found →
      Mirrors frame edge result (next value) (otherNext found)) :
    MirrorsAt frame edge result state (parser >>= next) (other >>= otherNext) :=
  .bind_of standard first later fun _ _ _ _ _ _ _ passes _ leaves => leaves.of_passes passes

/-- A look at the state, and a parser behind it that starts at the same state. -/
theorem MirrorsAt.peek (early : Bool) (view : State → α) (otherView : State → β)
    {next : α → Parse γ} {otherNext : β → Parse δ} (total : ∃ found, related (view state) found)
    (later : ∀ found, related (view state) found →
      MirrorsAt frame edge result state (next (view state)) (otherNext found))
    (same : ∀ start, frame.Beside state start → frame.Leaves early state →
      related (view state) (otherView start))
    (near : ∀ out behind, state.Passes behind → next (view state) state = .ok out behind →
      frame.Leaves edge behind → frame.Leaves early state) :
    MirrorsAt frame edge result state ((fun state => .ok (view state) state : Parse α) >>= next)
      ((fun state => .ok (otherView state) state : Parse β) >>= otherNext) where
  passes read := by
    obtain ⟨found, fits⟩ := total
    exact (later found fits).passes read
  blames failed := by
    obtain ⟨found, fits⟩ := total
    exact (later found fits).blames failed
  follows {out start behind} beside read leaves := by
    obtain ⟨witness, fits⟩ := total
    have before := near out behind ((later witness fits).passes read).1 read leaves
    exact (later _ (same start beside before)).follows beside read leaves

/-- Two parsers in order. -/
theorem Mirrors.bind {parser : Parse α} {other : Parse β} {next : α → Parse γ}
    {otherNext : β → Parse δ} (first : parser.Mirrors frame edge related other)
    (later : ∀ value found, related value found →
      (next value).Mirrors frame edge result (otherNext found)) :
    (parser >>= next).Mirrors frame edge result (other >>= otherNext) :=
  fun state standard => .bind standard (first state standard) later

/-- Two parsers in order, of which the first one gives the same on both sides. -/
theorem Mirrors.bind_eq {parser other : Parse α} {next : α → Parse γ} {otherNext : α → Parse δ}
    (first : parser.Mirrors frame edge Eq other)
    (later : ∀ value, (next value).Mirrors frame edge result (otherNext value)) :
    (parser >>= next).Mirrors frame edge result (other >>= otherNext) := by
  refine first.bind ?_
  rintro value _ rfl
  exact later value

/-- A parser that may stop at the seam may stop before it. -/
theorem Mirrors.within {parser : Parse γ} {other : Parse δ}
    (mirrors : parser.Mirrors frame true result other) :
    parser.Mirrors frame false result other := by
  intro state standard
  have kept := mirrors state standard
  refine ⟨kept.passes, kept.blames, fun beside read leaves => kept.follows beside read ?_⟩
  obtain ⟨front, ahead, seam⟩ := leaves
  exact ⟨front, ahead, fun empty => absurd (seam empty).1 Bool.false_ne_true⟩

/-- The values on both sides may be related by less. -/
theorem Mirrors.weaken {weak : γ → δ → Prop} {parser : Parse γ} {other : Parse δ}
    (mirrors : parser.Mirrors frame edge result other)
    (weaker : ∀ out value, result out value → weak out value) :
    parser.Mirrors frame edge weak other := by
  intro state standard
  have kept := mirrors state standard
  refine ⟨fun read => ?_, kept.blames, fun beside read leaves => ?_⟩
  · obtain ⟨passes, value, fits⟩ := kept.passes read
    exact ⟨passes, value, weaker _ _ fits⟩
  · obtain ⟨value, last, found, fits, behind⟩ := kept.follows beside read leaves
    exact ⟨value, last, found, weaker _ _ fits, behind⟩

/-- A value without reading. -/
theorem Mirrors.pure {value : γ} {other : δ} (fits : result value other) :
    (Pure.pure value : Parse γ).Mirrors frame edge result (Pure.pure other) :=
  fun _ _ => .pure fits

/-- A parser that fails is mirrored by any other. -/
theorem Mirrors.of_fails {parser : Parse γ} {other : Parse δ} (fails : parser.Fails) :
    parser.Mirrors frame edge result other := by
  intro state _
  obtain ⟨cause, failed⟩ := fails state
  constructor
  · intro out behind read
    rw [failed] at read
    contradiction
  · intro fault behind found
    rw [failed] at found
    obtain ⟨rfl, rfl⟩ := EStateM.Result.error.inj found
    exact .inr ⟨state, .refl state, rfl⟩
  · intro out start behind _ read
    rw [failed] at read
    contradiction

/-- A failure. -/
theorem Mirrors.fail {cause : Cause} {other : Parse δ} :
    (Parse.fail cause : Parse γ).Mirrors frame edge result other :=
  .of_fails .fail

/-- A value or a failure. -/
theorem Mirrors.lift {value : Except Cause α} {next : α → Parse γ} {otherNext : α → Parse δ}
    (later : ∀ found, value = .ok found →
      (next found).Mirrors frame edge result (otherNext found)) :
    (Parse.lift value >>= next).Mirrors frame edge result (Parse.lift value >>= otherNext) := by
  cases value with
  | error cause => exact .of_fails (Fails.fail).bind
  | ok found => exact later found rfl

/-- The end of an expression that is no comprehension without brackets. -/
theorem Mirrors.finish {parsed : Parsed} {next : Expr → Parse γ} {otherNext : Expr → Parse δ}
    (later : (next parsed.expr).Mirrors frame edge result (otherNext parsed.expr)) :
    (parsed.finish >>= next).Mirrors frame edge result (parsed.finish >>= otherNext) := by
  rw [Parsed.finish]
  split
  · exact .of_fails (Fails.fail).bind
  · exact later

/-- The other side of a choice. -/
theorem Mirrors.ite {condition : Prop} [Decidable condition] {first second : Parse γ}
    {otherFirst otherSecond : Parse δ}
    (holds : condition → first.Mirrors frame edge result otherFirst)
    (fails : ¬condition → second.Mirrors frame edge result otherSecond) :
    (if condition then first else second).Mirrors frame edge result
      (if condition then otherFirst else otherSecond) := by
  by_cases known : condition
  · rw [if_pos known, if_pos known]
    exact holds known
  · rw [if_neg known, if_neg known]
    exact fails known

end rules

section looks

variable {result : γ → δ → Prop}

/-- A look at the token in front. -/
theorem Mirrors.current {next : Token → Parse γ} {otherNext : Token → Parse δ}
    (later : ∀ token found, token.Alike frame.move found →
      (next token).Mirrors frame false result (otherNext found)) :
    (Parse.current >>= next).Mirrors frame false result (Parse.current >>= otherNext) :=
  fun state standard => .peek false State.current State.current ⟨_, state.current.alike_move _⟩
    (fun found alike => later _ found alike state standard)
    (fun _ beside leaves => beside.current leaves)
    (fun _ _ passes _ leaves => leaves.of_passes passes)

/-- A look at the state that finds the same on both sides. -/
theorem Mirrors.peek {parser : Parse α} (view : State → α)
    (looks : parser = fun state => .ok (view state) state)
    (same : ∀ state start, frame.Beside state start → frame.Leaves edge state →
      view start = view state)
    {next : α → Parse γ} {otherNext : α → Parse δ}
    (later : ∀ value, (next value).Mirrors frame edge result (otherNext value)) :
    (parser >>= next).Mirrors frame edge result (parser >>= otherNext) := by
  subst looks
  intro state standard
  refine .peek edge _ _ ⟨_, rfl⟩ ?_ ?_ fun _ _ passes _ leaves => leaves.of_passes passes
  · rintro _ rfl
    exact later _ state standard
  · exact fun start beside leaves => (same state start beside leaves).symm

/-- A look at the token in front that does not ask for its line, and a parser behind it that starts
at the same token. -/
theorem MirrorsAt.look {parser : Parse α} (view : Grammar → Token → α)
    (looks : parser = fun state => .ok (view state.grammar state.current) state)
    (same : ∀ grammar token found, token.Alike frame.move found →
      view grammar found = view grammar token)
    {next : α → Parse γ} {otherNext : α → Parse δ}
    (later : MirrorsAt frame false result state (next (view state.grammar state.current))
      (otherNext (view state.grammar state.current))) :
    MirrorsAt frame false result state (parser >>= next) (parser >>= otherNext) := by
  subst looks
  refine .peek false _ _ ⟨_, rfl⟩ ?_ ?_ fun _ _ passes _ leaves => leaves.of_passes passes
  · rintro _ rfl
    exact later
  · intro start beside leaves
    rw [beside.grammar, same _ _ _ (beside.current leaves)]

/-- A look at the token in front that does not ask for its line. -/
theorem Mirrors.look {parser : Parse α} (view : Grammar → Token → α)
    (looks : parser = fun state => .ok (view state.grammar state.current) state)
    (same : ∀ grammar token found, token.Alike frame.move found →
      view grammar found = view grammar token)
    {next : α → Parse γ} {otherNext : α → Parse δ}
    (later : ∀ value, (next value).Mirrors frame false result (otherNext value)) :
    (parser >>= next).Mirrors frame false result (parser >>= otherNext) :=
  fun state standard => .look view looks same (later _ state standard)

/-- A look for a name or an operator. -/
theorem Mirrors.check {text : String} {next : Bool → Parse γ} {otherNext : Bool → Parse δ}
    (later : ∀ found, (next found).Mirrors frame false result (otherNext found)) :
    (Parse.check text >>= next).Mirrors frame false result (Parse.check text >>= otherNext) :=
  .look (fun _ token => token.isText text) rfl (by rintro _ _ _ ⟨⟩; rfl) later

/-- A look for a kind. -/
theorem Mirrors.checkKind {kind : Kind} {next : Bool → Parse γ} {otherNext : Bool → Parse δ}
    (later : ∀ found, (next found).Mirrors frame false result (otherNext found)) :
    (Parse.checkKind kind >>= next).Mirrors frame false result
      (Parse.checkKind kind >>= otherNext) :=
  .look (fun _ token => decide (token.kind = kind)) rfl (by rintro _ _ _ ⟨⟩; rfl) later

/-- A look for the end of an expression. -/
theorem Mirrors.atDelimiter {next : Bool → Parse γ} {otherNext : Bool → Parse δ}
    (later : ∀ found, (next found).Mirrors frame false result (otherNext found)) :
    (Parse.atDelimiter >>= next).Mirrors frame false result (Parse.atDelimiter >>= otherNext) :=
  .look (fun _ token => token.kind = .newline || token.kind = .endMarker ||
    (token.kind = .operator && delimiters.contains token.value)) rfl (by rintro _ _ _ ⟨⟩; rfl) later

/-- A look for the meaning of the token in front. -/
theorem Mirrors.behavior? {next : Option Behavior → Parse γ} {otherNext : Option Behavior → Parse δ}
    (later : ∀ found, (next found).Mirrors frame false result (otherNext found)) :
    (Parse.behavior? >>= next).Mirrors frame false result (Parse.behavior? >>= otherNext) :=
  .look Grammar.behavior? rfl (by rintro _ _ _ ⟨⟩; rfl) later

/-- A look for a word that goes on with a compound statement may be made at the seam. -/
theorem Mirrors.check_word {text : String} (word : text ∈ continuing) {next : Bool → Parse γ}
    {otherNext : Bool → Parse δ}
    (later : ∀ found, (next found).Mirrors frame edge result (otherNext found)) :
    (Parse.check text >>= next).Mirrors frame edge result (Parse.check text >>= otherNext) := by
  refine .peek (fun state => state.current.isText text) rfl (fun _ _ beside leaves => ?_) later
  have other {token : Token} (ends : ¬token.Continues) : token.isText text = false := by
    rw [← Bool.not_eq_true]
    exact fun written => ends (.inr ⟨text, word, written⟩)
  refine beside.look (fun token => token.isText text) ?_ ?_ leaves
  · rintro _ _ ⟨⟩
    rfl
  · intro token found here there
    rw [other here, other there]

/-- A look for a mark that closes a block may be made at the seam. -/
theorem Mirrors.check_dedent {next : Bool → Parse γ} {otherNext : Bool → Parse δ}
    (later : ∀ found, (next found).Mirrors frame edge result (otherNext found)) :
    (Parse.checkKind .dedent >>= next).Mirrors frame edge result
      (Parse.checkKind .dedent >>= otherNext) := by
  refine .peek (fun state => decide (state.current.kind = .dedent)) rfl
    (fun _ _ beside leaves => ?_) later
  refine beside.look (fun token => decide (token.kind = .dedent)) ?_ ?_ leaves
  · rintro _ _ ⟨⟩
    rfl
  · intro token found here there
    rw [decide_eq_false (mt .inl here), decide_eq_false (mt .inl there)]

/-- A look for decorators that wait may be made anywhere. -/
theorem Mirrors.hasDecorators {next : Bool → Parse γ} {otherNext : Bool → Parse δ}
    (later : ∀ found, (next found).Mirrors frame edge result (otherNext found)) :
    (Parse.hasDecorators >>= next).Mirrors frame edge result
      (Parse.hasDecorators >>= otherNext) := by
  refine .peek (fun state => !state.decorators.isEmpty) rfl (fun _ _ beside _ => ?_) later
  rw [beside.decorators]

end looks

section reads

variable {result : γ → δ → Prop}

/-- The token in front is taken, unless the tokens are used up or a fault waits behind it. -/
theorem advance_cases (state : State) :
    (state.ahead = [] ∧ advance state = .ok state.current state) ∨
    (∃ token fault, state.ahead = [token] ∧ state.failure = some fault ∧
      advance state = .error fault { state with failure := none }) ∨
    ∃ token ahead, state.ahead = token :: ahead ∧ (state.failure ≠ none → ahead ≠ []) ∧
      advance state = .ok token { state with ahead, line := token.line } := by
  obtain ⟨ahead, line, failure, file, grammar, decorators⟩ := state
  cases ahead with
  | nil => exact .inl ⟨rfl, rfl⟩
  | cons token ahead =>
    cases ahead with
    | cons second ahead => exact .inr (.inr ⟨token, _, rfl, fun _ => by simp, rfl⟩)
    | nil =>
      cases failure with
      | none => exact .inr (.inr ⟨token, [], rfl, fun waits => absurd rfl waits, rfl⟩)
      | some fault => exact .inr (.inl ⟨token, fault, rfl, rfl, rfl⟩)

/-- A token is taken unless it is the last one and a fault waits. -/
theorem advance_of_cons {token : Token} {rest : List Token} (front : state.ahead = token :: rest)
    (guarded : state.failure ≠ none → rest ≠ []) :
    advance state = .ok token { state with ahead := rest, line := token.line } := by
  rcases advance_cases state with ⟨empty, -⟩ | ⟨last, fault, alone, waits, -⟩ | ⟨_, _, same, -, read⟩
  · rw [front] at empty
    contradiction
  · obtain ⟨-, rfl⟩ := List.cons.inj (front.symm.trans alone)
    exact absurd rfl (guarded (by rw [waits]; exact Option.some_ne_none fault))
  · obtain ⟨rfl, rfl⟩ := List.cons.inj (front.symm.trans same)
    exact read

/-- A fault that waits arises at the last token. -/
theorem advance_of_last {token : Token} {fault : Fault} (alone : state.ahead = [token])
    (waits : state.failure = some fault) :
    advance state = .error fault { state with failure := none } := by
  rcases advance_cases state with ⟨empty, -⟩ | ⟨last, found, -, same, failed⟩ | ⟨_, _, same, guarded, -⟩
  · rw [alone] at empty
    contradiction
  · rw [waits] at same
    obtain rfl := Option.some.inj same
    exact failed
  · obtain ⟨-, rfl⟩ := List.cons.inj (alone.symm.trans same)
    exact absurd rfl (guarded (by rw [waits]; exact Option.some_ne_none fault))

/-- A token other than an end mark is taken from the tokens in front. -/
theorem advance_takes {token : Token} {behind : State} (read : advance state = .ok token behind)
    (more : state.current.kind ≠ .endMarker) :
    token = state.current ∧ state.ahead = token :: behind.ahead ∧
      behind.grammar = state.grammar := by
  rcases advance_cases state with ⟨empty, _⟩ | ⟨_, _, _, _, same⟩ | ⟨found, ahead, front, _, same⟩
  · rw [State.current, empty] at more
    exact absurd rfl more
  · rw [same] at read
    contradiction
  · rw [same] at read
    obtain ⟨rfl, rfl⟩ := EStateM.Result.ok.inj read
    refine ⟨?_, front, rfl⟩
    rw [State.current, front]
    rfl

/-- A token is taken only before the seam. -/
theorem advance_near {token : Token} {behind : State} (read : advance state = .ok token behind)
    (leaves : frame.Leaves edge behind) : frame.Leaves false state := by
  rcases advance_cases state with ⟨empty, same⟩ | ⟨_, _, _, _, same⟩ | ⟨found, ahead, front, _, same⟩
  · rw [same] at read
    obtain ⟨rfl, rfl⟩ := EStateM.Result.ok.inj read
    obtain ⟨left, ahead, seam⟩ := leaves
    obtain ⟨rfl, bottom⟩ := List.append_eq_nil_iff.1 (ahead.symm.trans empty)
    exact absurd bottom (seam rfl).2.nonempty
  · rw [same] at read
    contradiction
  · rw [same] at read
    obtain ⟨rfl, rfl⟩ := EStateM.Result.ok.inj read
    exact leaves.of_cons front

/-- The token in front is taken. -/
theorem advance_mirrors : advance.Mirrors frame edge (Token.Alike frame.move) advance := by
  intro state standard
  have cases_ := advance_cases state
  constructor
  · intro out behind read
    refine ⟨?_, _, out.alike_move _⟩
    rcases cases_ with ⟨_, same⟩ | ⟨_, _, _, _, same⟩ | ⟨found, ahead, front, guarded, same⟩
    · rw [same] at read
      obtain ⟨-, rfl⟩ := EStateM.Result.ok.inj read
      exact .refl state
    · rw [same] at read
      contradiction
    · rw [same] at read
      obtain ⟨-, rfl⟩ := EStateM.Result.ok.inj read
      exact ⟨⟨[found], front.symm⟩, rfl, rfl, rfl, fun waits _ => guarded waits,
        .inr ⟨found, front ▸ List.mem_cons_self, rfl⟩⟩
  · intro fault behind failed
    rcases cases_ with ⟨_, same⟩ | ⟨_, found, _, waits, same⟩ | ⟨_, _, _, _, same⟩
    · rw [same] at failed
      contradiction
    · rw [same] at failed
      obtain ⟨rfl, -⟩ := EStateM.Result.error.inj failed
      exact .inl waits
    · rw [same] at failed
      contradiction
  · intro out start behind beside read leaves
    obtain ⟨token, found, front, back, ahead, otherAhead, here, rest⟩ :=
      beside.inside (advance_near read leaves)
    have taken {state : State} {token : Token} {ahead : List Token}
        (front : state.ahead = token :: ahead) (free : state.failure = none) :
        advance state = .ok token { state with ahead, line := token.line } := by
      rcases advance_cases state with ⟨empty, _⟩ | ⟨_, _, _, waits, _⟩ | ⟨_, _, same, _, reads⟩
      · rw [front] at empty
        contradiction
      · rw [free] at waits
        contradiction
      · obtain ⟨rfl, rfl⟩ := List.cons.inj (front.symm.trans same)
        exact reads
    rw [taken ahead beside.failure] at read
    obtain ⟨rfl, rfl⟩ := EStateM.Result.ok.inj read
    exact ⟨found, _, taken otherAhead beside.otherFailure, here, ⟨front, back, rfl, rfl, rest⟩,
      beside.grammar, beside.decorators, beside.failure, beside.otherFailure⟩

/-- A word that starts a definition is taken, with its line. -/
theorem advance_word {text : String} (standard : state.grammar = .standard)
    (written : state.current.isText text = true) (word : text ∈ Scope.decorated) :
    MirrorsAt frame edge (fun token found => found.line = frame.move token.line) state advance
      advance := by
  have mirrors : MirrorsAt frame edge (Token.Alike frame.move) state advance advance :=
    advance_mirrors state standard
  have more : state.current.kind ≠ .endMarker := by
    intro last
    simp [Token.isText, last] at written
  refine ⟨fun {out _} read => ?_, mirrors.blames, fun beside read leaves => ?_⟩
  · exact ⟨(mirrors.passes read).1, { out with line := frame.move out.line }, rfl⟩
  · obtain ⟨found, last, taken, alike, behind⟩ := mirrors.follows beside read leaves
    obtain ⟨rfl, -⟩ := advance_takes read more
    exact ⟨found, last, taken, alike.line written word, behind⟩

/-- The token in front is taken, and a parser follows. -/
theorem Mirrors.advance {next : Token → Parse γ} {otherNext : Token → Parse δ}
    (later : ∀ token found, token.Alike frame.move found →
      (next token).Mirrors frame edge result (otherNext found)) :
    (Parse.advance >>= next).Mirrors frame edge result (Parse.advance >>= otherNext) :=
  advance_mirrors.bind later

/-- A required token is taken, and it is so only before the seam. -/
theorem Mirrors.require {parser : Parse Bool} (view : Token → Bool)
    (looks : parser = fun state => .ok (view state.current) state)
    (same : ∀ token found, token.Alike frame.move found → view found = view token)
    {refuse : Parse Token} (refuses : refuse.Fails) :
    (parser >>= fun found => if found then Parse.advance else refuse).Mirrors frame edge
      (Token.Alike frame.move) (parser >>= fun found => if found then Parse.advance else refuse) := by
  subst looks
  intro state standard
  refine .peek false _ _ ⟨_, rfl⟩ ?_ ?_ ?_
  · rintro _ rfl
    exact Mirrors.ite (fun _ => advance_mirrors) (fun _ => .of_fails refuses) state standard
  · intro start beside leaves
    rw [same _ _ (beside.current leaves)]
  · intro out behind _ read leaves
    by_cases found : view state.current = true
    · rw [if_pos found] at read
      exact advance_near read leaves
    · rw [if_neg found] at read
      obtain ⟨cause, failed⟩ := refuses state
      rw [failed] at read
      contradiction

/-- A name or an operator is required. -/
theorem expect_mirrors {text : String} :
    (expect text).Mirrors frame edge (Token.Alike frame.move) (expect text) :=
  .require (fun token => token.isText text) rfl (by rintro _ _ ⟨⟩; rfl) failExpected_fails

/-- A kind is required. -/
theorem expectKind_mirrors {kind : Kind} :
    (expectKind kind).Mirrors frame edge (Token.Alike frame.move) (expectKind kind) :=
  .require (fun token => decide (token.kind = kind)) rfl (by rintro _ _ ⟨⟩; rfl) failExpected_fails

/-- A name that is no reserved word is required. -/
theorem expectName_mirrors : expectName.Mirrors frame false Eq expectName := by
  refine .current ?_
  rintro _ _ ⟨moved⟩
  refine .ite (fun _ => .advance ?_) fun _ => .of_fails failExpected_fails
  rintro _ _ ⟨⟩
  exact .pure rfl

/-- A name or an operator is taken if it is in front. -/
theorem eat_bind {text : String} {next : Bool → Parse γ} :
    Parse.eat text >>= next = Parse.check text >>= fun found =>
      if found then Parse.advance >>= fun _ => next true else next false := by
  rw [Parse.eat, bind_assoc]
  congr 1
  funext found
  cases found with
  | true => simp only [if_true, bind_assoc, pure_bind]
  | false => rfl

/-- A mark of the layout is taken if it is in front. -/
theorem eatKind_bind {kind : Kind} (layout : kind ≠ .endMarker) {next : Bool → Parse γ} :
    Parse.eatKind kind >>= next = Parse.checkKind kind >>= fun found =>
      if found then Parse.advance >>= fun _ => next true else next false := by
  rw [Parse.eatKind, bind_assoc]
  congr 1
  funext found
  rw [decide_eq_true layout, Bool.and_true]
  cases found with
  | true => simp only [if_true, bind_assoc, pure_bind]
  | false => rfl

/-- A token is taken, or not. -/
theorem Mirrors.taken {next : Bool → Parse γ} {otherNext : Bool → Parse δ}
    (taken : (next true).Mirrors frame edge result (otherNext true))
    (other : (next false).Mirrors frame edge result (otherNext false)) (found : Bool) :
    (if found then Parse.advance >>= fun _ => next true else next false).Mirrors frame edge result
      (if found then Parse.advance >>= fun _ => otherNext true else otherNext false) :=
  .ite (fun _ => .advance fun _ _ _ => taken) fun _ => other

/-- A name or an operator is taken if it is in front. -/
theorem Mirrors.eat {text : String} {next : Bool → Parse γ} {otherNext : Bool → Parse δ}
    (taken : (next true).Mirrors frame false result (otherNext true))
    (other : (next false).Mirrors frame false result (otherNext false)) :
    (Parse.eat text >>= next).Mirrors frame false result (Parse.eat text >>= otherNext) := by
  rw [eat_bind, eat_bind]
  exact .check (.taken taken other)

/-- A mark of the layout is taken if it is in front. -/
theorem Mirrors.eatKind {kind : Kind} (layout : kind ≠ .endMarker) {next : Bool → Parse γ}
    {otherNext : Bool → Parse δ} (taken : (next true).Mirrors frame false result (otherNext true))
    (other : (next false).Mirrors frame false result (otherNext false)) :
    (Parse.eatKind kind >>= next).Mirrors frame false result
      (Parse.eatKind kind >>= otherNext) := by
  rw [eatKind_bind layout, eatKind_bind layout]
  exact .checkKind (.taken taken other)

/-- A mark that closes a block is taken if it is in front. -/
theorem Mirrors.eat_dedent {next : Bool → Parse γ} {otherNext : Bool → Parse δ}
    (taken : (next true).Mirrors frame edge result (otherNext true))
    (other : (next false).Mirrors frame edge result (otherNext false)) :
    (Parse.eatKind .dedent >>= next).Mirrors frame edge result
      (Parse.eatKind .dedent >>= otherNext) := by
  rw [eatKind_bind (by decide), eatKind_bind (by decide)]
  exact .check_dedent (.taken taken other)

/-- A look for a name or an operator gives the same on both sides. -/
theorem check_mirrors {text : String} : (check text).Mirrors frame false Eq (check text) := by
  rw [← bind_pure (check text)]
  exact .check fun _ => .pure rfl

/-- A look for decorators that wait gives the same on both sides. -/
theorem hasDecorators_mirrors : hasDecorators.Mirrors frame edge Eq hasDecorators := by
  rw [← bind_pure hasDecorators]
  exact .hasDecorators fun _ => .pure rfl

/-- A name or an operator is taken on both sides or on neither. -/
theorem eat_mirrors {text : String} : (eat text).Mirrors frame false Eq (eat text) := by
  rw [← bind_pure (eat text)]
  exact .eat (.pure rfl) (.pure rfl)

/-- A mark of the layout is taken on both sides or on neither. -/
theorem eatKind_mirrors {kind : Kind} (layout : kind ≠ .endMarker) :
    (eatKind kind).Mirrors frame false Eq (eatKind kind) := by
  rw [← bind_pure (eatKind kind)]
  exact .eatKind layout (.pure rfl) (.pure rfl)

/-- A name or an operator is required, and a parser follows. -/
theorem Mirrors.expect {text : String} {next : Token → Parse γ} {otherNext : Token → Parse δ}
    (later : ∀ token found, (next token).Mirrors frame edge result (otherNext found)) :
    (Parse.expect text >>= next).Mirrors frame edge result (Parse.expect text >>= otherNext) :=
  expect_mirrors.bind fun token found _ => later token found

/-- A kind is required, and a parser follows. -/
theorem Mirrors.expectKind {kind : Kind} {next : Token → Parse γ} {otherNext : Token → Parse δ}
    (later : ∀ token found, (next token).Mirrors frame edge result (otherNext found)) :
    (Parse.expectKind kind >>= next).Mirrors frame edge result
      (Parse.expectKind kind >>= otherNext) :=
  expectKind_mirrors.bind fun token found _ => later token found

/-- A name is required, and a parser follows. -/
theorem Mirrors.expectName {next : String → Parse γ} {otherNext : String → Parse δ}
    (later : ∀ name, (next name).Mirrors frame false result (otherNext name)) :
    (Parse.expectName >>= next).Mirrors frame false result (Parse.expectName >>= otherNext) :=
  expectName_mirrors.bind_eq later

/-- A decorator is put behind those that wait. -/
theorem pushDecorator_mirrors {decorator : Expr} :
    (pushDecorator decorator).Mirrors frame edge Eq (pushDecorator decorator) := by
  intro state standard
  constructor
  · intro out behind read
    obtain ⟨rfl, rfl⟩ := EStateM.Result.ok.inj read
    exact ⟨⟨List.suffix_refl _, rfl, rfl, rfl, fun _ some_ => some_, .inl rfl⟩, _, rfl⟩
  · intro fault behind failed
    contradiction
  · intro out start behind beside read _
    obtain ⟨rfl, rfl⟩ := EStateM.Result.ok.inj read
    refine ⟨_, _, rfl, rfl, beside.front, beside.grammar, ?_, beside.failure, beside.otherFailure⟩
    exact congrArg (· ++ [decorator]) beside.decorators

/-- The decorators that wait are taken. -/
theorem takeDecorators_mirrors : takeDecorators.Mirrors frame edge Eq takeDecorators := by
  intro state standard
  constructor
  · intro out behind read
    obtain ⟨rfl, rfl⟩ := EStateM.Result.ok.inj read
    exact ⟨⟨List.suffix_refl _, rfl, rfl, rfl, fun _ some_ => some_, .inl rfl⟩, _, rfl⟩
  · intro fault behind failed
    contradiction
  · intro out start behind beside read _
    obtain ⟨rfl, rfl⟩ := EStateM.Result.ok.inj read
    exact ⟨_, _, rfl, beside.decorators.symm, beside.front, beside.grammar, rfl, beside.failure,
      beside.otherFailure⟩

end reads

section loops

/-- What a turn leads to on both sides. -/
inductive Turn.Related (again : α → β → Prop) (done : γ → δ → Prop) :
    Turn α γ → Turn β δ → Prop where
  /-- A further turn on both sides. -/
  | again {state : α} {other : β} (fits : again state other) :
      Related again done (.again state) (.again other)
  /-- The end of the loop on both sides. -/
  | done {out : γ} {other : δ} (fits : done out other) : Related again done (.done out) (.done other)

/-- A loop with turns that are mirrored, if the bound on the other side is no smaller. -/
theorem Mirrors.loop_of (again : α → β → Prop) (done : γ → δ → Prop)
    {turn : α → Parse (Turn α γ)} {otherTurn : β → Parse (Turn β δ)}
    (turns : ∀ found other, again found other →
      (turn found).Mirrors frame edge (Turn.Related again done) (otherTurn other))
    {bound otherBound : Nat} (within : bound ≤ otherBound) {found : α} {other : β}
    (start : again found other) :
    (loop turn bound found).Mirrors frame edge done (loop otherTurn otherBound other) := by
  induction bound generalizing otherBound found other with
  | zero => exact .of_fails failExpression_fails
  | succ bound ih =>
    obtain ⟨further, rfl⟩ := Nat.exists_eq_add_of_le' (Nat.one_le_of_lt within)
    refine (turns found other start).bind ?_
    rintro _ _ (fits | fits)
    · exact ih (Nat.le_of_succ_le_succ within) fits
    · exact .pure fits

/-- A loop with turns that give the same on both sides. -/
theorem Mirrors.loop {turn otherTurn : α → Parse (Turn α γ)}
    (turns : ∀ found, (turn found).Mirrors frame edge Eq (otherTurn found))
    {bound otherBound : Nat} (within : bound ≤ otherBound) (found : α) :
    (loop turn bound found).Mirrors frame edge Eq (loop otherTurn otherBound found) := by
  refine .loop_of Eq Eq (fun found other same => ?_) within rfl
  subst same
  refine (turns found).weaken ?_
  rintro (next | out) _ rfl
  · exact .again rfl
  · exact .done rfl

end loops

end Parse

end Offside
