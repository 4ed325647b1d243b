import Offside.Proofs.Grammar.Pairing

/-!
# Parsers in step

Two parsers that run on paired tokens go in step (`Parse.Pairs`): where the first one succeeds, so
does the second one, with a related value, and where the first one fails, so does the second one,
for the same reason and on the corresponding line. At a seam only successes are followed. Each way
of putting parsers together has a rule.

The bound of a parser is a matter of the tokens that are left. There is room for a number of tokens,
a turn of a loop that goes on takes one of them (`Parse.Turns`), and so does a rule that is chosen
by the token in front (`Parse.Leads`), so that a bound is enough as soon as it is greater than the
room (`Pairing.Enough`).
-/
namespace Offside

variable {pairing : Pairing}

/-- What has been read with each word in it renamed. -/
def Parsed.relabel (word : String → String) (parsed : Parsed) : Parsed :=
  ⟨parsed.expr.relabel word, parsed.form⟩

/-- The element and the clauses of a comprehension are renamed. -/
theorem Parsed.relabel_clauses? (word : String → String) (parsed : Parsed) :
    (parsed.relabel word).clauses? =
      parsed.clauses?.map fun found => (found.1.relabel word, relabelClauses word found.2) := by
  obtain ⟨expr, form⟩ := parsed
  cases form with
  | plain | grouped => rfl
  | comprehension => cases expr <;> rfl

namespace Parse

variable {α β γ δ : Type} {room : Nat} {state start : State}

/-- The value on the other side is made from the value. -/
def Carries (make : α → β) (value : α) (found : β) : Prop :=
  found = make value

/-- What two parsers do from two states with paired tokens in front. The values are related with
respect to how many tokens are left. -/
structure PairsAt (pairing : Pairing) (room : Nat) (related : Nat → α → β → Prop)
    (state start : State) (parser : Parse α) (other : Parse β) : Prop where
  /-- Where the first one succeeds, so does the other one. -/
  follows {out : α} {behind : State} (read : parser state = .ok out behind) :
    ∃ value last less, other start = .ok value last ∧ related less out value ∧ less ≤ room ∧
      pairing.Beside less behind last
  /-- Where the first one fails, so does the other one, if there is no seam. -/
  fails {fault : Fault} {behind : State} (bare : pairing.tail = [])
    (failed : parser state = .error fault behind) :
    ∃ found last, other start = .error found last ∧ pairing.Faults fault found

/-- What two parsers do from all states with paired tokens in front, for which there is room. -/
def Pairs (pairing : Pairing) (room : Nat) (related : α → β → Prop) (parser : Parse α)
    (other : Parse β) : Prop :=
  ∀ left ≤ room, ∀ state start, pairing.Beside left state start →
    PairsAt pairing left (fun _ => related) state start parser other

/-- What two parsers do from all states whose token in front is before the seam and has the same
text on both sides. They take that token, behind which there is room. -/
def Leads (pairing : Pairing) (room : Nat) (related : α → β → Prop) (parser : Parse α)
    (other : Parse β) : Prop :=
  ∀ left ≤ room, ∀ state start, pairing.Beside (left + 1) state start → pairing.Inside state →
    start.current.value = state.current.value →
    PairsAt pairing (left + 1) (fun less out value => less ≤ left ∧ related out value) state start
      parser other

/-- What a turn leads to on both sides. Before a further turn a token is taken. -/
inductive Turn.Spends (room : Nat) (again : α → β → Prop) (done : γ → δ → Prop) (less : Nat) :
    Turn α γ → Turn β δ → Prop where
  /-- A further turn on both sides. -/
  | again {value : α} {found : β} (taken : less < room) (fits : again value found) :
    Spends room again done less (.again value) (.again found)
  /-- The end of the loop on both sides. -/
  | done {out : γ} {found : δ} (fits : done out found) :
    Spends room again done less (.done out) (.done found)

/-- What the turns of two loops do from all states with paired tokens in front. -/
def Turns (pairing : Pairing) (room : Nat) (again : α → β → Prop) (done : γ → δ → Prop)
    (turn : Parse (Turn α γ)) (other : Parse (Turn β δ)) : Prop :=
  ∀ left ≤ room, ∀ state start, pairing.Beside left state start →
    PairsAt pairing left (Turn.Spends left again done) state start turn other

section states

variable {related : Nat → α → β → Prop} {result : Nat → γ → δ → Prop}

/-- A value without reading. -/
theorem PairsAt.pure {value : γ} {found : δ} (beside : pairing.Beside room state start)
    (fits : result room value found) :
    PairsAt pairing room result state start (Pure.pure value) (Pure.pure found) where
  follows read := by
    obtain ⟨rfl, rfl⟩ := pure_ok read
    exact ⟨found, start, room, rfl, fits, Nat.le_refl room, beside⟩
  fails _ failed := by contradiction

/-- Two parsers in order. -/
theorem PairsAt.bind {parser : Parse α} {other : Parse β} {next : α → Parse γ}
    {otherNext : β → Parse δ} (first : PairsAt pairing room related state start parser other)
    (later : ∀ value found less between onward, related less value found → less ≤ room →
      pairing.Beside less between onward →
      PairsAt pairing less result between onward (next value) (otherNext found)) :
    PairsAt pairing room result state start (parser >>= next) (other >>= otherNext) where
  follows read := by
    obtain ⟨value, between, head, tail⟩ := bind_ok read
    obtain ⟨found, onward, less, otherHead, fits, fewer, beside⟩ := first.follows head
    obtain ⟨out, last, least, otherTail, made, fewest, behind⟩ :=
      (later value found less between onward fits fewer beside).follows tail
    exact ⟨out, last, least, (bind_of_ok otherHead).trans otherTail, made,
      Nat.le_trans fewest fewer, behind⟩
  fails bare failed := by
    rcases bind_error failed with failed | ⟨value, between, head, tail⟩
    · obtain ⟨found, last, otherFailed, faults⟩ := first.fails bare failed
      exact ⟨found, last, bind_of_error otherFailed, faults⟩
    · obtain ⟨found, onward, less, otherHead, fits, fewer, beside⟩ := first.follows head
      obtain ⟨fault, last, otherTail, faults⟩ :=
        (later value found less between onward fits fewer beside).fails bare tail
      exact ⟨fault, last, (bind_of_ok otherHead).trans otherTail, faults⟩

/-- A look at both states that finds the same. -/
theorem PairsAt.look {parser : Parse α} (view : State → α)
    (looks : parser = fun state => .ok (view state) state) (same : view start = view state)
    {next : α → Parse γ} {otherNext : α → Parse δ}
    (later : PairsAt pairing room result state start (next (view state)) (otherNext (view state))) :
    PairsAt pairing room result state start (parser >>= next) (parser >>= otherNext) := by
  subst looks
  have there : ((fun state => .ok (view state) state : Parse α) >>= otherNext) start =
      otherNext (view state) start := by
    show otherNext (view start) start = _
    rw [same]
  refine ⟨fun read => ?_, fun bare failed => ?_⟩
  · rw [there]
    exact later.follows read
  · rw [there]
    exact later.fails bare failed

/-- Two parsers that succeed. -/
theorem PairsAt.of_ok {parser : Parse γ} {other : Parse δ} {value : γ} {found : δ}
    {behind last : State} {less : Nat} (read : parser state = .ok value behind)
    (otherRead : other start = .ok found last) (fits : result less value found)
    (fewer : less ≤ room) (beside : pairing.Beside less behind last) :
    PairsAt pairing room result state start parser other where
  follows again := by
    rw [read] at again
    obtain ⟨rfl, rfl⟩ := EStateM.Result.ok.inj again
    exact ⟨found, last, less, otherRead, fits, fewer, beside⟩
  fails _ failed := by
    rw [read] at failed
    contradiction

/-- Two parsers that fail. -/
theorem PairsAt.of_error {parser : Parse γ} {other : Parse δ} {fault found : Fault}
    {behind last : State} (failed : parser state = .error fault behind)
    (otherFailed : other start = .error found last)
    (faults : pairing.tail = [] → pairing.Faults fault found) :
    PairsAt pairing room result state start parser other where
  follows read := by
    rw [failed] at read
    contradiction
  fails bare again := by
    rw [failed] at again
    obtain ⟨rfl, rfl⟩ := EStateM.Result.error.inj again
    exact ⟨found, last, otherFailed, faults bare⟩

/-- At the seam the other parser may do anything, if the first one does not succeed. -/
theorem PairsAt.of_stuck {parser : Parse γ} {other : Parse δ} (seam : pairing.tail ≠ [])
    (stuck : ∀ out behind, parser state ≠ .ok out behind) :
    PairsAt pairing room result state start parser other :=
  ⟨fun read => absurd read (stuck _ _), fun bare => absurd bare seam⟩

/-- The token in front is taken, if it is before the seam. -/
theorem advance_pairsAt (beside : pairing.Beside room state start)
    (inside : pairing.Inside state) :
    PairsAt pairing room (fun less token found => token = state.current ∧
      found = start.current ∧ less < room) state start advance advance := by
  have current := beside.current_inside inside
  obtain ⟨token, found, front, back, ahead, otherAhead, -, tokens, within⟩ :=
    beside.inside_cases inside
  have first : state.current = token := by
    rw [State.current, ahead]
    rfl
  have second : start.current = found := by
    rw [State.current, otherAhead]
    rfl
  rw [first, second] at current ⊢
  have ends : back ++ pairing.after = [] ↔ front ++ pairing.tail = [] := by
    rw [List.append_eq_nil_iff, List.append_eq_nil_iff, pairing.after_eq_nil,
      ← List.length_eq_zero_iff, ← tokens.length_eq, List.length_eq_zero_iff]
  by_cases last : state.failure ≠ none ∧ front ++ pairing.tail = []
  · obtain ⟨waits, empty⟩ := last
    obtain ⟨fault, failure⟩ := Option.ne_none_iff_exists'.1 waits
    obtain ⟨other, otherFailure, faults⟩ := beside.failure_some failure
    rw [empty] at ahead
    rw [ends.2 empty] at otherAhead
    exact .of_error (advance_of_last ahead failure) (advance_of_last otherAhead otherFailure)
      fun _ => faults
  · have guarded (waits : state.failure ≠ none) : front ++ pairing.tail ≠ [] :=
      fun empty => last ⟨waits, empty⟩
    have otherGuarded (waits : start.failure ≠ none) : back ++ pairing.after ≠ [] :=
      fun empty => guarded (mt beside.failure_none.1 waits) (ends.1 empty)
    exact .of_ok (advance_of_cons ahead guarded) (advance_of_cons otherAhead otherGuarded)
      ⟨rfl, rfl, within⟩ (Nat.le_of_lt within) ⟨⟨front, back, rfl, rfl, tokens, Nat.le_refl _⟩,
        beside.grammar, beside.otherGrammar, beside.file, beside.decorators, beside.failure,
        current.line⟩

/-- A look at the token in front. -/
theorem PairsAt.current {next : Token → Parse γ} {otherNext : Token → Parse δ}
    (later : PairsAt pairing room result state start (next state.current)
      (otherNext start.current)) :
    PairsAt pairing room result state start (Parse.current >>= next)
      (Parse.current >>= otherNext) :=
  ⟨fun read => later.follows read, fun bare failed => later.fails bare failed⟩

/-- The token in front is taken, if it is before the seam, and a parser follows. -/
theorem PairsAt.advance (beside : pairing.Beside room state start)
    (inside : pairing.Inside state) {next : Token → Parse γ} {otherNext : Token → Parse δ}
    (later : ∀ less between onward, less < room → pairing.Beside less between onward →
      PairsAt pairing less result between onward (next state.current) (otherNext start.current)) :
    PairsAt pairing room result state start (Parse.advance >>= next)
      (Parse.advance >>= otherNext) := by
  refine (advance_pairsAt beside inside).bind ?_
  rintro _ _ less between onward ⟨rfl, rfl, taken⟩ - beside
  exact later less between onward taken beside

/-- The same choice on both sides. -/
theorem PairsAt.ite {condition : Prop} [Decidable condition] {first second : Parse γ}
    {otherFirst otherSecond : Parse δ}
    (holds : condition → PairsAt pairing room result state start first otherFirst)
    (fails : ¬condition → PairsAt pairing room result state start second otherSecond) :
    PairsAt pairing room result state start (if condition then first else second)
      (if condition then otherFirst else otherSecond) := by
  by_cases known : condition
  · rw [if_pos known, if_pos known]
    exact holds known
  · rw [if_neg known, if_neg known]
    exact fails known

/-- A look for a text that tells nothing apart at the seam. -/
theorem PairsAt.check {text : String} (beside : pairing.Beside room state start)
    (tells : pairing.Tells text) {next : Bool → Parse γ} {otherNext : Bool → Parse δ}
    (later : PairsAt pairing room result state start (next (state.current.isText text))
      (otherNext (state.current.isText text))) :
    PairsAt pairing room result state start (Parse.check text >>= next)
      (Parse.check text >>= otherNext) :=
  .look (fun state => state.current.isText text) rfl (beside.isText tells) later

/-- A text is taken if it is in front. -/
theorem PairsAt.eat {text : String} (beside : pairing.Beside room state start)
    (tells : pairing.Tells text) {next : Bool → Parse γ} {otherNext : Bool → Parse δ}
    (taken : ∀ less between onward, less < room → pairing.Beside less between onward →
      PairsAt pairing less result between onward (next true) (otherNext true))
    (other : PairsAt pairing room result state start (next false) (otherNext false)) :
    PairsAt pairing room result state start (Parse.eat text >>= next)
      (Parse.eat text >>= otherNext) := by
  rw [eat_bind, eat_bind]
  refine .check beside tells (.ite (fun written => ?_) fun _ => other)
  exact .advance beside (beside.inside_of_isText written) taken

/-- The values may be related by less. -/
theorem PairsAt.weaken {weak : Nat → γ → δ → Prop} {parser : Parse γ} {other : Parse δ}
    (pairs : PairsAt pairing room result state start parser other)
    (weaker : ∀ less out value, less ≤ room → result less out value → weak less out value) :
    PairsAt pairing room weak state start parser other where
  follows read := by
    obtain ⟨value, last, less, otherRead, fits, fewer, beside⟩ := pairs.follows read
    exact ⟨value, last, less, otherRead, weaker less _ value fewer fits, fewer, beside⟩
  fails := pairs.fails

/-- A text that is not in front is not taken. -/
theorem eat_missing {text : String} (missing : state.current.isText text = false)
    {next : Bool → Parse γ} : (Parse.eat text >>= next) state = next false state := by
  rw [eat_bind]
  show (if state.current.isText text then _ else next false) state = _
  rw [missing]
  rfl

/-- A line end is no text. -/
theorem isText_of_newline (ends : state.current.kind = .newline) (text : String) :
    state.current.isText text = false := by
  rw [Token.isText, ends]
  rfl

/-- A look for a text that may be the mark at the seam, where nothing is read behind it. -/
theorem PairsAt.check_or_stuck {text : String} (beside : pairing.Beside room state start)
    (fixed : isIdentifier text = false) {next : Bool → Parse γ} {otherNext : Bool → Parse δ}
    (later : PairsAt pairing room result state start (next (state.current.isText text))
      (otherNext (state.current.isText text)))
    (stuck : state.current.kind = .newline → ∀ out behind, next false state ≠ .ok out behind) :
    PairsAt pairing room result state start (Parse.check text >>= next)
      (Parse.check text >>= otherNext) := by
  rcases beside.current_cases with tokens | ⟨seam, -, ends, -⟩
  · exact .look (fun state => state.current.isText text) rfl (tokens.isText fixed) later
  · refine .of_stuck seam fun out behind read => stuck ends out behind ?_
    rw [← isText_of_newline ends text]
    exact read

/-- A text that may be the mark at the seam is taken if it is in front, where nothing is read
without it. -/
theorem PairsAt.eat_or_stuck {text : String} (beside : pairing.Beside room state start)
    (fixed : isIdentifier text = false) {next : Bool → Parse γ} {otherNext : Bool → Parse δ}
    (taken : ∀ less between onward, less < room → pairing.Beside less between onward →
      PairsAt pairing less result between onward (next true) (otherNext true))
    (other : PairsAt pairing room result state start (next false) (otherNext false))
    (stuck : state.current.kind = .newline → ∀ out behind, next false state ≠ .ok out behind) :
    PairsAt pairing room result state start (Parse.eat text >>= next)
      (Parse.eat text >>= otherNext) := by
  rw [eat_bind, eat_bind]
  refine .check_or_stuck beside fixed (.ite (fun written => ?_) fun _ => other) stuck
  exact .advance beside (beside.inside_of_isText written) taken

/-- A failure with a cause, whatever would be read behind it. -/
theorem PairsAt.fail_bind {cause found : Cause} (beside : pairing.Beside room state start)
    (like : cause.Like pairing.rename found) {next : α → Parse γ} {otherNext : β → Parse δ} :
    PairsAt pairing room result state start (Parse.fail cause >>= next)
      (Parse.fail found >>= otherNext) :=
  .of_error (bind_of_error rfl) (bind_of_error rfl) fun bare =>
    ⟨like, (beside.current bare).line, beside.file⟩

end states

section rules

variable {related : α → β → Prop} {result : γ → δ → Prop}

/-- What holds with more room holds with less. -/
theorem Pairs.less {less : Nat} {parser : Parse γ} {other : Parse δ}
    (pairs : parser.Pairs pairing room result other) (fewer : less ≤ room) :
    parser.Pairs pairing less result other :=
  fun left within => pairs left (Nat.le_trans within fewer)

/-- A value without reading. -/
theorem Pairs.pure {value : γ} {found : δ} (fits : result value found) :
    (Pure.pure value : Parse γ).Pairs pairing room result (Pure.pure found) :=
  fun _ _ _ _ beside => .pure beside fits

/-- Two parsers in order. -/
theorem Pairs.bind {parser : Parse α} {other : Parse β} {next : α → Parse γ}
    {otherNext : β → Parse δ} (first : parser.Pairs pairing room related other)
    (later : ∀ value found, related value found →
      (next value).Pairs pairing room result (otherNext found)) :
    (parser >>= next).Pairs pairing room result (other >>= otherNext) := by
  intro left within state start beside
  refine (first left within state start beside).bind ?_
  intro value found less between onward fits fewer beside
  exact later value found fits less (Nat.le_trans fewer within) between onward beside

/-- Two parsers in order, of which the first one gives what is made from its value. -/
theorem Pairs.bind_carried {make : α → β} {parser : Parse α} {other : Parse β} {next : α → Parse γ}
    {otherNext : β → Parse δ} (first : parser.Pairs pairing room (Carries make) other)
    (later : ∀ value, (next value).Pairs pairing room result (otherNext (make value))) :
    (parser >>= next).Pairs pairing room result (other >>= otherNext) := by
  refine first.bind ?_
  rintro value _ rfl
  exact later value

/-- The same choice on both sides. -/
theorem Pairs.ite {condition : Prop} [Decidable condition] {first second : Parse γ}
    {otherFirst otherSecond : Parse δ}
    (holds : condition → first.Pairs pairing room result otherFirst)
    (fails : ¬condition → second.Pairs pairing room result otherSecond) :
    (if condition then first else second).Pairs pairing room result
      (if condition then otherFirst else otherSecond) :=
  fun left within state start beside =>
    .ite (fun known => holds known left within state start beside)
      fun known => fails known left within state start beside

/-- A failure with a cause. -/
theorem Pairs.fail {cause found : Cause} (like : cause.Like pairing.rename found) :
    (Parse.fail cause : Parse γ).Pairs pairing room result (Parse.fail found : Parse δ) :=
  fun _ _ _ _ beside => .of_error rfl rfl fun bare =>
    ⟨like, (beside.current bare).line, beside.file⟩

/-- A failure that looks at the token in front. -/
theorem Pairs.refuse {next : Token → Parse γ} {otherNext : Token → Parse δ}
    (fails : ∀ token, (next token).Fails) (otherFails : ∀ token, (otherNext token).Fails)
    (later : ∀ token found, pairing.Tokens token found →
      (next token).Pairs pairing room result (otherNext found)) :
    (Parse.current >>= next).Pairs pairing room result (Parse.current >>= otherNext) := by
  intro left within state start beside
  by_cases bare : pairing.tail = []
  · exact .current (later _ _ (beside.current bare) left within state start beside)
  · obtain ⟨cause, failed⟩ := fails state.current state
    obtain ⟨found, otherFailed⟩ := otherFails start.current start
    exact .of_error failed otherFailed fun empty => absurd empty bare

/-- A missing expression. -/
theorem failExpression_pairs :
    (failExpression : Parse γ).Pairs pairing room result (failExpression : Parse δ) := by
  refine .refuse (fun token => ?_) (fun token => ?_) fun token found tokens => ?_
  · split <;> exact .fail
  · split <;> exact .fail
  · rw [tokens.kind]
    split
    · exact .fail (.refl _)
    · exact .fail (.refl _)
    · exact .fail (.describe .expectedExpression (fun _ _ => rfl) tokens)

/-- A missing statement. -/
theorem failStatement_pairs :
    (failStatement : Parse γ).Pairs pairing room result (failStatement : Parse δ) := by
  refine .refuse (fun token => ?_) (fun token => ?_) fun token found tokens => ?_
  · split <;> exact .fail
  · split <;> exact .fail
  · rw [tokens.kind]
    split
    · exact .fail (.refl _)
    · exact .fail (.refl _)
    · exact .fail (.describe .expectedStatement (fun _ _ => rfl) tokens)

/-- A token that is something else than what is required. -/
theorem failExpected_pairs {expected : String} :
    (failExpected expected : Parse γ).Pairs pairing room result
      (failExpected expected : Parse δ) :=
  .refuse (fun _ => .fail) (fun _ => .fail) fun _ _ tokens =>
    .fail (.describe (.expectedToken expected) (fun _ _ => rfl) tokens)

/-- A value or a failure. -/
theorem Pairs.lift {make : α → β} {value : Except Cause α} {found : Except Cause β}
    (same : found = value.map make) {next : α → Parse γ} {otherNext : β → Parse δ}
    (later : ∀ out, value = .ok out →
      (next out).Pairs pairing room result (otherNext (make out))) :
    (Parse.lift value >>= next).Pairs pairing room result (Parse.lift found >>= otherNext) := by
  subst same
  cases value with
  | error cause => exact fun _ _ _ _ beside => .fail_bind beside (.refl cause)
  | ok out => exact later out rfl

/-- A look at the state that finds the same on both sides. -/
theorem Pairs.look {parser : Parse α} (view : State → α)
    (looks : parser = fun state => .ok (view state) state)
    (same : ∀ left state start, pairing.Beside left state start → view start = view state)
    {next : α → Parse γ} {otherNext : α → Parse δ}
    (later : ∀ value, (next value).Pairs pairing room result (otherNext value)) :
    (parser >>= next).Pairs pairing room result (parser >>= otherNext) :=
  fun left within state start beside =>
    .look view looks (same left state start beside) (later _ left within state start beside)

/-- A look for a text that tells nothing apart at the seam. -/
theorem Pairs.check {text : String} (tells : pairing.Tells text) {next : Bool → Parse γ}
    {otherNext : Bool → Parse δ}
    (later : ∀ found, (next found).Pairs pairing room result (otherNext found)) :
    (Parse.check text >>= next).Pairs pairing room result (Parse.check text >>= otherNext) :=
  .look (fun state => state.current.isText text) rfl (fun _ _ _ beside => beside.isText tells) later

/-- A look for the end of an expression. -/
theorem Pairs.atDelimiter {next : Bool → Parse γ} {otherNext : Bool → Parse δ}
    (later : ∀ found, (next found).Pairs pairing room result (otherNext found)) :
    (Parse.atDelimiter >>= next).Pairs pairing room result (Parse.atDelimiter >>= otherNext) :=
  .look (fun state => state.current.kind = .newline || state.current.kind = .endMarker ||
    (state.current.kind = .operator && delimiters.contains state.current.value)) rfl
    (fun _ _ _ beside => beside.atDelimiter) later

/-- A text is taken if it is in front. -/
theorem Pairs.eat {text : String} (tells : pairing.Tells text) {next : Bool → Parse γ}
    {otherNext : Bool → Parse δ} (taken : (next true).Pairs pairing room result (otherNext true))
    (other : (next false).Pairs pairing room result (otherNext false)) :
    (Parse.eat text >>= next).Pairs pairing room result (Parse.eat text >>= otherNext) := by
  intro left within state start beside
  refine .eat beside tells ?_ (other left within state start beside)
  intro less between onward fewer
  exact taken less (Nat.le_trans (Nat.le_of_lt fewer) within) between onward

/-- A text is required. -/
theorem Pairs.expect {text : String} (fixed : isIdentifier text = false) {next : Token → Parse γ}
    {otherNext : Token → Parse δ}
    (later : ∀ token found, (next token).Pairs pairing room result (otherNext found)) :
    (Parse.expect text >>= next).Pairs pairing room result (Parse.expect text >>= otherNext) := by
  have taken : (Parse.expect text).Pairs pairing room (fun _ _ => True) (Parse.expect text) := by
    intro left within state start beside
    rcases beside.current_cases with tokens | ⟨seam, -, ends, -⟩
    · refine .look (fun state => state.current.isText text) rfl (tokens.isText fixed)
        (.ite (fun written => ?_) fun _ => failExpected_pairs left within state start beside)
      exact (advance_pairsAt beside (beside.inside_of_isText written)).weaken fun _ _ _ _ _ => trivial
    · refine .of_stuck seam fun out behind read => ?_
      have failed : Parse.expect text state = failExpected text state := by
        show (if state.current.isText text then advance else failExpected text) state = _
        rw [isText_of_newline ends text]
        rfl
      exact failExpected_fails.ne (failed.symm.trans read)
  exact taken.bind fun token found _ => later token found

/-- A name is required. It is a word without points, unless nothing is renamed. -/
theorem expectName_pairs :
    expectName.Pairs pairing room (fun name found =>
      mapDotted pairing.rename.word name = pairing.rename.word name ∧
        found = pairing.rename.word name) expectName := by
  intro left within state start beside
  refine .current ?_
  rcases beside.current_cases with tokens | ⟨seam, -, ends, -⟩
  · rw [tokens.kind, tokens.isKeyword]
    refine .ite (fun named => ?_) fun _ => failExpected_pairs left within state start beside
    have kind : state.current.kind = .name := by
      rw [Bool.and_eq_true, decide_eq_true_eq] at named
      exact named.1
    have plain := tokens.mapDotted_value kind
    obtain ⟨inside, renamed⟩ := beside.name_in_front kind
    exact .advance beside inside fun less between onward _ behind => .pure behind ⟨plain, renamed⟩
  · refine .of_stuck seam fun out behind => ?_
    rw [ends]
    exact failExpected_fails.ne

/-- A name is required, and a parser follows. -/
theorem Pairs.expectName {next otherNext : String → Parse γ} {result : γ → γ → Prop}
    (later : ∀ name, (next name).Pairs pairing room result (otherNext (pairing.rename.word name))) :
    (Parse.expectName >>= next).Pairs pairing room result (Parse.expectName >>= otherNext) := by
  refine expectName_pairs.bind ?_
  rintro name _ ⟨-, rfl⟩
  exact later name

/-- The end of an expression that is no comprehension without brackets. -/
theorem Pairs.finish {parsed : Parsed} {next : Expr → Parse γ} {otherNext : Expr → Parse δ}
    (later : (next parsed.expr).Pairs pairing room result
      (otherNext (parsed.expr.relabel pairing.rename.word))) :
    (parsed.finish >>= next).Pairs pairing room result
      ((parsed.relabel pairing.rename.word).finish >>= otherNext) := by
  have same : (parsed.relabel pairing.rename.word).form = parsed.form := rfl
  rw [Parsed.finish, Parsed.finish, same]
  split
  · exact fun _ _ _ _ beside => .fail_bind beside (.refl _)
  · exact later

/-- A look for decorators that wait. -/
theorem Pairs.hasDecorators {next : Bool → Parse γ} {otherNext : Bool → Parse δ}
    (later : ∀ found, (next found).Pairs pairing room result (otherNext found)) :
    (Parse.hasDecorators >>= next).Pairs pairing room result
      (Parse.hasDecorators >>= otherNext) := by
  refine .look (fun state => !state.decorators.isEmpty) rfl (fun _ _ _ beside => ?_) later
  rw [beside.decorators, List.isEmpty_map]

/-- A decorator is put behind those that wait. -/
theorem pushDecorator_pairs (decorator : Expr) :
    (pushDecorator decorator).Pairs pairing room Eq
      (pushDecorator (decorator.relabel pairing.rename.word)) := by
  intro left within state start beside
  refine .of_ok rfl rfl rfl (Nat.le_refl left) ⟨beside.front, beside.grammar, beside.otherGrammar,
    beside.file, ?_, beside.failure, beside.line⟩
  show start.decorators ++ _ = _
  rw [beside.decorators, List.map_append]
  rfl

/-- The decorators that wait are taken. -/
theorem takeDecorators_pairs :
    takeDecorators.Pairs pairing room (Carries (relabelExprs pairing.rename.word))
      takeDecorators := by
  intro left within state start beside
  refine .of_ok rfl rfl ?_ (Nat.le_refl left) ⟨beside.front, beside.grammar, beside.otherGrammar,
    beside.file, rfl, beside.failure, beside.line⟩
  rw [Carries, relabelExprs_eq_map]
  exact beside.decorators

/-- Two loops with the same bound go in step, also if their turns take nothing. -/
theorem Pairs.loop_same (again : α → β → Prop) {turn : α → Parse (Turn α γ)}
    {otherTurn : β → Parse (Turn β δ)}
    (turns : ∀ value found, again value found →
      (turn value).Pairs pairing room (Turn.Related again result) (otherTurn found))
    {bound otherBound : Nat} (same : bound = otherBound) {value : α} {found : β}
    (fits : again value found) :
    (loop turn bound value).Pairs pairing room result (loop otherTurn otherBound found) := by
  subst same
  induction bound generalizing value found with
  | zero => exact failExpression_pairs
  | succ bound ih =>
    refine (turns value found fits).bind ?_
    rintro _ _ (fits | fits)
    · exact ih fits
    · exact .pure fits

/-- A loop that gives what its turns have gathered, and a parser behind it. -/
theorem Pairs.loop_bind {ε ζ : Type} (gathered : ε → ζ → Prop) {turn : ε → Parse (Turn ε ε)}
    {otherTurn : ζ → Parse (Turn ζ ζ)}
    (turns : ∀ value found, gathered value found →
      (turn value).Pairs pairing room (Turn.Related gathered gathered) (otherTurn found))
    {bound otherBound : Nat} (same : bound = otherBound) {value : ε} {found : ζ}
    (fits : gathered value found) {next : ε → Parse γ} {otherNext : ζ → Parse δ}
    (later : ∀ value found, gathered value found →
      (next value).Pairs pairing room result (otherNext found)) :
    (loop turn bound value >>= next).Pairs pairing room result
      (loop otherTurn otherBound found >>= otherNext) :=
  (loop_same gathered turns same fits).bind later

section whole

variable (bare : pairing.tail = [])
include bare

/-- Without a seam a token may be taken anywhere. -/
theorem advance_pairs : advance.Pairs pairing room pairing.Tokens advance := by
  intro left within state start beside
  rcases beside.cases with ⟨token, found, front, back, ahead, -⟩ | ⟨here, there⟩
  · have inside : pairing.Inside state := ⟨token, front, ahead⟩
    refine (advance_pairsAt beside inside).weaken ?_
    rintro _ _ _ - ⟨rfl, rfl, -⟩
    exact beside.current_inside inside
  · rw [bare] at here
    rw [pairing.after_eq_nil.2 bare] at there
    have taken {state : State} (empty : state.ahead = []) : advance state = .ok state.current state := by
      rcases advance_cases state with ⟨-, read⟩ | ⟨_, _, some_, -⟩ | ⟨_, _, some_, -⟩
      · exact read
      · rw [empty] at some_
        contradiction
      · rw [empty] at some_
        contradiction
    exact .of_ok (taken here) (taken there) (beside.current bare) (Nat.le_refl left) beside

/-- Without a seam a token is taken, and a parser follows. -/
theorem Pairs.advance {next : Token → Parse γ} {otherNext : Token → Parse δ}
    (later : ∀ token found, pairing.Tokens token found →
      (next token).Pairs pairing room result (otherNext found)) :
    (Parse.advance >>= next).Pairs pairing room result (Parse.advance >>= otherNext) :=
  (advance_pairs bare).bind later

/-- A look at the token in front. -/
theorem Pairs.current {next : Token → Parse γ} {otherNext : Token → Parse δ}
    (later : ∀ token found, pairing.Tokens token found →
      (next token).Pairs pairing room result (otherNext found)) :
    (Parse.current >>= next).Pairs pairing room result (Parse.current >>= otherNext) :=
  fun left within state start beside =>
    .current (later _ _ (beside.current bare) left within state start beside)

/-- A look for a kind. -/
theorem Pairs.checkKind {kind : Kind} {next : Bool → Parse γ} {otherNext : Bool → Parse δ}
    (later : ∀ found, (next found).Pairs pairing room result (otherNext found)) :
    (Parse.checkKind kind >>= next).Pairs pairing room result
      (Parse.checkKind kind >>= otherNext) := by
  refine .look (fun state => decide (state.current.kind = kind)) rfl (fun _ _ _ beside => ?_) later
  rw [(beside.current bare).kind]

/-- A mark of the layout is taken if it is in front. -/
theorem Pairs.eatKind {kind : Kind} (layout : kind ≠ .endMarker) {next : Bool → Parse γ}
    {otherNext : Bool → Parse δ} (taken : (next true).Pairs pairing room result (otherNext true))
    (other : (next false).Pairs pairing room result (otherNext false)) :
    (Parse.eatKind kind >>= next).Pairs pairing room result (Parse.eatKind kind >>= otherNext) := by
  rw [eatKind_bind layout, eatKind_bind layout]
  refine .checkKind bare fun found => .ite (fun _ => ?_) fun _ => other
  exact .advance bare fun _ _ _ => taken

/-- A kind is required, and a parser follows. -/
theorem Pairs.expectKind {kind : Kind} {next : Token → Parse γ} {otherNext : Token → Parse δ}
    (later : ∀ token found, (next token).Pairs pairing room result (otherNext found)) :
    (Parse.expectKind kind >>= next).Pairs pairing room result
      (Parse.expectKind kind >>= otherNext) := by
  have taken : (Parse.expectKind kind).Pairs pairing room pairing.Tokens (Parse.expectKind kind) := by
    refine .checkKind bare fun found => .ite (fun _ => advance_pairs bare) fun _ => ?_
    exact failExpected_pairs
  exact taken.bind fun token found _ => later token found

end whole

end rules

section turns

variable {again : α → β → Prop} {done : γ → δ → Prop}

/-- What holds with more room holds with less. -/
theorem Turns.less {less : Nat} {turn : Parse (Turn α γ)} {other : Parse (Turn β δ)}
    (turns : turn.Turns pairing room again done other) (fewer : less ≤ room) :
    turn.Turns pairing less again done other :=
  fun left within => turns left (Nat.le_trans within fewer)

/-- The end of a loop. -/
theorem Turns.ended {value : γ} {found : δ} (fits : done value found) :
    (Pure.pure (.done value) : Parse (Turn α γ)).Turns pairing room again done
      (Pure.pure (.done found)) :=
  fun _ _ _ _ beside => .pure beside (.done fits)

/-- A parser, and a turn behind it. -/
theorem Turns.bind {ε ζ : Type} {related : ε → ζ → Prop} {parser : Parse ε} {other : Parse ζ}
    {next : ε → Parse (Turn α γ)} {otherNext : ζ → Parse (Turn β δ)}
    (first : parser.Pairs pairing room related other)
    (later : ∀ value found, related value found →
      (next value).Turns pairing room again done (otherNext found)) :
    (parser >>= next).Turns pairing room again done (other >>= otherNext) := by
  intro left within state start beside
  refine (first left within state start beside).bind ?_
  intro value found less between onward fits fewer beside
  refine (later value found fits less (Nat.le_trans fewer within) between onward beside).weaken ?_
  rintro _ _ _ - (⟨taken, fits⟩ | fits)
  · exact .again (Nat.lt_of_lt_of_le taken fewer) fits
  · exact .done fits

/-- A parser that gives what is made from its value, and a turn behind it. -/
theorem Turns.bind_carried {ε ζ : Type} {make : ε → ζ} {parser : Parse ε} {other : Parse ζ}
    {next : ε → Parse (Turn α γ)} {otherNext : ζ → Parse (Turn β δ)}
    (first : parser.Pairs pairing room (Carries make) other)
    (later : ∀ value, (next value).Turns pairing room again done (otherNext (make value))) :
    (parser >>= next).Turns pairing room again done (other >>= otherNext) := by
  refine .bind first ?_
  rintro value _ rfl
  exact later value

/-- A parser that ends the loop. -/
theorem Turns.of_pairs {turn : Parse (Turn α γ)} {other : Parse (Turn β δ)}
    (pairs : turn.Pairs pairing room (Turn.Related (fun _ _ => False) done) other) :
    turn.Turns pairing room again done other := by
  intro left within state start beside
  refine (pairs left within state start beside).weaken ?_
  rintro _ _ _ - (impossible | fits)
  · exact impossible.elim
  · exact .done fits

/-- A text is taken if it is in front. Where it is taken the loop may go on. -/
theorem Turns.eat {text : String} (tells : pairing.Tells text) {next : Bool → Parse (Turn α γ)}
    {otherNext : Bool → Parse (Turn β δ)}
    (taken : (next true).Pairs pairing room (Turn.Related again done) (otherNext true))
    (other : (next false).Turns pairing room again done (otherNext false)) :
    (Parse.eat text >>= next).Turns pairing room again done (Parse.eat text >>= otherNext) := by
  intro left within state start beside
  refine .eat beside tells ?_ (other left within state start beside)
  intro less between onward fewer beside
  have inside := Nat.le_trans (Nat.le_of_lt fewer) within
  refine (taken less inside between onward beside).weaken ?_
  rintro _ _ _ least (fits | fits)
  · exact .again (Nat.lt_of_le_of_lt least fewer) fits
  · exact .done fits

/-- A look at the state that finds the same on both sides. -/
theorem Turns.look {ε : Type} {parser : Parse ε} (view : State → ε)
    (looks : parser = fun state => .ok (view state) state)
    (same : ∀ left state start, pairing.Beside left state start → view start = view state)
    {next : ε → Parse (Turn α γ)} {otherNext : ε → Parse (Turn β δ)}
    (later : ∀ value, (next value).Turns pairing room again done (otherNext value)) :
    (parser >>= next).Turns pairing room again done (parser >>= otherNext) :=
  fun left within state start beside =>
    .look view looks (same left state start beside) (later _ left within state start beside)

/-- A look for a text that tells nothing apart at the seam. -/
theorem Turns.check {text : String} (tells : pairing.Tells text)
    {next : Bool → Parse (Turn α γ)} {otherNext : Bool → Parse (Turn β δ)}
    (later : ∀ found, (next found).Turns pairing room again done (otherNext found)) :
    (Parse.check text >>= next).Turns pairing room again done (Parse.check text >>= otherNext) :=
  .look (fun state => state.current.isText text) rfl (fun _ _ _ beside => beside.isText tells) later

/-- A look for the end of an expression. -/
theorem Turns.atDelimiter {next : Bool → Parse (Turn α γ)} {otherNext : Bool → Parse (Turn β δ)}
    (later : ∀ found, (next found).Turns pairing room again done (otherNext found)) :
    (Parse.atDelimiter >>= next).Turns pairing room again done (Parse.atDelimiter >>= otherNext) :=
  .look (fun state => state.current.kind = .newline || state.current.kind = .endMarker ||
    (state.current.kind = .operator && delimiters.contains state.current.value)) rfl
    (fun _ _ _ beside => beside.atDelimiter) later

/-- The end of an expression that is no comprehension without brackets. -/
theorem Turns.finish {parsed : Parsed} {next : Expr → Parse (Turn α γ)}
    {otherNext : Expr → Parse (Turn β δ)}
    (later : (next parsed.expr).Turns pairing room again done
      (otherNext (parsed.expr.relabel pairing.rename.word))) :
    (parsed.finish >>= next).Turns pairing room again done
      ((parsed.relabel pairing.rename.word).finish >>= otherNext) := by
  have same : (parsed.relabel pairing.rename.word).form = parsed.form := rfl
  rw [Parsed.finish, Parsed.finish, same]
  split
  · exact fun _ _ _ _ beside => .fail_bind beside (.refl _)
  · exact later

/-- Two loops whose turns go in step, if the bound on the other side is enough. -/
theorem Pairs.loop (again : α → β → Prop) {turn : α → Parse (Turn α γ)} {otherTurn : β → Parse (Turn β δ)}
    (turns : ∀ value found, again value found →
      (turn value).Turns pairing room again done (otherTurn found))
    {bound otherBound : Nat} (enough : pairing.Enough room bound otherBound) {value : α} {found : β}
    (fits : again value found) :
    (loop turn bound value).Pairs pairing room done (loop otherTurn otherBound found) := by
  induction bound generalizing room otherBound value found with
  | zero =>
    rcases enough with rfl | ⟨seam, -⟩
    · exact failExpression_pairs
    · intro left within state start beside
      exact .of_stuck seam fun out behind => failExpression_fails.ne
  | succ bound ih =>
    obtain ⟨further, rfl⟩ : ∃ further, otherBound = further + 1 := by
      rcases enough with rfl | ⟨-, more⟩
      · exact ⟨bound, rfl⟩
      · exact Nat.exists_eq_add_of_le' (Nat.one_le_of_lt more)
    intro left within state start beside
    refine (turns value found fits left within state start beside).bind ?_
    rintro _ _ less between onward (⟨taken, fits⟩ | fits) fewer beside
    · have room_ := Nat.le_trans fewer within
      refine ih (fun value found fits => (turns value found fits).less room_) ?_ fits less
        (Nat.le_refl less) between onward beside
      have most : less + 1 ≤ room := Nat.le_trans taken within
      exact (enough.less most).pred
    · exact .pure beside fits

/-- Two loops that gather what is made from what the first one gathers. -/
theorem Pairs.loop_carried (make : α → β) {turn : α → Parse (Turn α γ)}
    {otherTurn : β → Parse (Turn β δ)}
    (turns : ∀ value, (turn value).Turns pairing room (Carries make) done (otherTurn (make value)))
    {bound otherBound : Nat} (enough : pairing.Enough room bound otherBound) {value : α} :
    (Parse.loop turn bound value).Pairs pairing room done
      (Parse.loop otherTurn otherBound (make value)) := by
  refine .loop (Carries make) (fun value found same => ?_) enough rfl
  rw [same]
  exact turns value

end turns

section leads

variable {related : α → β → Prop} {result : γ → δ → Prop}

/-- The token in front is taken, and a parser follows that may ask for its text. -/
theorem Leads.advance {next : Token → Parse γ} {otherNext : Token → Parse δ}
    (later : ∀ token found, pairing.Tokens token found → found.value = token.value →
      (next token).Pairs pairing room result (otherNext found)) :
    (Parse.advance >>= next).Leads pairing room result (Parse.advance >>= otherNext) := by
  intro left within state start beside inside same
  refine .advance beside inside fun less between onward fewer behind => ?_
  have room_ : less ≤ left := Nat.le_of_lt_succ fewer
  have pairs := later state.current start.current (beside.current_inside inside) same less
    (Nat.le_trans room_ within) between onward behind
  exact pairs.weaken fun least out value fewest fits => ⟨Nat.le_trans fewest room_, fits⟩

/-- A look at the token in front, which may ask for its text. -/
theorem Leads.current {next : Token → Parse γ} {otherNext : Token → Parse δ}
    (later : ∀ token found, pairing.Tokens token found → found.value = token.value →
      (next token).Leads pairing room result (otherNext found)) :
    (Parse.current >>= next).Leads pairing room result (Parse.current >>= otherNext) :=
  fun left within state start beside inside same =>
    .current (later _ _ (beside.current_inside inside) same left within state start beside inside same)

/-- A value or a failure. -/
theorem Leads.lift (make : α → β) {value : Except Cause α} {found : Except Cause β}
    (same : found = value.map make) {next : α → Parse γ} {otherNext : β → Parse δ}
    (later : ∀ out, value = .ok out →
      (next out).Leads pairing room result (otherNext (make out))) :
    (Parse.lift value >>= next).Leads pairing room result (Parse.lift found >>= otherNext) := by
  subst same
  intro left within state start beside inside text
  cases value with
  | error cause => exact .fail_bind beside (.refl cause)
  | ok out => exact later out rfl left within state start beside inside text

/-- A parser that takes the token in front, and a parser behind it. -/
theorem Leads.bind_carried {make : α → β} {parser : Parse α} {other : Parse β} {next : α → Parse γ}
    {otherNext : β → Parse δ} (first : parser.Leads pairing room (Carries make) other)
    (later : ∀ value, (next value).Pairs pairing room result (otherNext (make value))) :
    (parser >>= next).Leads pairing room result (other >>= otherNext) := by
  intro left within state start beside inside same
  refine (first left within state start beside inside same).bind ?_
  rintro value _ less between onward ⟨fewer, rfl⟩ - behind
  have pairs := later value less (Nat.le_trans fewer within) between onward behind
  exact pairs.weaken fun least out found fewest fits => ⟨Nat.le_trans fewest fewer, fits⟩

end leads

end Parse

end Offside
