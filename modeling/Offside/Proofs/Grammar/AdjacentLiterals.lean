import Offside.Proofs.Grammar.Turns

/-!
# String literals side by side

A run of string literals is one operand. Each literal behind the first one is joined to those before
it by a turn of the loop of the operand (`Literal.JoinsTo.climbs`). The turns go on to the end of the
run, or up to the first literal that has no value or the value of another type than the first one
(`adjacent_literals_join`).
-/
namespace Offside

open Parse Literal

/-- The token is a literal of the text. -/
def Token.HoldsText (token : Token) (value : String) : Prop :=
  decodeString token.value = .ok (.text value)

/-- The token is a literal of the bytes. -/
def Token.HoldsBytes (token : Token) (value : List UInt8) : Prop :=
  decodeString token.value = .ok (.bytes value)

/-- A literal with which a run that starts with the first token cannot go on, and the cause: it has
no value, or the first token is of the other type. -/
inductive Token.Misfits (first token : Token) : Cause → Prop where
  /-- The token has no value. -/
  | undecoded {cause : Cause} (failed : decodeString token.value = .error cause) :
    Misfits first token cause
  /-- The token is a literal of bytes, and the first one is not. -/
  | bytes {text : String} {value : List UInt8} (leads : first.HoldsText text)
    (holds : token.HoldsBytes value) : Misfits first token .mixedBytesAndText
  /-- The token is a literal of a text, and the first one is not. -/
  | text {bytes : List UInt8} {value : String} (leads : first.HoldsBytes bytes)
    (holds : token.HoldsText value) : Misfits first token .mixedBytesAndText

namespace Literal

/-- The value of two literals side by side, if both are texts or both are bytes. -/
def Quoted.join? : Quoted → Quoted → Option Quoted
  | .text first, .text second => some (.text (first ++ second))
  | .bytes first, .bytes second => some (.bytes (first ++ second))
  | _, _ => none

/-- A literal cannot be joined to the value before it, for the cause. -/
inductive Quoted.Refuses (value : Quoted) (token : Token) : Cause → Prop where
  /-- The literal has no value. -/
  | undecoded {cause : Cause} (failed : decodeString token.value = .error cause) :
    Refuses value token cause
  /-- Its value is of the other type. -/
  | apart {found : Quoted} (decoded : decodeString token.value = .ok found)
    (apart : value.join? found = none) : Refuses value token .mixedBytesAndText

/-- Literals are joined to the value before them. -/
inductive JoinsTo : Quoted → List Token → Quoted → Prop where
  /-- No literal is left. -/
  | done {value : Quoted} : JoinsTo value [] value
  /-- A literal is joined, and then the others. -/
  | more {value found next out : Quoted} {token : Token} {rest : List Token}
    (decoded : decodeString token.value = .ok found) (joined : value.join? found = some next)
    (later : JoinsTo next rest out) : JoinsTo value (token :: rest) out

/-- Literals of texts are joined to a text. -/
theorem JoinsTo.texts {literals : List Token} {values : List String}
    (holds : List.Forall₂ Token.HoldsText literals values) (value : String) :
    JoinsTo (.text value) literals (.text (value ++ String.join values)) := by
  induction holds generalizing value with
  | nil =>
    rw [String.join_nil, String.append_empty]
    exact .done
  | @cons token found literals values here _ ih =>
    have later := ih (value ++ found)
    rw [String.append_assoc, ← String.join_cons] at later
    exact .more here rfl later

/-- Literals of bytes are joined to bytes. -/
theorem JoinsTo.bytes {literals : List Token} {values : List (List UInt8)}
    (holds : List.Forall₂ Token.HoldsBytes literals values) (value : List UInt8) :
    JoinsTo (.bytes value) literals (.bytes (value ++ values.flatten)) := by
  induction holds generalizing value with
  | nil =>
    rw [List.flatten_nil, List.append_nil]
    exact .done
  | @cons token found literals values here _ ih =>
    have later := ih (value ++ found)
    rw [List.append_assoc, ← List.flatten_cons] at later
    exact .more here rfl later

end Literal

/-- Literals of texts are no misfits behind a literal of a text. -/
theorem Token.fits_of_texts {first : Token} {value : String} {literals : List Token}
    {values : List String} (holds : List.Forall₂ HoldsText literals values)
    (leads : first.HoldsText value) :
    ∀ other ∈ literals, ∀ cause, ¬first.Misfits other cause := by
  induction holds with
  | nil => exact fun _ member => absurd member List.not_mem_nil
  | cons here _ ih =>
    refine List.forall_mem_cons.2 ⟨fun cause misfits => ?_, ih⟩
    cases misfits with
    | undecoded failed => exact absurd (failed.symm.trans here) (fun equal => nomatch equal)
    | bytes _ holds => exact absurd (holds.symm.trans here) (fun equal => nomatch equal)
    | text other _ => exact absurd (other.symm.trans leads) (fun equal => nomatch equal)

/-- Literals of bytes are no misfits behind a literal of bytes. -/
theorem Token.fits_of_bytes {first : Token} {value : List UInt8} {literals : List Token}
    {values : List (List UInt8)} (holds : List.Forall₂ HoldsBytes literals values)
    (leads : first.HoldsBytes value) :
    ∀ other ∈ literals, ∀ cause, ¬first.Misfits other cause := by
  induction holds with
  | nil => exact fun _ member => absurd member List.not_mem_nil
  | cons here _ ih =>
    refine List.forall_mem_cons.2 ⟨fun cause misfits => ?_, ih⟩
    cases misfits with
    | undecoded failed => exact absurd (failed.symm.trans here) (fun equal => nomatch equal)
    | bytes other _ => exact absurd (other.symm.trans leads) (fun equal => nomatch equal)
    | text _ holds => exact absurd (holds.symm.trans here) (fun equal => nomatch equal)

section turns

variable {inner : Inner} {power : Power} {state : State} {token : Token} {more : List Token}

/-- The first of the tokens ahead is in front. -/
theorem State.current_of_cons (ahead : state.ahead = token :: more) : state.current = token := by
  rw [State.current, ahead]
  rfl

/-- The token in front is looked at. -/
theorem current_ok (ahead : state.ahead = token :: more) :
    Parse.current state = .ok token state := by
  show EStateM.Result.ok state.current state = _
  rw [State.current_of_cons ahead]

/-- What the token in front means in expressions. -/
theorem behavior?_ok (standard : state.grammar = .standard) :
    behavior? state = .ok state.current.behavior? state := by
  rw [Token.behavior?, ← standard]
  rfl

/-- What a string literal means in expressions. -/
theorem Token.behavior?_string (string : token.kind = .string) :
    token.behavior? = some (.both .string Power.adjacent .adjacent) := by
  rw [behavior?, Grammar.behavior?, string]
  rfl

/-- An operand ends where the token in front binds no more tightly than the power. -/
theorem climb_stops {left : Parsed} (standard : state.grammar = .standard)
    (loose : state.current.binding ≤ power) :
    inner.climb power left state = .ok (.done left) state := by
  have none_ : infixRule? power state = .ok none state := by
    rw [infixRule?, bind_of_ok (behavior?_ok standard)]
    rw [Token.binding] at loose
    cases found : state.current.behavior? with
    | none => rfl
    | some behavior =>
      rw [found] at loose
      have loose : behavior.power ≤ power := loose
      dsimp only
      rw [if_pos loose]
      rfl
  rw [Inner.climb, bind_of_ok none_]
  rfl

/-- A string literal is read on with, below the power of literals side by side. -/
theorem climb_string {left : Parsed} (standard : state.grammar = .standard)
    (string : state.current.kind = .string) (below : power < Power.adjacent) :
    inner.climb power left state =
      (do return .again (← Inner.adjacentRule left) : Parse (Turn Parsed Parsed)) state := by
  have found : infixRule? power state = .ok (some (.adjacent, Power.adjacent)) state := by
    have tight : ¬(Behavior.both .string Power.adjacent .adjacent).power ≤ power :=
      Nat.not_le.2 below
    rw [infixRule?, bind_of_ok (behavior?_ok standard), Token.behavior?_string string]
    dsimp only
    rw [if_neg tight]
    rfl
  rw [Inner.climb, bind_of_ok found]
  rfl

variable (standard : state.grammar = .standard) (string : token.kind = .string)
  (below : power < Power.adjacent) (ahead : state.ahead = token :: more)
include standard string below ahead

/-- A literal of the same type is joined to the value before it. -/
theorem climb_joins {value found next : Quoted} (guarded : state.failure ≠ none → more ≠ [])
    (decoded : decodeString token.value = .ok found) (joined : value.join? found = some next) :
    inner.climb power (.plain value.expr) state =
      .ok (.again (.plain next.expr)) { state with ahead := more, line := token.line } := by
  have current : state.current = token := State.current_of_cons ahead
  have made : Inner.joinLiterals value.expr found token = .ok next.expr := by
    cases value with
    | text value =>
      cases found with
      | text found => rw [← Option.some.inj joined]; rfl
      | bytes found => contradiction
    | bytes value =>
      cases found with
      | text found => contradiction
      | bytes found => rw [← Option.some.inj joined]; rfl
  have read : Inner.adjacentRule (.plain value.expr) state =
      .ok (.plain next.expr) { state with ahead := more, line := token.line } := by
    rw [Inner.adjacentRule, bind_of_ok (current_ok ahead), decoded]
    show (do
      let expr ← lift (Inner.joinLiterals value.expr found token)
      let _ ← advance
      return ⟨expr, .plain⟩ : Parse Parsed) state = _
    rw [made]
    exact bind_of_ok (advance_of_cons ahead guarded)
  rw [climb_string standard (by rw [current, string]) below, bind_of_ok read]
  rfl

/-- At a literal that cannot be joined to the value before it the operand fails. -/
theorem climb_refuses {value : Quoted} {cause : Cause} (refuses : value.Refuses token cause) :
    inner.climb power (.plain value.expr) state =
      .error ⟨cause, ⟨token.line, state.file⟩⟩ state := by
  have current : state.current = token := State.current_of_cons ahead
  have position : state.position = ⟨token.line, state.file⟩ := by rw [State.position, current]
  have read : Inner.adjacentRule (.plain value.expr) state =
      .error ⟨cause, ⟨token.line, state.file⟩⟩ state := by
    rw [Inner.adjacentRule, bind_of_ok (current_ok ahead), ← position]
    cases refuses with
    | undecoded failed =>
      rw [failed]
      rfl
    | @apart found decoded apart =>
      rw [decoded]
      have mixed : Inner.joinLiterals value.expr found token = .error .mixedBytesAndText := by
        cases value with
        | text value =>
          cases found with
          | text found => contradiction
          | bytes found => rfl
        | bytes value =>
          cases found with
          | text found => rfl
          | bytes found => contradiction
      show (do
        let expr ← lift (Inner.joinLiterals value.expr found token)
        let _ ← advance
        return ⟨expr, .plain⟩ : Parse Parsed) state = _
      rw [mixed]
      rfl
  rw [climb_string standard (by rw [current, string]) below]
  exact bind_of_error read

end turns

section runs

variable {depth turns : Nat} {power : Power} {state : State} {first : Token}
  {literals rest : List Token}

/-- The line of the last of tokens, or the given line. -/
def lineBehind (line : Nat) (tokens : List Token) : Nat :=
  tokens.foldl (fun _ token => token.line) line

/-- Turns of the loop of an operand join literals to the value before them. -/
theorem Literal.JoinsTo.climbs {inner : Inner} {value out : Quoted}
    (joins : JoinsTo value literals out) (state : State) (standard : state.grammar = .standard)
    (strings : ∀ token ∈ literals, token.kind = .string)
    (below : power < Power.adjacent) (ahead : state.ahead = literals ++ rest)
    (guarded : state.failure ≠ none → rest ≠ []) (turns : Nat) :
    loop (inner.climb power) (literals.length + turns) (.plain value.expr) state =
      loop (inner.climb power) turns (.plain out.expr)
        { state with ahead := rest, line := lineBehind state.line literals } := by
  induction joins generalizing state with
  | done =>
    rw [List.length_nil, Nat.zero_add, ← show state.ahead = rest from ahead]
    rfl
  | @more value found next out token literals decoded joined _ ih =>
    obtain ⟨string, strings⟩ := List.forall_mem_cons.1 strings
    have turn : inner.climb power (.plain value.expr) state = .ok (.again (.plain next.expr))
        { state with ahead := literals ++ rest, line := token.line } :=
      climb_joins standard string below ahead
        (fun waits => List.append_ne_nil_of_right_ne_nil _ (guarded waits)) decoded joined
    rw [List.length_cons, Nat.add_right_comm, loop, bind_of_ok turn]
    exact ih _ standard strings rfl guarded

/-- A literal joined to others is of their type. -/
theorem Literal.JoinsTo.text_inv {value : String} {literals : List Token} {out : Quoted}
    (joins : JoinsTo (.text value) literals out) :
    ∃ values, List.Forall₂ Token.HoldsText literals values ∧
      out = .text (value ++ String.join values) := by
  induction literals generalizing value with
  | nil =>
    cases joins
    exact ⟨[], .nil, by rw [String.join_nil, String.append_empty]⟩
  | cons token literals ih =>
    cases joins with
    | @more _ found _ _ _ _ decoded joined later =>
      cases found with
      | bytes => contradiction
      | text found =>
        obtain rfl := Option.some.inj joined
        obtain ⟨values, holds, rfl⟩ := ih later
        exact ⟨found :: values, .cons decoded holds, by rw [String.join_cons, String.append_assoc]⟩

/-- A literal joined to others is of their type. -/
theorem Literal.JoinsTo.bytes_inv {value : List UInt8} {literals : List Token} {out : Quoted}
    (joins : JoinsTo (.bytes value) literals out) :
    ∃ values, List.Forall₂ Token.HoldsBytes literals values ∧
      out = .bytes (value ++ values.flatten) := by
  induction literals generalizing value with
  | nil =>
    cases joins
    exact ⟨[], .nil, by rw [List.flatten_nil, List.append_nil]⟩
  | cons token literals ih =>
    cases joins with
    | @more _ found _ _ _ _ decoded joined later =>
      cases found with
      | text => contradiction
      | bytes found =>
        obtain rfl := Option.some.inj joined
        obtain ⟨values, holds, rfl⟩ := ih later
        exact ⟨found :: values, .cons decoded holds, by rw [List.flatten_cons, List.append_assoc]⟩

/-- No literal joined to the value of the first one misfits it. -/
theorem Literal.JoinsTo.fits {value out : Quoted} (joins : JoinsTo value literals out)
    (decoded : decodeString first.value = .ok value) :
    ∀ other ∈ first :: literals, ∀ cause, ¬first.Misfits other cause := by
  cases value with
  | text value =>
    obtain ⟨values, holds, -⟩ := joins.text_inv
    exact Token.fits_of_texts (.cons decoded holds) decoded
  | bytes value =>
    obtain ⟨values, holds, -⟩ := joins.bytes_inv
    exact Token.fits_of_bytes (.cons decoded holds) decoded

/-- A literal that cannot be joined to the value of those before it misfits the first one. -/
theorem Literal.JoinsTo.misfits {value out : Quoted} {token : Token} {cause : Cause}
    (joins : JoinsTo value literals out) (decoded : decodeString first.value = .ok value)
    (refuses : out.Refuses token cause) : first.Misfits token cause := by
  cases refuses with
  | undecoded failed => exact .undecoded failed
  | @apart found holds apart =>
    cases value with
    | text value =>
      obtain ⟨values, -, rfl⟩ := joins.text_inv
      cases found with
      | text found => contradiction
      | bytes found => exact .bytes decoded holds
    | bytes value =>
      obtain ⟨values, -, rfl⟩ := joins.bytes_inv
      cases found with
      | text found => exact .text decoded holds
      | bytes found => contradiction

/-- All literals are joined to a value, or the first ones are, up to one that cannot be. -/
theorem Literal.joins_or_refuses (value : Quoted) (literals : List Token) :
    (∃ out, JoinsTo value literals out) ∨ ∃ before token behind out cause,
      literals = before ++ token :: behind ∧ JoinsTo value before out ∧
        out.Refuses token cause := by
  induction literals generalizing value with
  | nil => exact .inl ⟨value, .done⟩
  | cons token literals ih =>
    cases decoded : decodeString token.value with
    | error cause => exact .inr ⟨[], token, literals, value, cause, rfl, .done, .undecoded decoded⟩
    | ok found =>
      cases joined : value.join? found with
      | none =>
        exact .inr ⟨[], token, literals, value, _, rfl, .done, .apart decoded joined⟩
      | some next =>
        rcases ih next with ⟨out, later⟩ | ⟨before, other, behind, out, cause, rfl, later, refuses⟩
        · exact .inl ⟨out, .more decoded joined later⟩
        · exact .inr ⟨token :: before, other, behind, out, cause, rfl, .more decoded joined later,
            refuses⟩

/-- An operand that starts with a string literal is read by its rule, and then in turns. -/
theorem operandAt_string (standard : state.grammar = .standard)
    (string : state.current.kind = .string) : operandAt (depth + 1) power state =
      (do
        let first ← stringRule
        loop ((Inner.upTo depth).climb power) (depth + 1) first : Parse Parsed) state := by
  have rule : prefixRule state = .ok .string state := by
    rw [prefixRule, bind_of_ok (behavior?_ok standard), Token.behavior?_string string]
    rfl
  show operandWith (Inner.upTo depth) (depth + 1) power state = _
  rw [Inner.operandWith_eq, bind_of_ok rule]
  rfl

/-- A string literal is taken if it has a value. -/
theorem stringRule_ok {value : Quoted} (ahead : state.ahead = first :: rest)
    (guarded : state.failure ≠ none → rest ≠ []) (decoded : decodeString first.value = .ok value) :
    stringRule state = .ok (.plain value.expr) { state with ahead := rest, line := first.line } := by
  rw [stringRule, bind_of_ok (current_ok ahead), decoded]
  show (do
    let _ ← advance
    return .plain value.expr : Parse Parsed) state = _
  exact bind_of_ok (advance_of_cons ahead guarded)

/-- A string literal without a value is a fault. -/
theorem stringRule_error {cause : Cause} (ahead : state.ahead = first :: rest)
    (failed : decodeString first.value = .error cause) :
    stringRule state = .error ⟨cause, ⟨first.line, state.file⟩⟩ state := by
  have position : state.position = ⟨first.line, state.file⟩ := by
    rw [State.position, State.current_of_cons ahead]
  rw [stringRule, bind_of_ok (current_ok ahead), failed, ← position]
  rfl

section operands

variable (standard : state.grammar = .standard)
  (strings : ∀ token ∈ first :: literals, token.kind = .string)
  (ahead : state.ahead = first :: (literals ++ rest)) (ended : rest = [] → state.failure = none)
  (below : power < Power.adjacent) {value out : Quoted}
  (decoded : decodeString first.value = .ok value)
include standard strings ahead ended below decoded

/-- A run of literals that can be joined is an operand. -/
theorem operandAt_joins (loose : (Token.front rest).binding ≤ power)
    (deep : literals.length ≤ depth) (joins : JoinsTo value literals out) :
    operandAt (depth + 1) power state = .ok (.plain out.expr)
      { state with ahead := rest, line := lineBehind state.line (first :: literals) } := by
  obtain ⟨string, strings⟩ := List.forall_mem_cons.1 strings
  obtain ⟨turns, rfl⟩ := Nat.exists_eq_add_of_le deep
  have guarded : state.failure ≠ none → rest ≠ [] := fun waits empty => waits (ended empty)
  have current : state.current = first := State.current_of_cons ahead
  have start := stringRule_ok ahead
    (fun waits => List.append_ne_nil_of_right_ne_nil _ (guarded waits)) decoded
  have still : State.grammar { state with
      ahead := rest, line := lineBehind first.line literals } = .standard := standard
  have stops : (State.current { state with
      ahead := rest, line := lineBehind first.line literals }).binding ≤ power := by
    cases rest with
    | nil => exact loose
    | cons token more => exact loose
  have climbs : loop ((Inner.upTo (literals.length + turns)).climb power)
      (literals.length + (turns + 1)) (.plain value.expr)
      { state with ahead := literals ++ rest, line := first.line } =
      loop ((Inner.upTo (literals.length + turns)).climb power) (turns + 1) (.plain out.expr)
        { state with ahead := rest, line := lineBehind first.line literals } :=
    joins.climbs { state with ahead := literals ++ rest, line := first.line } standard strings below
      rfl guarded (turns + 1)
  rw [operandAt_string standard (by rw [current, string]), bind_of_ok start, Nat.add_assoc, climbs,
    loop]
  exact (bind_of_ok (climb_stops still stops)).trans rfl

/-- A run of literals fails at the first one that cannot be joined to those before it. -/
theorem operandAt_refuses {before behind : List Token} {token : Token} {cause : Cause}
    (split : literals = before ++ token :: behind) (deep : literals.length ≤ depth)
    (joins : JoinsTo value before out) (refuses : out.Refuses token cause) :
    ∃ last, operandAt (depth + 1) power state =
      .error ⟨cause, ⟨token.line, state.file⟩⟩ last := by
  obtain ⟨string, strings⟩ := List.forall_mem_cons.1 strings
  have guarded : state.failure ≠ none → rest ≠ [] := fun waits empty => waits (ended empty)
  have current : state.current = first := State.current_of_cons ahead
  have start := stringRule_ok ahead
    (fun waits => List.append_ne_nil_of_right_ne_nil _ (guarded waits)) decoded
  subst split
  rw [List.length_append, List.length_cons] at deep
  obtain ⟨turns, rfl⟩ := Nat.exists_eq_add_of_le (Nat.le_of_add_right_le deep)
  obtain ⟨fronts, others⟩ := List.forall_mem_append.1 strings
  have climbs : loop ((Inner.upTo (before.length + turns)).climb power)
      (before.length + (turns + 1)) (.plain value.expr)
      { state with ahead := before ++ token :: behind ++ rest, line := first.line } =
      loop ((Inner.upTo (before.length + turns)).climb power) (turns + 1) (.plain out.expr)
        { state with ahead := token :: behind ++ rest, line := lineBehind first.line before } :=
    joins.climbs { state with ahead := before ++ token :: behind ++ rest, line := first.line }
      standard fronts below (List.append_assoc _ _ _) (fun _ => List.cons_ne_nil _ _) (turns + 1)
  have still : State.grammar { state with
      ahead := token :: behind ++ rest, line := lineBehind first.line before } = .standard := standard
  have fails : (Inner.upTo (before.length + turns)).climb power (.plain out.expr)
      { state with ahead := token :: behind ++ rest, line := lineBehind first.line before } =
      .error ⟨cause, ⟨token.line, state.file⟩⟩
        { state with ahead := token :: behind ++ rest, line := lineBehind first.line before } :=
    climb_refuses still (others token List.mem_cons_self) below rfl refuses
  refine ⟨{ state with ahead := token :: behind ++ rest, line := lineBehind first.line before }, ?_⟩
  rw [operandAt_string standard (by rw [current, string]), bind_of_ok start, Nat.add_assoc, climbs,
    loop]
  exact bind_of_error fails

end operands

end runs

/-- String literals side by side are joined. From every state at a run of string literals, behind
which the token binds no more tightly than the power, an operand is read with every power below that
of literals side by side and at every depth that allows for the run. If all literals are texts, or
all are bytes, the operand is what the values give in order, and reading stops behind the run.
Otherwise it fails at the first literal that has no value, for the cause of that, or that is of
another type than the first one. -/
theorem adjacent_literals_join {depth : Nat} {power : Power} {state : State} {first : Token}
    {literals rest : List Token} (standard : state.grammar = .standard)
    (strings : ∀ token ∈ first :: literals, token.kind = .string)
    (ahead : state.ahead = first :: (literals ++ rest)) (ended : rest = [] → state.failure = none)
    (loose : (Token.front rest).binding ≤ power) (below : power < 200)
    (deep : literals.length < depth) :
    (∀ values, List.Forall₂ Token.HoldsText (first :: literals) values →
      operandAt depth power state = .ok (.plain (.str (String.join values)))
        { state with ahead := rest, line := lineBehind state.line (first :: literals) }) ∧
    (∀ values, List.Forall₂ Token.HoldsBytes (first :: literals) values →
      operandAt depth power state = .ok (.plain (.bytes values.flatten))
        { state with ahead := rest, line := lineBehind state.line (first :: literals) }) ∧
    ((∀ values, ¬List.Forall₂ Token.HoldsText (first :: literals) values) →
      (∀ values, ¬List.Forall₂ Token.HoldsBytes (first :: literals) values) →
      ∃ before token behind cause last, first :: literals = before ++ token :: behind ∧
        (∀ other ∈ before, ∀ found, ¬first.Misfits other found) ∧ first.Misfits token cause ∧
        operandAt depth power state = .error ⟨cause, ⟨token.line, state.file⟩⟩ last) := by
  obtain ⟨depth, rfl⟩ := Nat.exists_eq_add_one_of_ne_zero (Nat.ne_zero_of_lt deep)
  have deep := Nat.le_of_lt_succ deep
  refine ⟨fun values holds => ?_, fun values holds => ?_, fun noTexts noBytes => ?_⟩
  · cases holds with
    | @cons _ value _ values here holds =>
      rw [String.join_cons]
      exact operandAt_joins standard strings ahead ended below here loose deep (.texts holds value)
  · cases holds with
    | @cons _ value _ values here holds =>
      rw [List.flatten_cons]
      exact operandAt_joins standard strings ahead ended below here loose deep (.bytes holds value)
  · cases decoded : decodeString first.value with
    | error cause =>
      have current : state.current = first := State.current_of_cons ahead
      have string := strings first List.mem_cons_self
      refine ⟨[], first, literals, cause, state, rfl, fun _ member => absurd member List.not_mem_nil,
        .undecoded decoded, ?_⟩
      rw [operandAt_string standard (by rw [current, string])]
      exact bind_of_error (stringRule_error ahead decoded)
    | ok value =>
      rcases joins_or_refuses value literals with
        ⟨out, joins⟩ | ⟨before, token, behind, out, cause, split, joins, refuses⟩
      · cases value with
        | text value =>
          obtain ⟨values, holds, -⟩ := joins.text_inv
          exact absurd (.cons decoded holds) (noTexts (value :: values))
        | bytes value =>
          obtain ⟨values, holds, -⟩ := joins.bytes_inv
          exact absurd (.cons decoded holds) (noBytes (value :: values))
      · obtain ⟨last, fails⟩ :=
          operandAt_refuses standard strings ahead ended below decoded split deep joins refuses
        exact ⟨first :: before, token, behind, cause, last, congrArg (first :: ·) split,
          joins.fits decoded, joins.misfits decoded refuses, fails⟩

/-- Two texts with different quotation marks are joined as the operand of a sum, two literals of
bytes are joined at the end of the tokens, and a literal of bytes behind a text is a fault. -/
theorem adjacent_literals_join_of_two :
    operandAt 2 110 ⟨[⟨.string, "'a'", 1, ""⟩, ⟨.string, "\"b\"", 2, ""⟩, .mark "+"], 1, none, "",
        .standard, []⟩ =
      .ok (.plain (.str "ab")) ⟨[.mark "+"], 2, none, "", .standard, []⟩ ∧
    operandAt 2 0 ⟨[⟨.string, "b'a'", 1, ""⟩, ⟨.string, "b'b'", 2, ""⟩], 1, none, "", .standard, []⟩ =
      .ok (.plain (.bytes [97, 98])) ⟨[], 2, none, "", .standard, []⟩ ∧
    ∃ before token behind cause last, [⟨.string, "'a'", 1, ""⟩, ⟨.string, "b'b'", 2, ""⟩] =
      before ++ token :: behind ∧
      (∀ other ∈ before, ∀ found, ¬Token.Misfits ⟨.string, "'a'", 1, ""⟩ other found) ∧
      Token.Misfits ⟨.string, "'a'", 1, ""⟩ token cause ∧
      operandAt 2 0 ⟨[⟨.string, "'a'", 1, ""⟩, ⟨.string, "b'b'", 2, ""⟩], 1, none, "", .standard, []⟩ =
        .error ⟨cause, ⟨token.line, ""⟩⟩ last := by
  refine ⟨?_, ?_, ?_⟩
  · have holds : List.Forall₂ Token.HoldsText
        [⟨.string, "'a'", 1, ""⟩, ⟨.string, "\"b\"", 2, ""⟩] ["a", "b"] :=
      .cons rfl (.cons rfl .nil)
    exact (adjacent_literals_join rfl (by decide) rfl (fun _ => rfl) (by decide) (by decide)
      (by decide)).1 ["a", "b"] holds
  · have holds : List.Forall₂ Token.HoldsBytes
        [⟨.string, "b'a'", 1, ""⟩, ⟨.string, "b'b'", 2, ""⟩] [[97], [98]] :=
      .cons rfl (.cons rfl .nil)
    exact (adjacent_literals_join rfl (by decide) rfl (fun _ => rfl) (by decide) (by decide)
      (by decide)).2.1 [[97], [98]] holds
  · refine (adjacent_literals_join rfl (by decide) rfl (fun _ => rfl) (by decide) (by decide)
      (by decide)).2.2 (fun values holds => ?_) (fun values holds => ?_)
    · cases holds with
      | cons _ holds =>
        cases holds with
        | cons here _ => exact nomatch here
    · cases holds with
      | cons here _ => exact nomatch here

end Offside
