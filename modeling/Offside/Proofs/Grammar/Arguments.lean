import Offside.Proofs.Expression.Brackets
import Offside.Proofs.Grammar.Follows

/-!
# Arguments of a call

The arguments of a call, and the bases of a class, are read one by one, each as if it stood alone
(`Inner.callArguments_ok_iff`). An argument in one of five forms is read at a time
(`Inner.ReadsArgument`), and the forms do not depend on what stands beside them. So a comprehension
without parentheses of its own may stand anywhere among other arguments, if it is not the value
behind stars or behind the name of an argument.
-/
namespace Offside

open Parse

/-- An argument of a call, as it is written. -/
inductive Argument where
  /-- A value by position. -/
  | positional (value : Expr)
  /-- A comprehension without parentheses of its own. -/
  | comprehension (element : Expr) (clauses : List Comprehension)
  /-- A value by name. -/
  | named (id : String) (value : Expr)
  /-- A sequence of values by position, behind a star. -/
  | sequence (value : Expr)
  /-- A mapping of values by name, behind two stars. -/
  | mapping (value : Expr)

namespace Argument

/-- What the argument is among those by position. -/
def byPosition? : Argument → Option Expr
  | .positional value => some value
  | .comprehension element clauses => some (.generator element clauses)
  | .sequence value => some (.starred value .load)
  | .named _ _ | .mapping _ => none

/-- What the argument is among those by name. -/
def byName? : Argument → Option Keyword
  | .named id value => some ⟨some id, value⟩
  | .mapping value => some ⟨none, value⟩
  | .positional _ | .comprehension _ _ | .sequence _ => none

end Argument

namespace CallArguments

/-- The arguments with one more. -/
def add (found : CallArguments) : Argument → CallArguments
  | .positional value => found.addPositional value
  | .comprehension element clauses => found.addPositional (.generator element clauses)
  | .named id value => found.addKeyword (some id) value
  | .sequence value => found.addPositional (.starred value .load)
  | .mapping value => found.addKeyword none value

/-- Arguments in order: those by position and those by name. -/
def ofList (arguments : List Argument) : CallArguments where
  positional := arguments.filterMap Argument.byPosition?
  keywords := arguments.filterMap Argument.byName?

/-- Arguments that are added one by one keep their order. -/
theorem foldl_add (arguments : List Argument) (found : CallArguments) :
    arguments.foldl add found =
      ⟨found.positional ++ (ofList arguments).positional,
        found.keywords ++ (ofList arguments).keywords⟩ := by
  induction arguments generalizing found with
  | nil => simp [ofList]
  | cons argument arguments ih =>
    rw [List.foldl_cons, ih]
    cases argument <;>
      simp [add, addPositional, addKeyword, ofList, List.filterMap_cons, Argument.byPosition?,
        Argument.byName?]

end CallArguments

namespace Parse

variable {α β : Type} {state behind : State}

/-- Two parsers in order give what the second one gives behind the first one. -/
theorem bind_ok_iff {parser : Parse α} {next : α → Parse β} {out : β} :
    (parser >>= next) state = .ok out behind ↔
      ∃ value between, parser state = .ok value between ∧ next value between = .ok out behind := by
  constructor
  · exact bind_ok
  · rintro ⟨value, between, head, tail⟩
    rw [bind_of_ok head]
    exact tail

/-- A loop ends in its first turn or goes on behind it. -/
theorem loop_ok_iff {turn : α → Parse (Turn α β)} {bound : Nat} {found : α} {out : β} :
    loop turn (bound + 1) found state = .ok out behind ↔
      turn found state = .ok (.done out) behind ∨
        ∃ next between, turn found state = .ok (.again next) between ∧
          loop turn bound next between = .ok out behind := by
  constructor
  · intro read
    obtain ⟨result, between, taken, rest⟩ := bind_ok read
    cases result with
    | done value =>
      obtain ⟨rfl, rfl⟩ := pure_ok rest
      exact .inl taken
    | again next => exact .inr ⟨next, between, taken, rest⟩
  · rintro (taken | ⟨next, between, taken, rest⟩)
    · rw [loop, bind_of_ok taken]
      rfl
    · rw [loop, bind_of_ok taken]
      exact rest

/-- Nothing is taken where something else is in front. -/
theorem eat_false_iff {text : String} :
    eat text state = .ok false behind ↔ state.current.isText text = false ∧ behind = state := by
  constructor
  · intro eaten
    rcases eat_ok eaten with ⟨taken, -⟩ | ⟨-, other, same⟩
    · contradiction
    · exact ⟨other, same⟩
  · rintro ⟨other, rfl⟩
    have looked : check text behind = .ok false behind := by
      show EStateM.Result.ok (behind.current.isText text) behind = _
      rw [other]
    rw [eat, bind_of_ok looked]
    rfl

end Parse

namespace Inner

variable (inner : Inner)

/-- An argument without stars is read by itself. It is by name if an equals sign follows it. A
comprehension may stand here without parentheses of its own. -/
inductive ReadsPlain : State → Argument → State → Prop where
  /-- A value by name. -/
  | named {state between next behind : State} {parsed : Parsed} {id : String} {context : Context}
      {value : Expr} (left : inner.operand Power.untilComma state = .ok parsed between)
      (name : parsed.expr = .name id context) (equals : eat "=" between = .ok true next)
      (read : inner.expr Power.untilComma next = .ok value behind) :
      ReadsPlain state (.named id value) behind
  /-- A comprehension. -/
  | comprehension {state behind : State} {parsed : Parsed} {element : Expr}
      {clauses : List Comprehension}
      (left : inner.operand Power.untilComma state = .ok parsed behind)
      (bare : behind.current.isText "=" = false)
      (opened : parsed.clauses? = some (element, clauses)) :
      ReadsPlain state (.comprehension element clauses) behind
  /-- A value by position. -/
  | positional {state behind : State} {parsed : Parsed}
      (left : inner.operand Power.untilComma state = .ok parsed behind)
      (bare : behind.current.isText "=" = false) (single : parsed.clauses? = none)
      (closed : parsed.form ≠ .comprehension) :
      ReadsPlain state (.positional parsed.expr) behind

/-- An argument is read by itself, whatever stands before it. -/
inductive ReadsArgument : State → Argument → State → Prop where
  /-- A mapping behind two stars. -/
  | mapping {state next behind : State} {value : Expr} (stars : eat "**" state = .ok true next)
      (read : inner.expr Power.untilComma next = .ok value behind) :
      ReadsArgument state (.mapping value) behind
  /-- A sequence behind a star. -/
  | sequence {state next behind : State} {value : Expr}
      (other : state.current.isText "**" = false) (star : eat "*" state = .ok true next)
      (read : inner.expr Power.untilComma next = .ok value behind) :
      ReadsArgument state (.sequence value) behind
  /-- An argument without stars. -/
  | plain {state behind : State} {argument : Argument}
      (other : state.current.isText "**" = false) (bare : state.current.isText "*" = false)
      (read : inner.ReadsPlain state argument behind) : ReadsArgument state argument behind

/-- Arguments are read in order up to a closing parenthesis, with commas between them. The first
argument bounds how often one is looked for. -/
inductive ReadsArguments : Nat → State → List Argument → State → Prop where
  /-- No further argument. -/
  | closed {bound : Nat} {state : State} (closes : state.current.isText ")" = true) :
      ReadsArguments (bound + 1) state [] state
  /-- The last argument, without a comma behind it. -/
  | last {bound : Nat} {state behind : State} {argument : Argument}
      (opens : state.current.isText ")" = false) (read : inner.ReadsArgument state argument behind)
      (bare : behind.current.isText "," = false) :
      ReadsArguments (bound + 1) state [argument] behind
  /-- An argument with a comma behind it, and further ones. -/
  | more {bound : Nat} {state between next behind : State} {argument : Argument}
      {arguments : List Argument} (opens : state.current.isText ")" = false)
      (read : inner.ReadsArgument state argument between)
      (comma : eat "," between = .ok true next)
      (later : ReadsArguments bound next arguments behind) :
      ReadsArguments (bound + 1) state (argument :: arguments) behind

variable {inner} {state behind : State}

/-- The value of an argument by name is read behind the equals sign. -/
def namedArgument (inner : Inner) (found : CallArguments) (left : Expr) : Parse CallArguments :=
  match left with
  | .name id _ => return found.addKeyword (some id) (← inner.expr Power.untilComma)
  | _ => fail .invalidKeywordArgument

/-- An argument by position is finished, if it is no comprehension. -/
def finishedArgument (found : CallArguments) (parsed : Parsed) : Parse CallArguments :=
  match parsed.clauses? with
  | some (element, clauses) => return found.addPositional (.generator element clauses)
  | none => return found.addPositional (← parsed.finish)

/-- An argument without stars is by name if an equals sign follows what is read first. -/
theorem plainArgument_eq (inner : Inner) (found : CallArguments) :
    inner.plainArgument found = (do
      let parsed ← inner.operand Power.untilComma
      if ← eat "=" then inner.namedArgument found parsed.expr
      else finishedArgument found parsed) :=
  rfl

/-- What stands in front of an equals sign is the name of an argument. -/
theorem namedArgument_ok_iff {found out : CallArguments} {left : Expr} :
    inner.namedArgument found left state = .ok out behind ↔
      ∃ id context value, left = .name id context ∧
        inner.expr Power.untilComma state = .ok value behind ∧
        out = found.add (.named id value) := by
  constructor
  · intro read
    cases left
    case name id context =>
      obtain ⟨value, between, inside, done⟩ := bind_ok read
      obtain ⟨rfl, rfl⟩ := pure_ok done
      exact ⟨id, context, value, rfl, inside, rfl⟩
    all_goals contradiction
  · rintro ⟨id, context, value, rfl, inside, rfl⟩
    exact bind_ok_iff.2 ⟨value, behind, inside, rfl⟩

/-- An operand is finished exactly if it is no comprehension without brackets. -/
theorem finish_ok_iff {parsed : Parsed} {out : Expr} :
    parsed.finish state = .ok out behind ↔
      parsed.form ≠ .comprehension ∧ out = parsed.expr ∧ behind = state := by
  by_cases opened : parsed.form = .comprehension
  · have fails : parsed.finish state =
        .error ⟨.misplacedComprehension, state.position⟩ state := by
      rw [Parsed.finish, if_pos opened]
      rfl
    simp [fails, opened]
  · constructor
    · intro read
      rw [Parsed.finish, if_neg opened] at read
      exact ⟨opened, pure_ok read⟩
    · rintro ⟨-, rfl, rfl⟩
      rw [Parsed.finish, if_neg opened]
      rfl

/-- An argument by position may be a comprehension without brackets. -/
theorem finishedArgument_ok_iff {found out : CallArguments} {parsed : Parsed} :
    finishedArgument found parsed state = .ok out behind ↔
      behind = state ∧
        ((∃ element clauses, parsed.clauses? = some (element, clauses) ∧
            out = found.add (.comprehension element clauses)) ∨
          (parsed.clauses? = none ∧ parsed.form ≠ .comprehension ∧
            out = found.add (.positional parsed.expr))) := by
  unfold finishedArgument
  cases parsed.clauses? with
  | some both =>
    constructor
    · intro read
      obtain ⟨rfl, same⟩ := pure_ok read
      exact ⟨same, .inl ⟨both.1, both.2, rfl, rfl⟩⟩
    · rintro ⟨rfl, ⟨element, clauses, ⟨⟩, rfl⟩ | ⟨closed, -⟩⟩
      · rfl
      · contradiction
  | none =>
    constructor
    · intro read
      obtain ⟨expr, between, finished, done⟩ := bind_ok read
      obtain ⟨closed, rfl, rfl⟩ := finish_ok_iff.1 finished
      obtain ⟨rfl, same⟩ := pure_ok done
      exact ⟨same, .inr ⟨rfl, closed, rfl⟩⟩
    · rintro ⟨rfl, ⟨element, clauses, opened, -⟩ | ⟨-, closed, rfl⟩⟩
      · contradiction
      · exact bind_ok_iff.2 ⟨parsed.expr, behind, finish_ok_iff.2 ⟨closed, rfl, rfl⟩, rfl⟩

/-- An argument without stars is added as it is read by itself. -/
theorem plainArgument_ok_iff {found out : CallArguments} :
    inner.plainArgument found state = .ok out behind ↔
      ∃ argument, inner.ReadsPlain state argument behind ∧ out = found.add argument := by
  rw [plainArgument_eq]
  constructor
  · intro read
    obtain ⟨parsed, between, left, rest⟩ := bind_ok read
    obtain ⟨equals, next, eaten, added⟩ := bind_ok rest
    cases equals with
    | true =>
      obtain ⟨id, context, value, name, inside, rfl⟩ := namedArgument_ok_iff.1 added
      exact ⟨.named id value, .named left name eaten inside, rfl⟩
    | false =>
      obtain ⟨bare, rfl⟩ := eat_false_iff.1 eaten
      have finished := finishedArgument_ok_iff.1 added
      obtain ⟨rfl, ⟨element, clauses, opened, rfl⟩ | ⟨single, closed, rfl⟩⟩ := finished
      · exact ⟨.comprehension element clauses, .comprehension left bare opened, rfl⟩
      · exact ⟨.positional parsed.expr, .positional left bare single closed, rfl⟩
  · rintro ⟨argument, reads, rfl⟩
    cases reads with
    | named left name equals read =>
      rw [bind_of_ok left, bind_of_ok equals, if_pos rfl]
      exact namedArgument_ok_iff.2 ⟨_, _, _, name, read, rfl⟩
    | comprehension left bare opened =>
      rw [bind_of_ok left, bind_of_ok (eat_false_iff.2 ⟨bare, rfl⟩), if_neg Bool.false_ne_true]
      exact finishedArgument_ok_iff.2 ⟨rfl, .inl ⟨_, _, opened, rfl⟩⟩
    | positional left bare single closed =>
      rw [bind_of_ok left, bind_of_ok (eat_false_iff.2 ⟨bare, rfl⟩), if_neg Bool.false_ne_true]
      exact finishedArgument_ok_iff.2 ⟨rfl, .inr ⟨single, closed, rfl⟩⟩

/-- An argument is added as it is read by itself. -/
theorem argument_ok_iff {found out : CallArguments} :
    inner.argument found state = .ok out behind ↔
      ∃ argument, inner.ReadsArgument state argument behind ∧ out = found.add argument := by
  constructor
  · intro read
    obtain ⟨stars, next, taken, rest⟩ := bind_ok read
    cases stars with
    | true =>
      obtain ⟨value, last, inside, done⟩ := bind_ok rest
      obtain ⟨rfl, rfl⟩ := pure_ok done
      exact ⟨.mapping value, .mapping taken inside, rfl⟩
    | false =>
      obtain ⟨other, rfl⟩ := eat_false_iff.1 taken
      obtain ⟨star, between, single, tail⟩ := bind_ok rest
      cases star with
      | true =>
        obtain ⟨value, last, inside, done⟩ := bind_ok tail
        obtain ⟨rfl, rfl⟩ := pure_ok done
        exact ⟨.sequence value, .sequence other single inside, rfl⟩
      | false =>
        obtain ⟨bare, rfl⟩ := eat_false_iff.1 single
        obtain ⟨argument, plain, rfl⟩ := plainArgument_ok_iff.1 tail
        exact ⟨argument, .plain other bare plain, rfl⟩
  · rintro ⟨argument, reads, rfl⟩
    cases reads with
    | mapping stars read =>
      rw [Inner.argument, bind_of_ok stars, if_pos rfl, bind_of_ok read]
      rfl
    | sequence other star read =>
      rw [Inner.argument, bind_of_ok (eat_false_iff.2 ⟨other, rfl⟩), if_neg Bool.false_ne_true,
        bind_of_ok star, if_pos rfl, bind_of_ok read]
      rfl
    | plain other bare read =>
      rw [Inner.argument, bind_of_ok (eat_false_iff.2 ⟨other, rfl⟩), if_neg Bool.false_ne_true,
        bind_of_ok (eat_false_iff.2 ⟨bare, rfl⟩), if_neg Bool.false_ne_true]
      exact plainArgument_ok_iff.2 ⟨_, read, rfl⟩

/-- A turn of reading arguments ends at a closing parenthesis, or it adds an argument and goes on
behind a comma. -/
theorem argumentTurn_ok_iff {found : CallArguments} {turn : Turn CallArguments CallArguments} :
    Expr.argumentTurn inner found state = .ok turn behind ↔
      (state.current.isText ")" = true ∧ turn = .done found ∧ behind = state) ∨
        (state.current.isText ")" = false ∧ ∃ argument between,
          inner.ReadsArgument state argument between ∧
            ((eat "," between = .ok true behind ∧ turn = .again (found.add argument)) ∨
              (behind.current.isText "," = false ∧ turn = .done (found.add argument) ∧
                behind = between))) := by
  have looked : check ")" state = .ok (state.current.isText ")") state := rfl
  rw [Expr.argumentTurn, bind_of_ok looked]
  cases closes : state.current.isText ")" with
  | true =>
    rw [if_pos rfl]
    constructor
    · intro read
      exact .inl ⟨rfl, pure_ok read⟩
    · rintro (⟨-, rfl, rfl⟩ | ⟨opens, -⟩)
      · rfl
      · contradiction
  | false =>
    rw [if_neg Bool.false_ne_true]
    constructor
    · intro read
      obtain ⟨added, between, inside, rest⟩ := bind_ok read
      obtain ⟨argument, reads, rfl⟩ := argument_ok_iff.1 inside
      obtain ⟨comma, next, eaten, done⟩ := bind_ok rest
      cases comma with
      | true =>
        obtain ⟨rfl, rfl⟩ := pure_ok done
        exact .inr ⟨rfl, argument, between, reads, .inl ⟨eaten, rfl⟩⟩
      | false =>
        obtain ⟨bare, rfl⟩ := eat_false_iff.1 eaten
        obtain ⟨rfl, rfl⟩ := pure_ok done
        exact .inr ⟨rfl, argument, _, reads, .inr ⟨bare, rfl, rfl⟩⟩
    · rintro (⟨closed, -⟩ | ⟨-, argument, between, reads, ⟨comma, rfl⟩ | ⟨bare, rfl, rfl⟩⟩)
      · contradiction
      · rw [bind_of_ok (argument_ok_iff.2 ⟨argument, reads, rfl⟩), bind_of_ok comma, if_pos rfl]
        rfl
      · rw [bind_of_ok (argument_ok_iff.2 ⟨argument, reads, rfl⟩),
          bind_of_ok (eat_false_iff.2 ⟨bare, rfl⟩), if_neg Bool.false_ne_true]
        rfl

/-- The turns of reading arguments add what is read in them. -/
theorem argumentTurns_ok_iff {bound : Nat} {found out : CallArguments} :
    loop (Expr.argumentTurn inner) bound found state = .ok out behind ↔
      ∃ arguments, inner.ReadsArguments bound state arguments behind ∧
        out = arguments.foldl CallArguments.add found := by
  induction bound generalizing found state with
  | zero =>
    constructor
    · intro read
      exact absurd read failExpression_ne
    · rintro ⟨arguments, reads, -⟩
      cases reads
  | succ bound ih =>
    constructor
    · intro read
      rcases loop_ok_iff.1 read with ended | ⟨next, between, taken, rest⟩
      · rcases argumentTurn_ok_iff.1 ended with ⟨closes, done, rfl⟩ | ⟨opens, argument, between,
          reads, ⟨-, again⟩ | ⟨bare, done, rfl⟩⟩
        · cases done
          exact ⟨[], .closed closes, rfl⟩
        · contradiction
        · cases done
          exact ⟨[argument], .last opens reads bare, rfl⟩
      · rcases argumentTurn_ok_iff.1 taken with ⟨-, done, -⟩ | ⟨opens, argument, place, reads,
          ⟨comma, again⟩ | ⟨-, done, -⟩⟩
        · contradiction
        · cases again
          obtain ⟨arguments, later, rfl⟩ := ih.1 rest
          exact ⟨argument :: arguments, .more opens reads comma later, rfl⟩
        · contradiction
    · rintro ⟨arguments, reads, rfl⟩
      cases reads with
      | closed closes =>
        exact loop_ok_iff.2 (.inl (argumentTurn_ok_iff.2 (.inl ⟨closes, rfl, rfl⟩)))
      | last opens read bare =>
        apply loop_ok_iff.2
        apply Or.inl
        exact argumentTurn_ok_iff.2 (.inr ⟨opens, _, _, read, .inr ⟨bare, rfl, rfl⟩⟩)
      | @more _ _ _ next _ argument arguments opens read comma later =>
        have rest := ih.2 ⟨arguments, later, rfl⟩
        apply loop_ok_iff.2
        apply Or.inr
        refine ⟨found.add argument, next, ?_, rest⟩
        exact argumentTurn_ok_iff.2 (.inr ⟨opens, _, _, read, .inl ⟨comma, rfl⟩⟩)

/-- An expression is none where the operand that stands for it is a comprehension without
brackets. -/
theorem expr_misplaced {power : Power} {parsed : Parsed}
    (read : inner.optionalOperand power state = .ok (some parsed) behind)
    (opened : parsed.form = .comprehension) :
    inner.expr power state = .error ⟨.misplacedComprehension, behind.position⟩ behind := by
  have finish : parsed.finish behind =
      .error ⟨.misplacedComprehension, behind.position⟩ behind := by
    rw [Parsed.finish, if_pos opened]
    rfl
  have inside : inner.optionalExpr power state =
      .error ⟨.misplacedComprehension, behind.position⟩ behind := by
    rw [optionalExpr, bind_of_ok read]
    exact bind_of_error finish
  exact bind_of_error inside

/-- The arguments of a call, up to the closing parenthesis, are read one by one, each as it is read
by itself. A comprehension without parentheses of its own is one argument among others. Where a
single expression is asked for, as behind stars and behind the name of an argument, it fails. -/
theorem callArguments_ok_iff (inner : Inner) :
    (∀ (state behind : State) (found : CallArguments),
      inner.callArguments state = .ok found behind ↔
        ∃ arguments last token, inner.ReadsArguments inner.bound state arguments last ∧
          expect ")" last = .ok token behind ∧ found = .ofList arguments) ∧
    ∀ (power : Power) (state behind : State) (parsed : Parsed),
      inner.optionalOperand power state = .ok (some parsed) behind →
        parsed.form = .comprehension →
          inner.expr power state = .error ⟨.misplacedComprehension, behind.position⟩ behind := by
  constructor
  · intro state behind found
    rw [Expr.callArguments_eq, bind_ok_iff]
    have all (arguments : List Argument) :
        arguments.foldl CallArguments.add ⟨[], []⟩ = .ofList arguments :=
      CallArguments.foldl_add arguments ⟨[], []⟩
    constructor
    · rintro ⟨added, last, turns, rest⟩
      obtain ⟨arguments, reads, rfl⟩ := argumentTurns_ok_iff.1 turns
      obtain ⟨token, between, closing, done⟩ := bind_ok rest
      obtain ⟨rfl, rfl⟩ := pure_ok done
      exact ⟨arguments, last, token, reads, closing, all arguments⟩
    · rintro ⟨arguments, last, token, reads, closing, rfl⟩
      refine ⟨_, last, argumentTurns_ok_iff.2 ⟨arguments, reads, rfl⟩, ?_⟩
      rw [bind_of_ok closing, all]
      rfl
  · intro power state behind parsed read opened
    exact expr_misplaced read opened

/-- A comprehension in front of another argument is one of two. Behind a star it fails. -/
theorem callArguments_ok_of_comprehension :
    let inner : Inner := .upTo 10
    let state (ahead : List Token) : State := ⟨ahead, 0, none, unknownFile, .standard, []⟩
    let comprehension : List Token := [.word "a", .word "for", .word "a", .word "in", .word "b"]
    let clause : Comprehension := ⟨.name "a" .store, .name "b" .load, [], 0⟩
    inner.callArguments (state (comprehension ++ [.mark ",", .word "c", .mark ")"])) =
        .ok ⟨[.generator (.name "a" .load) [clause], .name "c" .load], []⟩ (state []) ∧
      inner.expr Power.untilComma (state (comprehension ++ [.mark ")"])) =
        .error ⟨.misplacedComprehension, ⟨0, unknownFile⟩⟩ (state [.mark ")"]) := by
  intro inner state comprehension clause
  have first : inner.ReadsArgument (state (comprehension ++ [.mark ",", .word "c", .mark ")"]))
      (.comprehension (.name "a" .load) [clause]) (state [.mark ",", .word "c", .mark ")"]) :=
    .plain rfl rfl (.comprehension rfl rfl rfl)
  have name : inner.operand Power.untilComma (state [.word "c", .mark ")"]) =
      .ok (.plain (.name "c" .load)) (state [.mark ")"]) := rfl
  have second : inner.ReadsArgument (state [.word "c", .mark ")"])
      (.positional (.name "c" .load)) (state [.mark ")"]) :=
    .plain rfl rfl (.positional name rfl rfl (by decide))
  have both : inner.ReadsArguments inner.bound
      (state (comprehension ++ [.mark ",", .word "c", .mark ")"]))
      [.comprehension (.name "a" .load) [clause], .positional (.name "c" .load)]
      (state [.mark ")"]) :=
    .more rfl first rfl (.last rfl second rfl)
  have operand : inner.optionalOperand Power.untilComma (state (comprehension ++ [.mark ")"])) =
      .ok (some (.comprehension (.name "a" .load) [clause])) (state [.mark ")"]) := rfl
  have read := callArguments_ok_iff inner
  exact ⟨(read.1 _ _ _).2 ⟨_, _, .mark ")", both, rfl, rfl⟩, read.2 _ _ _ _ operand rfl⟩

end Inner

end Offside
