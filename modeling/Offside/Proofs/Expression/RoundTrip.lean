import Offside.Proofs.Expression.Brackets
import Offside.Proofs.Expression.Operators

/-!
# Reading back what is written

By induction over the expression every core expression reads back (`Expr.IsCore.reads`), and so
the tokens that write it are parsed as the expression (`parseTokens_write`).
-/
namespace Offside

open Parse

namespace Expr

/-- Every core expression reads back. -/
theorem IsCore.reads {expr : Expr} (core : expr.IsCore) : expr.Reads := by
  induction core with
  | name identifier => exact reads_name identifier
  | num positive => exact reads_num positive
  | constant value => exact reads_constant value
  | unaryOp operator core operand => exact reads_unaryOp operator operand core.led
  | binOp operator first second left right =>
    exact reads_binOp operator left first.led right second.led
  | boolOp operator several core values =>
    exact reads_boolOp operator several values fun value member => (core value member).led
  | compare several paired first core left comparators =>
    exact reads_compare several paired left first.led comparators
      fun expr member => (core expr member).led
  | ifExp condition holds fails test body orelse =>
    exact reads_ifExp test condition.led body holds.led orelse fails.led
  | await core value => exact reads_await value core.led
  | member core _ value => exact reads_attribute value core.led
  | call callee core function arguments =>
    exact reads_call function callee.led arguments fun argument member => (core argument member).led
  | subscript core place value index => exact reads_subscript value core.led index place.led
  | list core elements => exact reads_list elements fun element member => (core element member).led
  | tuple core elements =>
    exact reads_tuple elements fun element member => (core element member).led

/-- Tokens that the grammar looks at, in parentheses or bare. -/
theorem significant_wrapped (slot : Nat) (expr : Expr) {tokens : List Token}
    (all : ∀ token ∈ tokens, token.isSignificant = true) :
    ∀ token ∈ wrapped slot expr tokens, token.isSignificant = true := by
  intro token member
  rw [wrapped] at member
  split at member
  · rw [List.cons_append, List.mem_cons, List.mem_append, List.mem_singleton] at member
    rcases member with rfl | inside | rfl
    · rfl
    · exact all token inside
    · rfl
  · exact all token member

/-- Separated expressions are written with tokens that the grammar looks at. -/
theorem significant_separated {separator : Token} (separates : separator.isSignificant = true)
    (slot : Nat) {exprs : List Expr}
    (all : ∀ expr ∈ exprs, ∀ token ∈ expr.write, token.isSignificant = true) :
    ∀ token ∈ writeSeparated separator slot exprs, token.isSignificant = true := by
  cases exprs with
  | nil => simp [writeSeparated]
  | cons expr exprs =>
    intro token member
    rw [writeSeparated_cons, List.mem_append, List.mem_flatMap] at member
    rcases member with first | ⟨found, later, inside⟩
    · exact significant_wrapped slot expr (all expr List.mem_cons_self) token first
    · rcases List.mem_cons.1 inside with rfl | inside
      · exact separates
      · exact significant_wrapped slot found (all found (List.mem_cons_of_mem expr later)) token
          inside

/-- Comparisons are written with tokens that the grammar looks at. -/
theorem significant_comparisons (operators : List Comparison) {exprs : List Expr}
    (all : ∀ expr ∈ exprs, ∀ token ∈ expr.write, token.isSignificant = true) :
    ∀ token ∈ writeComparisons operators exprs, token.isSignificant = true := by
  induction operators generalizing exprs with
  | nil => simp [writeComparisons]
  | cons operator operators ih =>
    cases exprs with
    | nil => simp [writeComparisons]
    | cons expr exprs =>
      intro token member
      rw [writeComparisons, List.mem_append, List.mem_append] at member
      rcases member with word | inside | later
      · have words : ∀ token ∈ operator.tokens, token.isSignificant = true := by
          cases operator <;> decide
        exact words token word
      · exact significant_wrapped 60 expr (all expr List.mem_cons_self) token inside
      · exact ih (fun found member => all found (List.mem_cons_of_mem expr member)) token later

/-- A member is written with tokens that the grammar looks at, whatever its word is. -/
theorem significant_attribute {value : Expr} (field : String)
    (all : ∀ token ∈ value.write, token.isSignificant = true) :
    ∀ token ∈ (Expr.attribute value field .load).write, token.isSignificant = true := by
  rw [write]
  refine List.forall_mem_append.2 ⟨significant_wrapped _ _ all, ?_⟩
  simp [Token.isSignificant, Token.mark, Token.word]

/-- Every core expression is written with tokens that the grammar looks at. -/
theorem IsCore.significant {expr : Expr} (core : expr.IsCore) :
    ∀ token ∈ expr.write, token.isSignificant = true := by
  induction core with
  | name | num | constant => simp [write, Token.isSignificant, Token.word, Token.number]
  | unaryOp operator core operand =>
    rw [write]
    refine List.forall_mem_cons.2 ⟨?_, significant_wrapped _ _ operand⟩
    cases operator <;> rfl
  | binOp operator first second left right =>
    rw [write]
    refine List.forall_mem_append.2 ⟨significant_wrapped _ _ left, ?_⟩
    exact List.forall_mem_cons.2 ⟨rfl, significant_wrapped _ _ right⟩
  | boolOp operator several core values =>
    rw [write]
    exact significant_separated rfl _ values
  | compare several paired first core left comparators =>
    rw [write]
    refine List.forall_mem_append.2 ⟨significant_wrapped _ _ left, ?_⟩
    exact significant_comparisons _ comparators
  | ifExp condition holds fails test body orelse =>
    rw [write]
    refine List.forall_mem_append.2 ⟨significant_wrapped _ _ body, ?_⟩
    refine List.forall_mem_cons.2 ⟨rfl, List.forall_mem_append.2 ⟨?_, ?_⟩⟩
    · exact significant_wrapped _ _ test
    · exact List.forall_mem_cons.2 ⟨rfl, significant_wrapped _ _ orelse⟩
  | await core value =>
    rw [write]
    exact List.forall_mem_cons.2 ⟨rfl, significant_wrapped _ _ value⟩
  | member core _ value => exact significant_attribute _ value
  | call callee core function arguments =>
    rw [write, List.append_assoc, List.cons_append]
    refine List.forall_mem_append.2 ⟨significant_wrapped _ _ function, ?_⟩
    refine List.forall_mem_cons.2 ⟨rfl, List.forall_mem_append.2 ⟨?_, by decide⟩⟩
    exact significant_separated rfl _ arguments
  | subscript core place value index =>
    rw [write, List.append_assoc, List.cons_append, Slice.write]
    refine List.forall_mem_append.2 ⟨significant_wrapped _ _ value, ?_⟩
    refine List.forall_mem_cons.2 ⟨rfl, List.forall_mem_append.2 ⟨?_, by decide⟩⟩
    exact significant_wrapped _ _ index
  | list core elements =>
    rw [write, List.cons_append]
    refine List.forall_mem_cons.2 ⟨rfl, List.forall_mem_append.2 ⟨?_, by decide⟩⟩
    exact significant_separated rfl _ elements
  | @tuple elements core ih =>
    cases elements with
    | nil =>
      rw [write]
      decide
    | cons first more =>
      cases more with
      | nil =>
        rw [write]
        refine List.forall_mem_append.2 ⟨?_, by decide⟩
        exact significant_wrapped _ _ (ih first List.mem_cons_self)
      | cons second rest =>
        rw [write_tuple]
        exact significant_separated rfl _ ih

end Expr

/-- What may follow an expression that is parsed by itself: line ends, and behind them perhaps the
end mark. -/
inductive IsEnding : List Token → Prop where
  /-- Nothing. -/
  | nil : IsEnding []
  /-- The end mark. -/
  | last {token : Token} (mark : token.kind = .endMarker) : IsEnding [token]
  /-- A line end. -/
  | lineEnd {token : Token} {later : List Token} (mark : token.kind = .newline)
      (ending : IsEnding later) : IsEnding (token :: later)

/-- An ending ends expressions. -/
theorem IsEnding.isDelimiter {tokens : List Token} (ending : IsEnding tokens) :
    (Token.front (tokens.map Token.bare)).isDelimiter = true := by
  cases ending with
  | nil => rfl
  | last mark => simp [Token.front, Token.isDelimiter, Token.bare, mark]
  | lineEnd mark => simp [Token.front, Token.isDelimiter, Token.bare, mark]

/-- The grammar looks at all tokens of an ending. -/
theorem IsEnding.significant {tokens : List Token} (ending : IsEnding tokens) :
    ∀ token ∈ tokens, token.isSignificant = true := by
  induction ending with
  | nil => simp
  | last mark => simp [Token.isSignificant, mark]
  | lineEnd mark ending ih =>
    exact List.forall_mem_cons.2 ⟨by simp [Token.isSignificant, mark], ih⟩

/-- One turn of passing over line ends. -/
def lineEndTurn (_ : Unit) : Parse (Turn Unit Unit) := do
  if ← eatKind .newline then return .again () else return .done ()

/-- One expression is read, and then what ends it. -/
theorem wholeExpression_eq (inner : Inner) :
    wholeExpression inner = (do
      let body ← inner.expr Power.any
      loop lineEndTurn inner.bound ()
      let _ ← expectKind .endMarker
      return body) :=
  rfl

/-- The end mark is required and is there, or no token is left. -/
theorem gives_end (body : Expr) {tokens : List Token}
    (ends : tokens = [] ∨ ∃ token : Token, tokens = [token] ∧ token.kind = .endMarker) :
    (do let _ ← expectKind .endMarker; return body : Parse Expr).Gives (tokens.map Token.bare)
      body [] := by
  have required : (do let _ ← expectKind .endMarker; return body : Parse Expr) =
      (checkKind .endMarker >>= fun found =>
        (if found then advance else failExpected Kind.endMarker.text) >>= fun _ => pure body) := by
    rw [expectKind, bind_assoc]
  rw [required]
  rcases ends with rfl | ⟨token, rfl, mark⟩
  · refine .bind (.checkKind .endMarker []) fun _ => ?_
    intro state _ healthy same
    have empty : state.ahead = [] := List.map_eq_nil_iff.1 same
    refine ⟨state.line, [], rfl, Nat.le_refl _, ?_⟩
    show (advance >>= fun _ => pure body : Parse Expr) state = _
    rw [Bind.bind, Monad.toBind, EStateM.instMonad]
    obtain ⟨ahead, line, failure, file, grammar, decorators⟩ := state
    obtain rfl : ahead = [] := empty
    rfl
  · refine .bind (.checkKind .endMarker _) fun _ => ?_
    rw [show (Token.front ([token].map Token.bare)).kind = .endMarker from mark]
    exact .advance_bind fun _ _ => .pure body []

/-- Line ends are passed over up to what is none. -/
theorem gives_lineEndTurn_done {ahead : List Token} (other : (Token.front ahead).kind ≠ .newline) :
    (lineEndTurn ()).Gives ahead (.done ()) ahead :=
  .bind (.eatKind_other other) fun _ => .pure _ ahead

/-- An ending is read to its end. -/
theorem IsEnding.gives {tokens : List Token} (ending : IsEnding tokens) (body : Expr) {bound : Nat}
    (enough : tokens.length < bound) :
    (do
      loop lineEndTurn bound ()
      let _ ← expectKind .endMarker
      return body : Parse Expr).Gives (tokens.map Token.bare) body [] := by
  induction ending generalizing bound with
  | nil =>
    obtain ⟨fewer, rfl⟩ := Nat.exists_eq_add_one_of_ne_zero (Nat.ne_zero_of_lt enough)
    exact .bind (.done (gives_lineEndTurn_done (by decide))) fun _ => gives_end body (.inl rfl)
  | @last token mark =>
    obtain ⟨fewer, rfl⟩ := Nat.exists_eq_add_one_of_ne_zero (Nat.ne_zero_of_lt enough)
    have other : (Token.front ([token].map Token.bare)).kind ≠ .newline := by
      show token.kind ≠ .newline
      simp [mark]
    exact .bind (.done (gives_lineEndTurn_done other)) fun _ =>
      gives_end body (.inr ⟨token, rfl, mark⟩)
  | @lineEnd token later mark ending ih =>
    obtain ⟨fewer, rfl⟩ := Nat.exists_eq_add_one_of_ne_zero (Nat.ne_zero_of_lt enough)
    rw [List.length_cons] at enough
    have taken : (eatKind .newline).Gives (token.bare :: later.map Token.bare) true
        (later.map Token.bare) := .eatKind mark (by decide)
    have turn : (lineEndTurn ()).Gives (token.bare :: later.map Token.bare) (.again ())
        (later.map Token.bare) :=
      .bind taken fun _ => .pure _ _
    rw [loop, bind_assoc]
    exact .bind turn fun _ => ih (Nat.lt_of_succ_lt_succ enough)

/-- A parser of what is inside reads with a bound on the depth that is great enough. -/
theorem Parse.Gives.run {α : Type} {parser : Inner → Parse α} {ahead rest : List Token} {value : α}
    (inside : ∀ depth, ahead.length < depth → (parser (.upTo depth)).Gives ahead value rest) :
    (Inner.run parser).Gives ahead value rest := by
  intro state standard healthy same
  have deep : ahead.length < state.bound := by
    rw [State.bound, ← same, List.length_map]
    omega
  exact inside state.bound deep state standard healthy same

/-- Tokens that an operand is read from are parsed as the expression, with their line ends and the
end mark behind them or without. -/
theorem parseTokens_of_yields {expr : Expr} {written tokens ending : List Token}
    (significant : ∀ token ∈ written, token.isSignificant = true)
    (opens : (Token.front (written ++ ending.map Token.bare)).Opens)
    (operand : Yields 0 (written ++ ending.map Token.bare) (.plain expr) (ending.map Token.bare))
    (same : tokens.map Token.bare = written) (ends : IsEnding ending) (file : Option String) :
    parseTokens (tokens ++ ending) file .eval = .ok (.expression expr) := by
  have kept : (tokens ++ ending).filter Token.isSignificant = tokens ++ ending := by
    rw [List.filter_eq_self]
    intro token member
    rcases List.mem_append.1 member with inside | behind
    · have bare : token.bare ∈ written := same ▸ List.mem_map_of_mem inside
      exact significant token.bare bare
    · exact ends.significant token behind
  have read : (Inner.run wholeExpression).Gives (written ++ ending.map Token.bare) expr [] := by
    refine .run fun depth deep => ?_
    rw [wholeExpression_eq]
    refine .bind (operand.expr (by decide) opens deep).2 fun shorter => ?_
    rw [List.length_map] at shorter
    exact ends.gives expr (Nat.lt_of_le_of_lt shorter deep)
  obtain ⟨line, left, -, -, parsed⟩ :=
    read ⟨tokens ++ ending, 1, none, file.getD unknownFile, .standard, []⟩ rfl rfl
      (by rw [List.map_append, same])
  have started : State.start (.ofTokens (tokens ++ ending)) (file.getD unknownFile) =
      .ok ⟨tokens ++ ending, 1, none, file.getD unknownFile, .standard, []⟩ := by
    rw [State.start, Stream.ofTokens, kept]
    cases tokens ++ ending <;> rfl
  have root : (parseRoot .eval).run
      ⟨tokens ++ ending, 1, none, file.getD unknownFile, .standard, []⟩ =
      .ok (.expression expr) ⟨left, line, none, file.getD unknownFile, .standard, []⟩ := by
    show (Inner.run wholeExpression >>= fun body => pure (.expression body) : Parse Root) _ = _
    rw [Bind.bind, Monad.toBind, EStateM.instMonad]
    simp only [EStateM.bind, parsed]
    rfl
  rw [parseTokens, parseStream, started]
  simp only [bind, Except.bind, root]
  rfl

/-- The tokens that write an expression that reads back are parsed as the expression. -/
theorem parseTokens_of_reads {expr : Expr} (reads : expr.Reads) (led : expr.Led)
    (significant : ∀ token ∈ expr.write, token.isSignificant = true) {tokens ending : List Token}
    (written : tokens.map Token.bare = expr.write) (ends : IsEnding ending)
    (file : Option String) :
    parseTokens (tokens ++ ending) file .eval = .ok (.expression expr) := by
  have delimiter := ends.isDelimiter
  have loose := (Token.of_isDelimiter delimiter).2
  have operand : Yields 0 (expr.write ++ ending.map Token.bare) (.plain expr)
      (ending.map Token.bare) :=
    reads 0 _ _ _ expr.power?_pos (expr.closedBy_of_isDelimiter delimiter)
      (.stop (Nat.le_of_eq loose))
  obtain ⟨token, more, front, leads, -⟩ := led
  have opens : (Token.front (expr.write ++ ending.map Token.bare)).Opens := by
    rw [Token.front_append front]
    exact leads.opens
  exact parseTokens_of_yields significant opens operand written ends file

/-- The tokens that write a core expression are parsed as the expression, with their line ends and
the end mark behind them or without. -/
theorem parseTokens_write {expr : Expr} (core : expr.IsCore) {tokens ending : List Token}
    (written : tokens.map Token.bare = expr.write) (ends : IsEnding ending)
    (file : Option String) :
    parseTokens (tokens ++ ending) file .eval = .ok (.expression expr) :=
  parseTokens_of_reads core.reads core.led core.significant written ends file

/-- A sign before a power whose exponent has a sign, times a sum, compared with a condition. Only
the exponent, the sum and the condition need parentheses. -/
theorem parseTokens_write_of_signs :
    parseTokens ([.mark "-", .word "a", .mark "**", .mark "(", .mark "-", .number "12",
        .mark ")", .mark "*", .mark "(", .word "a", .mark "+", .word "b", .mark ")", .word "is",
        .word "not", .mark "(", .word "not", .word "b", .mark ")"] ++
        [⟨.newline, "\n", 1, ""⟩, .endMarker 2]) none .eval =
      .ok (.expression (.compare (.binOp (.unaryOp .minus (.binOp (.name "a" .load) .pow
        (.unaryOp .minus (.num (.int ⟨12, by decide, by decide⟩))))) .mult
        (.binOp (.name "a" .load) .add (.name "b" .load))) [.isNot]
        [.unaryOp .not (.name "b" .load)])) := by
  have a : (Expr.name "a" .load).IsCore := .name (by decide)
  have b : (Expr.name "b" .load).IsCore := .name (by decide)
  have twelve : (Expr.num (.int ⟨12, by decide, by decide⟩)).IsCore := .num (by decide)
  have product := Expr.IsCore.binOp .mult (.unaryOp .minus (.binOp .pow a (.unaryOp .minus twelve)))
    (.binOp .add a b)
  refine parseTokens_write (.compare (by decide) rfl product ?_) (by decide +kernel)
    (.lineEnd rfl (.last rfl)) none
  simpa using Expr.IsCore.unaryOp .not b

end Offside
