import Offside.Proofs.Expression.Operators
import Offside.Proofs.Grammar.Whole
import Offside.Proofs.Layout.Outline

/-!
# Outlines read back

The tokens that spell an outline are read as its statements, each block by the rule of its header
(`Outline.Spells.loop`). So a text that renders an outline is parsed as the outline, whatever the
widths of its blocks are and wherever idle lines stand (`parse_outline`).
-/
namespace Offside

open Parse Outline

section Lines

variable {scope : Scope} {ahead rest : List Token}

/-- The rule that a table of statements has for the token in front. -/
theorem Parse.Gives.statementRule? (table : Grammar → List (String × StatementRule))
    (ahead : List Token) :
    (do return Grammar.statementRule? (table (← get).grammar) (← current) :
      Parse (Option StatementRule)).Gives ahead
      (Grammar.statementRule? (table .standard) (Token.front ahead)) ahead := by
  intro state standard healthy same
  have looked : (do return Grammar.statementRule? (table .standard) (← current) :
      Parse (Option StatementRule)).Gives ahead
      (Grammar.statementRule? (table .standard) (Token.front ahead)) ahead :=
    .look (fun _ => rfl) ahead
  obtain ⟨line, left, kept, shorter, read⟩ := looked state standard healthy same
  refine ⟨line, left, kept, shorter, ?_⟩
  rw [← read]
  show EStateM.Result.ok (Grammar.statementRule? (table state.grammar) state.current) state =
    EStateM.Result.ok (Grammar.statementRule? (table .standard) state.current) state
  rw [standard]

/-- No decorators are read where none is in front. -/
theorem gives_decorators (bounded : 0 < scope.inner.bound)
    (other : (Token.front ahead).isText "@" = false) : scope.decorators.Gives ahead () ahead := by
  obtain ⟨fewer, turns⟩ := Nat.exists_eq_add_one_of_ne_zero (Nat.ne_zero_of_lt bounded)
  rw [Scope.decorators, turns]
  exact .done (.bind (.eat_other other) fun _ => .pure _ ahead)

/-- A compound statement is read by the rule of its first word. -/
theorem gives_compound {rule : StatementRule} {stmt : Stmt} (bounded : 0 < scope.inner.bound)
    (other : (Token.front ahead).isText "@" = false)
    (found : Grammar.statementRule? Grammar.standard.compound (Token.front ahead) = some rule)
    (read : (rule.parse scope).GivesUndecorated ahead stmt rest) :
    scope.statementLine.GivesUndecorated ahead [stmt] rest := by
  refine (gives_decorators bounded other).undecorated.bind fun _ => ?_
  refine (GivesUndecorated.hasDecorators ahead).bind fun _ => ?_
  refine (Gives.statementRule? Grammar.compound ahead).undecorated.bind fun _ => ?_
  rw [found]
  refine .drop_bind (.current_bind fun _ _ => .pure () ahead) ?_
  exact read.bind fun _ => (Gives.pure _ rest).undecorated

/-- A line without a word that starts compound statements is read as a line of simple statements. -/
theorem gives_simple {stmts : List Stmt} (bounded : 0 < scope.inner.bound)
    (other : (Token.front ahead).isText "@" = false)
    (found : Grammar.statementRule? Grammar.standard.compound (Token.front ahead) = none)
    (read : scope.simpleLine.GivesUndecorated ahead stmts rest) :
    scope.statementLine.GivesUndecorated ahead stmts rest := by
  refine (gives_decorators bounded other).undecorated.bind fun _ => ?_
  refine (GivesUndecorated.hasDecorators ahead).bind fun _ => ?_
  refine (Gives.statementRule? Grammar.compound ahead).undecorated.bind fun _ => ?_
  rw [found]
  exact read

/-- The rule of a word. -/
def Outline.Leaf.rule : Leaf → StatementRule
  | .pass => .pass
  | .breakLoop => .breakLoop
  | .continueLoop => .continueLoop

/-- A word on a line of its own is read as its statement. -/
theorem Outline.Leaf.gives (word : Leaf) (ending : String) (bounded : 0 < scope.inner.bound)
    (rest : List Token) :
    scope.statementLine.GivesUndecorated (.word word.text :: .lineEnd ending :: rest) [word.stmt]
      rest := by
  have single : scope.small.Gives (.word word.text :: .lineEnd ending :: rest) word.stmt
      (.lineEnd ending :: rest) := by
    have found : Grammar.statementRule? Grammar.standard.simple
        (Token.front (.word word.text :: .lineEnd ending :: rest)) = some word.rule := by
      cases word <;> rfl
    refine .bind (.statementRule? Grammar.simple _) fun _ => ?_
    rw [found]
    cases word <;> exact .advance_bind fun _ _ => .pure _ _
  obtain ⟨fewer, turns⟩ := Nat.exists_eq_add_one_of_ne_zero (Nat.ne_zero_of_lt bounded)
  refine gives_simple bounded (by cases word <;> rfl) (by cases word <;> rfl) (Gives.undecorated ?_)
  rw [Scope.simpleLine, turns]
  refine single.bind fun _ => ?_
  refine .bind (.done (.bind (.eat_other rfl) fun _ => .pure _ _)) fun _ => ?_
  exact .expectKind_bind rfl fun _ => .pure _ rest

/-- A name before a colon is read as an expression. -/
theorem gives_nameCondition {name : String} (identifier : isIdentifier name = true) {depth : Nat}
    (deep : rest.length + 2 < depth) :
    ((Inner.upTo depth).expr Power.any).Gives (.word name :: .mark ":" :: rest)
      (.name name .load) (.mark ":" :: rest) := by
  have delimiter : (Token.front (.mark ":" :: rest)).isDelimiter = true := rfl
  have loose := (Token.of_isDelimiter delimiter).2
  have operand : Yields 0 (.word name :: .mark ":" :: rest) (.plain (.name name .load))
      (.mark ":" :: rest) :=
    Expr.reads_name identifier 0 _ _ _ (Expr.power?_pos _)
      (Expr.closedBy_of_isDelimiter _ delimiter) (.stop (Nat.le_of_eq loose))
  exact (operand.expr (by decide) (Token.leads_word identifier).1.opens deep).2

/-- One turn of reading an indented block. -/
def Scope.blockTurn (scope : Scope) (body : List Stmt) : Parse (Turn (List Stmt) (List Stmt)) := do
  if ← eatKind .dedent then return .done body
  else return .again (body ++ (← scope.statement))

/-- A colon and an indented block are read by the turns of the block. -/
theorem gives_colonSuite {inside : List Token} {body : List Stmt} (ending indent : String)
    (read : (loop scope.blockTurn scope.inner.bound []).GivesUndecorated inside body rest) :
    scope.colonSuite.GivesUndecorated
      (.mark ":" :: .lineEnd ending :: .opening indent :: inside) body rest := by
  have taken : (eatKind .newline).Gives (.lineEnd ending :: .opening indent :: inside) true
      (.opening indent :: inside) := .eatKind rfl (by decide)
  refine .drop_bind (.expect_bind (by decide) fun _ => .pure () _) ?_
  refine taken.undecorated.bind fun _ => ?_
  exact .drop_bind (.expectKind_bind rfl fun _ => .pure () _) read

/-- The rule of a header. -/
def Outline.Header.rule : Header → StatementRule
  | .ifElse => .ifElse
  | .whileLoop => .whileLoop

/-- The token in front starts no further branch of a statement. -/
def Token.StartsNoBranch (token : Token) : Prop :=
  token.isText "elif" = false ∧ token.isText "else" = false

/-- The condition of a header and its block are read by the turns of the block. -/
theorem Outline.Header.gives_condition (header : Header) {name : String}
    (identifier : isIdentifier name = true) {inside : List Token} {body : List Stmt}
    (ending indent : String) {depth : Nat} (inner : scope.inner = .upTo depth)
    (deep : inside.length + 4 < depth)
    (read : (loop scope.blockTurn depth []).GivesUndecorated inside body rest) :
    scope.condition.GivesUndecorated (header.tokens name ending ++ .opening indent :: inside)
      (.name name .load, body) rest := by
  have bound : scope.inner.bound = depth := congrArg Inner.bound inner
  have test : (scope.inner.expr Power.any).Gives
      (.word name :: .mark ":" :: .lineEnd ending :: .opening indent :: inside)
      (.name name .load) (.mark ":" :: .lineEnd ending :: .opening indent :: inside) := by
    rw [inner]
    refine gives_nameCondition identifier ?_
    rw [List.length_cons, List.length_cons]
    omega
  refine .drop_bind (.advance_bind fun _ _ => .pure () _) ?_
  refine test.undecorated.bind fun _ => ?_
  refine (gives_colonSuite ending indent ?_).bind fun _ => (Gives.pure _ rest).undecorated
  rw [bound]
  exact read

/-- No further condition and no last branch are read where none is in front. -/
theorem gives_noBranch (bounded : 0 < scope.inner.bound)
    (behind : (Token.front rest).StartsNoBranch) :
    (loop (fun others => do
      if ← check "elif" then return .again (others ++ [← scope.condition])
      else return .done others) scope.inner.bound [] :
      Parse (List (Expr × List Stmt))).Gives rest [] rest ∧
    (scope.optionalSuite "else").Gives rest [] rest := by
  obtain ⟨fewer, turns⟩ := Nat.exists_eq_add_one_of_ne_zero (Nat.ne_zero_of_lt bounded)
  constructor
  · rw [turns]
    refine .done (.bind (.check "elif" rest) fun _ => ?_)
    rw [behind.1]
    exact .pure _ rest
  · exact .bind (.eat_other behind.2) fun _ => .pure _ rest

/-- A header and its block are read as a statement if no further branch is behind them. -/
theorem Outline.Header.gives (header : Header) {name : String}
    (identifier : isIdentifier name = true) {inside : List Token} {body : List Stmt}
    (ending indent : String) {depth : Nat} (inner : scope.inner = .upTo depth)
    (deep : inside.length + 4 < depth)
    (read : (loop scope.blockTurn depth []).GivesUndecorated inside body rest)
    (behind : (Token.front rest).StartsNoBranch) :
    scope.statementLine.GivesUndecorated
      (header.tokens name ending ++ .opening indent :: inside)
      [header.stmt (.name name .load) body] rest := by
  have bounded : 0 < scope.inner.bound := by
    rw [congrArg Inner.bound inner]
    exact Nat.zero_lt_of_lt deep
  have condition := header.gives_condition identifier ending indent inner deep read
  obtain ⟨branches, orelse⟩ := gives_noBranch bounded behind
  have statement : (header.rule.parse scope).GivesUndecorated
      (header.tokens name ending ++ .opening indent :: inside)
      (header.stmt (.name name .load) body) rest := by
    cases header with
    | ifElse =>
      refine condition.bind fun _ => (branches.bind fun _ => orelse.bind fun _ => ?_).undecorated
      exact .pure (Stmt.ifElse (.name name .load) body []) rest
    | whileLoop =>
      refine condition.bind fun _ => (orelse.bind fun _ => ?_).undecorated
      exact .pure (Stmt.whileLoop (.name name .load) body []) rest
  exact gives_compound bounded (by cases header <;> rfl) (by cases header <;> rfl) statement

end Lines

/-- What follows a statement may be another one of an outline, but no further branch. -/
theorem Outline.Spells.startsNoBranch {nodes : List Outline} {tokens rest : List Token}
    (spells : Spells nodes tokens) (behind : (Token.front rest).StartsNoBranch) :
    (Token.front (tokens ++ rest)).StartsNoBranch := by
  cases spells with
  | nil => exact behind
  | @leaf word => cases word <;> exact ⟨rfl, rfl⟩
  | @block header => cases header <;> exact ⟨rfl, rfl⟩

/-- What reads statements where the bounds on expressions and on statements are given. -/
def Scope.within (breadth depth : Nat) : Scope :=
  ⟨.upTo breadth, statementAt depth, lineAt depth⟩

/-- Statements inside are statement lines with a smaller bound. -/
theorem Scope.within_statement (breadth depth : Nat) :
    (Scope.within breadth (depth + 1)).statement =
      (Scope.within (depth + 1) depth).statementLine := by
  show statementAt (depth + 1) = _
  rw [statementAt]
  rfl

/-- Lines inside are lines of simple statements with a smaller bound. -/
theorem Scope.within_line (breadth depth : Nat) :
    (Scope.within breadth (depth + 1)).line = (Scope.within (depth + 1) depth).simpleLine := by
  show lineAt (depth + 1) = _
  rw [lineAt]
  rfl

/-- The turns of a loop read statement lines: a turn adds the line if neither a mark that closes a
block nor the end mark is in front, and a turn is the last one if the given tokens are in front. -/
structure ReadsLines (line : Parse (List Stmt))
    (turn : List Stmt → Parse (Turn (List Stmt) (List Stmt))) (last behind : List Token) :
    Prop where
  /-- A further turn. -/
  again {body stmts : List Stmt} {ahead later : List Token}
    (open_ : (Token.front ahead).kind ≠ .dedent) (going : (Token.front ahead).kind ≠ .endMarker)
    (read : line.GivesUndecorated ahead stmts later) :
    (turn body).GivesUndecorated ahead (.again (body ++ stmts)) later
  /-- The last turn. -/
  done (body : List Stmt) : (turn body).GivesUndecorated last (.done body) behind

/-- The turns of a block read its lines up to the mark that closes it. -/
theorem Scope.blockTurn_readsLines (scope : Scope) {closing : Token}
    (closes : closing.kind = .dedent) (behind : List Token) :
    ReadsLines scope.statement scope.blockTurn (closing :: behind) behind where
  again open_ _ read := by
    refine (Gives.eatKind_other open_).undecorated.bind fun _ => ?_
    exact read.bind fun _ => (Gives.pure _ _).undecorated
  done body := by
    have taken : (eatKind .dedent).Gives (closing :: behind) true behind :=
      .eatKind closes (by decide)
    exact taken.undecorated.bind fun _ => (Gives.pure _ behind).undecorated

/-- The tokens that spell nodes are read as the statements of the nodes by a loop over statement
lines, where the bounds on the depth and on the turns are great enough. -/
theorem Outline.Spells.loop {nodes : List Outline} {tokens : List Token}
    (spells : Spells nodes tokens) :
    ∀ {breadth depth turns : Nat} {turn : List Stmt → Parse (Turn (List Stmt) (List Stmt))}
      {last behind : List Token} (body : List Stmt),
      ReadsLines (Scope.within breadth depth).statementLine turn last behind →
      (Token.front last).StartsNoBranch → (tokens ++ last).length < breadth →
      (tokens ++ last).length < depth → tokens.length < turns →
      (Parse.loop turn turns body).GivesUndecorated (tokens ++ last) (body ++ stmts nodes)
        behind := by
  induction spells with
  | nil =>
    intro breadth depth turns turn last behind body reads _ _ _ enough
    obtain ⟨fewer, rfl⟩ := Nat.exists_eq_add_one_of_ne_zero (Nat.ne_zero_of_lt enough)
    rw [stmts, List.append_nil]
    exact (reads.done body).bind fun _ => (Gives.pure _ behind).undecorated
  | @leaf word nodes tokens ending later ih =>
    intro breadth depth turns turn last behind body reads apart wide deep enough
    obtain ⟨fewer, rfl⟩ := Nat.exists_eq_add_one_of_ne_zero (Nat.ne_zero_of_lt enough)
    simp only [List.cons_append, List.length_cons] at wide deep enough ⊢
    have line : (Scope.within breadth depth).statementLine.GivesUndecorated
        (.word word.text :: .lineEnd ending :: (tokens ++ last)) [word.stmt] (tokens ++ last) :=
      word.gives ending (Nat.zero_lt_of_lt wide) _
    have others : (Parse.loop turn fewer (body ++ [word.stmt])).GivesUndecorated (tokens ++ last)
        (body ++ [word.stmt] ++ stmts nodes) behind :=
      ih _ reads apart (by omega) (by omega) (by omega)
    rw [List.append_assoc] at others
    exact .again (reads.again Kind.noConfusion Kind.noConfusion line) others
  | @block header name first rest nodes inside later ending indent inBlock spellsLater ihBody ih =>
    intro breadth depth turns turn last behind body reads apart wide deep enough
    obtain ⟨fewer, rfl⟩ := Nat.exists_eq_add_one_of_ne_zero (Nat.ne_zero_of_lt enough)
    obtain ⟨lower, rfl⟩ := Nat.exists_eq_add_one_of_ne_zero (Nat.ne_zero_of_lt deep)
    obtain ⟨narrower, rfl⟩ := Nat.exists_eq_add_one_of_ne_zero (Nat.ne_zero_of_lt wide)
    simp only [Header.tokens, List.append_assoc, List.cons_append, List.nil_append,
      List.length_cons, List.length_append] at wide deep enough ⊢
    -- The block is read one level deeper, where the bounds are those of its statements.
    have blockTurns : ReadsLines (Scope.within (lower + 1) lower).statementLine
        (Scope.within (narrower + 1) (lower + 1)).blockTurn (.closing :: (later ++ last))
        (later ++ last) := by
      rw [← Scope.within_statement (narrower + 1)]
      exact Scope.blockTurn_readsLines _ rfl _
    have block : (Parse.loop (Scope.within (narrower + 1) (lower + 1)).blockTurn (narrower + 1)
        []).GivesUndecorated (inside ++ .closing :: (later ++ last)) (stmts (first :: rest))
        (later ++ last) :=
      ihBody [] blockTurns ⟨rfl, rfl⟩ (by simp; omega) (by simp; omega) (by omega)
    have line : (Scope.within (narrower + 1) (lower + 1)).statementLine.GivesUndecorated
        (header.tokens name.1 ending ++ .opening indent :: (inside ++ .closing :: (later ++ last)))
        [Outline.stmt (.block header name first rest)] (later ++ last) :=
      header.gives name.2 ending indent rfl (by simp; omega) block
        (spellsLater.startsNoBranch apart)
    have others : (Parse.loop turn fewer
        (body ++ [Outline.stmt (.block header name first rest)])).GivesUndecorated (later ++ last)
        (body ++ [Outline.stmt (.block header name first rest)] ++ stmts nodes) behind :=
      ih _ reads apart (by simp; omega) (by simp; omega) (by omega)
    rw [List.append_assoc] at others
    exact .again (reads.again Kind.noConfusion Kind.noConfusion line) others

/-- The turns of a module read its lines up to an end mark. -/
theorem readsLines_of_endMarker (scope : Scope) {ending : Token} (ends : ending.kind = .endMarker) :
    ReadsLines scope.statementLine (fun body => do
      if ← checkKind .endMarker then return .done body
      else return .again (body ++ (← scope.statementLine))) [ending] [ending] where
  again _ going read := by
    refine (Gives.checkKind .endMarker _).undecorated.bind fun _ => ?_
    rw [decide_eq_false going]
    exact read.bind fun _ => (Gives.pure _ _).undecorated
  done body := by
    refine (Gives.checkKind .endMarker _).undecorated.bind fun _ => ?_
    rw [decide_eq_true (show (Token.front [ending]).kind = .endMarker from ends)]
    exact (Gives.pure _ _).undecorated

/-- The turns of a module read its lines up to the end mark. -/
theorem moduleTurn_readsLines (scope : Scope) :
    ReadsLines scope.statementLine (fun body => do
      if ← checkKind .endMarker then return .done body
      else return .again (body ++ (← scope.statementLine))) [.endMarker 0] [.endMarker 0] :=
  readsLines_of_endMarker scope rfl

/-- A text whose lines render nodes outside all blocks is parsed as a module of just the statements
of the nodes, whatever the widths of the blocks are and wherever idle lines stand. -/
theorem parse_outline {nodes : List Outline} {lines : List (List Char)} {source : String}
    (renders : Renders 0 nodes lines) (text : HasLines source.toList lines)
    (file : Option String) : parse source file .exec = .ok (.module (stmts nodes)) := by
  obtain ⟨tokens, spelled, scanned, spells, same⟩ := renders.tokenize text file
  have body : (Scope.run moduleBody).GivesUndecorated (spelled ++ [.endMarker 0]) (stmts nodes)
      [.endMarker 0] := by
    refine .run fun depth deep => ?_
    rw [List.length_append, List.length_singleton] at deep
    have within_ : (spelled ++ [Token.endMarker 0]).length < depth := by simpa using deep
    exact spells.loop [] (moduleTurn_readsLines (.upTo depth)) ⟨rfl, rfl⟩ within_ within_
      (Nat.lt_of_succ_lt deep)
  have read : (parseRoot .exec).GivesUndecorated (seen tokens) (.module (stmts nodes))
      [.endMarker 0] := by
    rw [same]
    exact body.bind fun _ => (Gives.pure _ _).undecorated
  exact parse_of_undecorated scanned read

/-- Two blocks that close before one line, with a comment and a blank line between the lines. -/
theorem parse_outline_of_blocks :
    parse "if x:\n\t# why\n  while _y:\n \t break\n\nwhile if_:\n\tpass\n\tcontinue\n" none .exec =
      .ok (.module
        [.ifElse (.name "x" .load) [.whileLoop (.name "_y" .load) [.breakLoop] []] [],
         .whileLoop (.name "if_" .load) [.pass, .continueLoop] []]) := by
  have breaks : Renders 3 [.leaf .breakLoop] [" \t break".toList, []] :=
    @Renders.leaf 3 .breakLoop [] [' ', '\t', ' '] [[]] ⟨rfl, rfl⟩ (.idle rfl .nil)
  have loops : Renders 2 [.block .whileLoop ⟨"_y", by decide⟩ (.leaf .breakLoop) []]
      ["\t# why".toList, "  while _y:".toList, " \t break".toList, []] :=
    .idle rfl (@Renders.block 2 3 _ _ _ _ [] [' ', ' '] _ [] ⟨rfl, rfl⟩ (by decide) breaks .nil)
  have words : Renders 1 [.leaf .pass, .leaf .continueLoop]
      ["\tpass".toList, "\tcontinue".toList] :=
    @Renders.leaf 1 .pass _ ['\t'] _ ⟨rfl, rfl⟩
      (@Renders.leaf 1 .continueLoop [] ['\t'] [] ⟨rfl, rfl⟩ .nil)
  have renders : Renders 0
      [.block .ifElse ⟨"x", by decide⟩
        (.block .whileLoop ⟨"_y", by decide⟩ (.leaf .breakLoop) []) [],
       .block .whileLoop ⟨"if_", by decide⟩ (.leaf .pass) [.leaf .continueLoop]]
      ["if x:".toList, "\t# why".toList, "  while _y:".toList, " \t break".toList, [],
       "while if_:".toList, "\tpass".toList, "\tcontinue".toList] :=
    @Renders.block 0 2 .ifElse ⟨"x", _⟩ _ [] _ [] _ _ ⟨rfl, rfl⟩ (by decide) loops
      (@Renders.block 0 1 .whileLoop ⟨"if_", _⟩ _ _ [] [] _ [] ⟨rfl, rfl⟩ (by decide) words
        .nil)
  have text : HasLines
      "if x:\n\t# why\n  while _y:\n \t break\n\nwhile if_:\n\tpass\n\tcontinue\n".toList
      ["if x:".toList, "\t# why".toList, "  while _y:".toList, " \t break".toList, [],
       "while if_:".toList, "\tpass".toList, "\tcontinue".toList] :=
    .of_feeds (by decide) (by decide)
  exact parse_outline renders text none

end Offside
