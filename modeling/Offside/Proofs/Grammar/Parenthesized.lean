import Offside.Proofs.Expression.RoundTrip
import Offside.Proofs.Grammar.Arguments
import Offside.Proofs.Grammar.Brackets
import Offside.Proofs.Grammar.Elsewhere
import Offside.Proofs.Grammar.Renamed
import Offside.Proofs.Grammar.Whole
import Offside.Proofs.Layout.Enclosed

/-!
# Parentheses around a text

An operand is read in the same way in front of a closing parenthesis as in front of the end of its
line (`operandAt_gives`), and a text in parentheses has the lexemes of the text. So parentheses
around a text that is parsed as an expression do not change its tree (`parse_parenthesized`).
-/
namespace Offside

open Parse Text

section operands

variable {depth : Nat} {power : Power} {state behind : State} {out : Parsed}

/-- In front of a closing parenthesis an operand is read from the same tokens as in front of the end
of its line. -/
theorem operandAt_gives {words after : List Token} (standard : state.grammar = .standard)
    (healthy : state.failure = none) (undecorated : state.decorators = [])
    (read : operandAt depth power state = .ok out behind)
    (ahead : state.ahead = words ++ behind.ahead) (ends : behind.current.kind = .newline)
    {otherDepth : Nat} (deep : words.length < otherDepth) :
    (operandAt otherDepth power).GivesUndecorated (words.map Token.bare ++ .mark ")" :: after) out
      (.mark ")" :: after) := by
  refine gives_of_pairs (.inl rfl) (fun pairing _ _ more => operandAt_pairs (.inr ⟨more, deep⟩) power)
    (operandAt_mirrors (Nat.le_refl otherDepth) power) (operandAt_makes otherDepth power) ?_
    standard healthy undecorated read ahead ends (.inr ⟨rfl, rfl⟩)
  rintro pairing _ start last unnamed - - - rfl
  have word : Renaming.none.word = id := rfl
  rw [unnamed, Parsed.relabel, word, Expr.relabel_id]

end operands

section groups

variable {words ahead after rest : List Token} {parsed : Parsed}

/-- An operand between parentheses is read as the operand alone. -/
theorem grouped_gives {depth : Nat}
    (operand : (operandAt depth Power.any).GivesUndecorated (words ++ .mark ")" :: after) parsed
      (.mark ")" :: after))
    (opens : (Token.front (words ++ .mark ")" :: after)).isText ")" = false)
    (stops : (Token.front after).isDelimiter = true) (deep : after.length ≤ depth) :
    (operandAt (depth + 1) Power.any).GivesUndecorated (.mark "(" :: (words ++ .mark ")" :: after))
      ⟨parsed.expr, .grouped⟩ after := by
  have group : (PrefixRule.grouping.parse ⟨depth, operandAt depth⟩).GivesUndecorated
      (.mark "(" :: (words ++ .mark ")" :: after)) ⟨parsed.expr, .grouped⟩ after := by
    refine .drop_bind (.advance_bind fun _ _ => .pure () _) ?_
    refine (Gives.eat_other opens).undecorated.bind fun _ => ?_
    refine operand.bind fun _ => ?_
    exact (Gives.expect_bind (by decide) fun _ => .pure _ after).undecorated
  refine (Gives.prefixRule _).undecorated.bind fun _ => ?_
  refine group.bind fun _ => ?_
  have loose := Nat.le_of_eq (Token.of_isDelimiter stops).2
  have climbs : Climbs Power.any ⟨parsed.expr, .grouped⟩ after ⟨parsed.expr, .grouped⟩ after :=
    .stop loose
  exact (climbs depth (depth + 1) deep (Nat.lt_succ_of_le deep)).undecorated

/-- An operand that is no comprehension is an expression, if its first token may start one. -/
theorem Parse.GivesUndecorated.expr {inner : Inner} {power : Power}
    (operand : (inner.operand power).GivesUndecorated ahead parsed rest)
    (bare : parsed.form ≠ .comprehension) (opens : (Token.front ahead).Opens) :
    (inner.expr power).GivesUndecorated ahead parsed.expr rest := by
  have optional : (inner.optionalOperand power).GivesUndecorated ahead (some parsed) rest := by
    refine (Gives.atDelimiter ahead).undecorated.bind fun _ => ?_
    rw [opens.1]
    refine (Gives.check "," ahead).undecorated.bind fun _ => ?_
    rw [opens.2, Bool.and_false]
    exact operand.bind fun _ => (Gives.pure _ rest).undecorated
  have finished : (inner.optionalExpr power).GivesUndecorated ahead (some parsed.expr) rest := by
    have finish : (do return some (← parsed.finish) : Parse (Option Expr)).Gives rest
        (some parsed.expr) rest := by
      rw [Parsed.finish, if_neg bare]
      exact .bind (.pure _ rest) fun _ => .pure _ rest
    exact optional.bind fun _ => finish.undecorated
  exact finished.bind fun _ => (Gives.pure _ rest).undecorated

/-- An expression in parentheses is read up to the end of a text. -/
theorem parseRoot_gives {ending : List Token}
    (operand : ∀ depth, words.length < depth →
      (operandAt depth Power.any).GivesUndecorated (words ++ .mark ")" :: ending.map Token.bare)
        parsed (.mark ")" :: ending.map Token.bare))
    (opens : (Token.front (words ++ .mark ")" :: ending.map Token.bare)).isText ")" = false)
    (ends : IsEnding ending) :
    (parseRoot .eval).GivesUndecorated
      (.mark "(" :: (words ++ .mark ")" :: ending.map Token.bare)) (.expression parsed.expr)
      [] := by
  have body (depth : Nat) (deep : words.length + ending.length + 2 < depth) :
      (wholeExpression (.upTo depth)).GivesUndecorated
        (.mark "(" :: (words ++ .mark ")" :: ending.map Token.bare)) parsed.expr [] := by
    obtain ⟨depth, rfl⟩ := Nat.exists_eq_add_one_of_ne_zero (Nat.ne_zero_of_lt deep)
    have group := grouped_gives (operand depth (by omega)) opens ends.isDelimiter
      (by rw [List.length_map]; omega)
    have starts :
        (Token.front (.mark "(" :: (words ++ .mark ")" :: ending.map Token.bare))).Opens :=
      ⟨rfl, rfl⟩
    rw [wholeExpression_eq]
    have bare : Form.grouped ≠ .comprehension := by decide
    refine GivesUndecorated.bind (.expr group bare starts) fun _ => ?_
    exact (ends.gives parsed.expr (by show _ < depth + 1; omega)).undecorated
  have whole : (Inner.run wholeExpression).GivesUndecorated
      (.mark "(" :: (words ++ .mark ")" :: ending.map Token.bare)) parsed.expr [] := by
    intro start standard healthy undecorated same
    refine body start.bound ?_ start standard healthy undecorated same
    have length := congrArg List.length same
    simp only [List.length_map, List.length_cons, List.length_append] at length
    rw [State.bound, length]
    omega
  exact whole.bind fun _ => (Gives.pure _ []).undecorated

end groups

section whole

variable {inner : Inner} {power : Power} {state behind : State} {out : Expr}

/-- An expression is an operand, behind a token that may start one. -/
theorem Inner.expr_ok (read : inner.expr power state = .ok out behind) :
    ∃ parsed, inner.operand power state = .ok parsed behind ∧ out = parsed.expr ∧
      state.current.isDelimiter = false := by
  obtain ⟨optional, between, head, tail⟩ := bind_ok read
  cases optional with
  | none => exact absurd tail failExpression_ne
  | some found =>
    obtain ⟨rfl, rfl⟩ := pure_ok tail
    obtain ⟨operand, middle, first, finish⟩ := bind_ok head
    cases operand with
    | none => exact absurd (pure_ok finish).1 (by simp)
    | some parsed =>
      obtain ⟨finished, last, ends, same⟩ := bind_ok finish
      obtain ⟨-, rfl, rfl⟩ := Inner.finish_ok_iff.1 ends
      obtain ⟨value, rfl⟩ := pure_ok same
      obtain rfl := Option.some.inj value
      obtain ⟨delimited, here, looked, rest⟩ := bind_ok first
      obtain ⟨rfl, rfl⟩ := EStateM.Result.ok.inj looked
      split at rest
      · exact absurd (pure_ok rest).1 (by simp)
      · rename_i opens
        obtain ⟨comma, here, looked, rest⟩ := bind_ok rest
        obtain ⟨rfl, rfl⟩ := EStateM.Result.ok.inj looked
        split at rest
        · exact absurd (pure_ok rest).1 (by simp)
        · obtain ⟨operand, last, read, same⟩ := bind_ok rest
          obtain ⟨value, rfl⟩ := pure_ok same
          obtain rfl := Option.some.inj value
          exact ⟨parsed, read, rfl, Bool.eq_false_iff.2 opens⟩

/-- Line ends are passed over. -/
theorem lineEnds_ok {bound : Nat} (read : loop lineEndTurn bound () state = .ok () behind) :
    ∃ ends, state.ahead = ends ++ behind.ahead ∧ ∀ token ∈ ends, token.kind = .newline := by
  induction bound generalizing state with
  | zero => exact absurd read failExpression_ne
  | succ bound ih =>
    have turn {next : Turn Unit Unit} {between : State}
        (taken : lineEndTurn () state = .ok next between) :
        (next = .done () ∧ between = state) ∨ (next = .again () ∧
          ∃ token, state.ahead = token :: between.ahead ∧ token.kind = .newline) := by
      obtain ⟨eaten, place, eats, same⟩ := bind_ok taken
      obtain ⟨known, here, looked, rest⟩ := bind_ok eats
      obtain ⟨rfl, rfl⟩ := EStateM.Result.ok.inj looked
      split at rest
      · rename_i ends
        obtain ⟨token, last, read, done⟩ := bind_ok rest
        obtain ⟨rfl, rfl⟩ := pure_ok done
        obtain ⟨rfl, rfl⟩ := pure_ok same
        rw [Bool.and_eq_true, decide_eq_true_eq] at ends
        obtain ⟨-, moves, -⟩ := advance_ok (.layout .newline) ⟨ends.1, rfl⟩ read
        obtain ⟨dropped, covers⟩ := moves.covers
        obtain ⟨found, later, ahead, admits, none_⟩ := covers.of_terminal
        cases none_
        exact .inr ⟨rfl, found, ahead, admits.1⟩
      · obtain ⟨rfl, rfl⟩ := pure_ok rest
        obtain ⟨rfl, rfl⟩ := pure_ok same
        exact .inl ⟨rfl, rfl⟩
    rcases loop_ok_iff.1 read with last | ⟨next, between, taken, rest⟩
    · rcases turn last with ⟨-, rfl⟩ | ⟨again, -⟩
      · exact ⟨[], rfl, fun _ member => absurd member List.not_mem_nil⟩
      · contradiction
    · rcases turn taken with ⟨done, -⟩ | ⟨-, token, ahead, kind⟩
      · contradiction
      · obtain ⟨ends, left, newlines⟩ := ih rest
        refine ⟨token :: ends, ?_, List.forall_mem_cons.2 ⟨kind, newlines⟩⟩
        rw [ahead, left, List.cons_append]

/-- A whole expression is an operand, and line ends up to an end mark. -/
theorem wholeExpression_ok {bound : Nat}
    (read : wholeExpression (.upTo bound) state = .ok out behind) :
    ∃ (parsed : Parsed) (between onward : State) (ends : List Token),
      operandAt bound Power.any state = .ok parsed between ∧ out = parsed.expr ∧
      state.current.isDelimiter = false ∧
      between.ahead = ends ++ onward.ahead ∧ (∀ token ∈ ends, token.kind = .newline) ∧
      onward.current.kind = .endMarker := by
  rw [wholeExpression_eq] at read
  obtain ⟨body, between, head, tail⟩ := bind_ok read
  obtain ⟨parsed, operand, rfl, opens⟩ := Inner.expr_ok head
  obtain ⟨⟨⟩, onward, turns, tail⟩ := bind_ok tail
  obtain ⟨ends, ahead, newlines⟩ := lineEnds_ok turns
  obtain ⟨mark, last, required, same⟩ := bind_ok tail
  obtain ⟨rfl, -⟩ := pure_ok same
  exact ⟨parsed, between, onward, ends, operand, rfl, opens, ahead, newlines,
    (expectKind_ok required).1⟩

end whole

section texts

variable {source : String} {file : Option String} {tokens : List Token} {bound : Nat}
  {parsed : Parsed} {between : State}

/-- The tokens of an operand are lexemes of statements with brackets that match. -/
theorem operandAt_words (scanned : tokenize source file = .ok tokens)
    (read : operandAt bound Power.any (.ofTokens tokens file) = .ok parsed between) :
    ∃ words, tokens.filter Token.isSignificant = words ++ between.ahead ∧
      words.foldlM Token.bracketsBehind? 0 = some 0 ∧
      (∀ token ∈ words, token.kind.isAside = false) ∧ ∀ token ∈ words, token.HoldsWord := by
  obtain ⟨moves, -⟩ := operandAt_makes bound Power.any _ parsed between rfl rfl read
  obtain ⟨dropped, covers⟩ := moves.covers
  have plain : ∀ token ∈ tokens.filter Token.isSignificant, token.IsPlain := fun token member =>
    Scanner.plain_of_tokenize scanned token (List.mem_filter.1 member).1
  have inside : ∀ symbol ∈ [Symbol.phrase (.operand Power.any parsed)], symbol.InExpression :=
    List.forall_mem_singleton.2 rfl
  have fits :
      [Symbol.phrase (.operand Power.any parsed)].foldlM Symbol.bracketsBehind? 0 = some 0 := rfl
  obtain ⟨words, split, fits, lexemes⟩ := covers.brackets inside plain fits
  refine ⟨words, split, fits, lexemes, fun token member => ?_⟩
  have within : token ∈ tokens := by
    have all : token ∈ words ++ between.ahead := List.mem_append_left _ member
    rw [← split] at all
    exact (List.mem_filter.1 all).1
  have found := Token.holdsOfSteps_holdsWord.ofSource source file token
  rw [Stream.toExcept_ok scanned] at found
  exact found within

/-- Behind lexemes of statements and ends of lines an end mark is the last token. -/
theorem singleton_of_endMarker {front : List Token} {onward : State}
    (scanned : tokenize source file = .ok tokens)
    (split : tokens.filter Token.isSignificant = front ++ onward.ahead)
    (others : ∀ token ∈ front, token.kind ≠ .endMarker)
    (mark : onward.current.kind = .endMarker) :
    ∃ last, onward.ahead = [last] ∧ last.kind = .endMarker := by
  obtain ⟨upper, last, rfl, kind, unmarked⟩ := (Scanner.wellLaidOut_of_tokenize scanned).ended
  have whole : upper.filter Token.isSignificant ++ [last] = front ++ onward.ahead := by
    have significant : last.isSignificant = true := by simp [Token.isSignificant, kind]
    rw [← split, List.filter_append, List.filter_singleton, significant]
    rfl
  cases left : onward.ahead with
  | nil =>
    rw [left, List.append_nil] at whole
    exact absurd kind (others last (by rw [← whole]; simp))
  | cons token rest =>
    rw [State.current, left] at mark
    have suffix : token :: rest <:+ upper.filter Token.isSignificant ++ [last] :=
      ⟨front, by rw [whole, left]⟩
    have alone := singleton_of_suffix suffix mark fun token member =>
      unmarked token (List.mem_filter.1 member).1
    exact ⟨token, by rw [alone], mark⟩

/-- A line end or an end mark stands in front of line ends up to an end mark. -/
theorem current_delimits {ends : List Token} {last : Token} {mark : Token}
    (newlines : ∀ token ∈ ends, token.kind = .newline) (kind : last.kind = .endMarker) :
    ((ends ++ [last]).headD mark).isDelimiter = true := by
  cases ends with
  | nil => simp [Token.isDelimiter, kind]
  | cons token later => simp [Token.isDelimiter, newlines token List.mem_cons_self]

/-- A token that may start an expression is not a closing parenthesis. -/
theorem Token.not_closes {token : Token} (opens : token.isDelimiter = false)
    (lexical : token.HoldsWord) : token.bare.isText ")" = false := by
  refine Bool.eq_false_iff.2 fun closes => ?_
  simp only [Token.isText, Token.bare, Bool.and_eq_true, Bool.or_eq_true, beq_iff_eq] at closes
  obtain ⟨kind | kind, value⟩ := closes
  · have start := (lexical kind).1
    rw [value] at start
    contradiction
  · have delimits : token.isDelimiter = true := by
      rw [Token.isDelimiter, kind, value]
      decide
    rw [opens] at delimits
    contradiction

/-- Tokens with the same texts are the same without their places. -/
theorem Token.Same.map_bare {words found : List Token}
    (same : List.Forall₂ Token.Same words found) :
    found.map Token.bare = words.map Token.bare := by
  induction same with
  | nil => rfl
  | cons here _ ih =>
    rw [List.map_cons, List.map_cons, ih, Token.bare, Token.bare, here.kind, here.value]

end texts

/-- No comment stands in the last line of a text, unless the line ends in a line feed. -/
def EndsUncommented (source : String) (file : Option String) : Prop :=
  source.toList.getLast? = some '\n' ∨ ∀ tokens, tokenize source file = .ok tokens →
    ∀ token ∈ tokens, token.kind = .comment → token.line ≠ (physicalLines source).length

/-- What stands in a text that is parsed as an expression: the words of an operand, ends of lines
and an end mark. -/
structure WholeOperand (source : String) (file : Option String) where
  /-- The tokens of the text. -/
  tokens : List Token
  /-- The words of the operand. -/
  words : List Token
  /-- The operand. -/
  parsed : Parsed
  /-- The state behind the operand. -/
  between : State
  /-- The text has the tokens. -/
  scanned : tokenize source file = .ok tokens
  /-- The operand is read at the start of the text. -/
  read : operandAt (State.ofTokens tokens file).bound Power.any (.ofTokens tokens file) =
    .ok parsed between
  /-- The words stand in front of what is left. -/
  split : tokens.filter Token.isSignificant = words ++ between.ahead
  /-- The first word may start an expression. -/
  opens : ∃ word later, words = word :: later ∧ word.isDelimiter = false
  /-- The brackets match. -/
  fits : words.foldlM Token.bracketsBehind? 0 = some 0
  /-- The words are lexemes of statements. -/
  lexemes : ∀ token ∈ words, token.kind.isAside = false
  /-- The names are words. -/
  lexical : ∀ token ∈ words, token.HoldsWord
  /-- Nothing but ends of lines and an end mark is left. -/
  ended : ∀ token ∈ between.ahead, token.kind = .newline ∨ token.kind = .endMarker

/-- A text that is parsed as an expression holds an operand and nothing else. -/
theorem exists_wholeOperand {source : String} {file : Option String} {root : Root}
    (parsed : parse source file .eval = .ok root) :
    ∃ whole : WholeOperand source file, root = .expression whole.parsed.expr := by
  obtain ⟨tokens, scanned, -⟩ := parse_derives (by decide) parsed
  rw [parse_of_tokenize scanned] at parsed
  obtain ⟨state, behind, started, read⟩ := parseStream_ok parsed
  obtain rfl := Except.ok.inj ((State.start_ofTokens tokens file).symm.trans started)
  obtain ⟨body, last, read, same⟩ := bind_ok read
  obtain ⟨rfl, rfl⟩ := pure_ok same
  have read : wholeExpression (.upTo (State.ofTokens tokens file).bound) (.ofTokens tokens file) =
    .ok body behind := read
  obtain ⟨operand, between, onward, ends, operandRead, rfl, opens, left, newlines, mark⟩ :=
    wholeExpression_ok read
  obtain ⟨words, split, fits, lexemes, lexical⟩ := operandAt_words scanned operandRead
  have whole : tokens.filter Token.isSignificant = (words ++ ends) ++ onward.ahead := by
    rw [split, left, List.append_assoc]
  have others : ∀ token ∈ words ++ ends, token.kind ≠ .endMarker := by
    refine List.forall_mem_append.2 ⟨fun token member kind => ?_, fun token member kind => ?_⟩
    · have lexeme := lexemes token member
      rw [kind] at lexeme
      contradiction
    · rw [newlines token member] at kind
      contradiction
  obtain ⟨last, alone, kind⟩ := singleton_of_endMarker scanned whole others mark
  have ended : ∀ token ∈ between.ahead, token.kind = .newline ∨ token.kind = .endMarker := by
    rw [left, alone]
    exact List.forall_mem_append.2 ⟨fun token member => .inl (newlines token member),
      List.forall_mem_singleton.2 (.inr kind)⟩
  have starts : ∃ word later, words = word :: later ∧ word.isDelimiter = false := by
    cases words with
    | nil =>
      have front : (State.ofTokens tokens file).ahead = ends ++ [last] := by
        rw [State.ofTokens, split, left, alone, List.nil_append]
      rw [State.current, front, current_delimits newlines kind] at opens
      contradiction
    | cons word later =>
      rw [State.current, State.ofTokens, split] at opens
      exact ⟨word, later, rfl, opens⟩
  exact ⟨⟨tokens, words, operand, between, scanned, operandRead, split, starts, fits, lexemes,
    lexical, ended⟩, rfl⟩

/-- Parentheses do not change a tree: a text that is parsed as an expression is parsed as the same
expression in parentheses, if its last line holds no comment or ends in a line feed. -/
theorem parse_parenthesized {source : String} {file : Option String} {root : Root}
    (parsed : parse source file .eval = .ok root) (uncommented : EndsUncommented source file) :
    parse ("(" ++ source ++ ")") file .eval = .ok root := by
  obtain ⟨whole, rfl⟩ := exists_wholeOperand parsed
  obtain ⟨word, later, words, opens⟩ := whole.opens
  obtain ⟨span, within, lineEnd, more, mark, left, breaks, -⟩ := exists_span whole.scanned
    whole.split (by rw [words]; exact List.cons_ne_nil _ _) whole.lexemes whole.ended whole.fits
  have uncommented : source.toList.getLast? = some '\n' ∨
      ∀ token ∈ span.lower, token.kind = .comment → token.line ≠ (physicalLines source).length :=
    uncommented.imp id fun none_ token member =>
      none_ whole.tokens whole.scanned token (within token member)
  obtain ⟨tokens, opening, found, closing, newline, endMark, scanned, significant, same,
    ⟨openKind, openValue⟩, ⟨closeKind, closeValue⟩, newlineKind, endKind⟩ :=
    span.enclosed uncommented file
  have written : (tokens.filter Token.isSignificant).map Token.bare = .mark "(" ::
      (whole.words.map Token.bare ++ .mark ")" :: [newline, endMark].map Token.bare) := by
    have left : opening.bare = .mark "(" := by rw [Token.bare, Token.mark, openKind, openValue]
    have right : closing.bare = .mark ")" := by rw [Token.bare, Token.mark, closeKind, closeValue]
    rw [significant, List.map_cons, List.map_append, List.map_cons, left, right,
      Token.Same.map_bare same]
  have other : (Token.front (whole.words.map Token.bare ++
      .mark ")" :: [newline, endMark].map Token.bare)).isText ")" = false := by
    rw [words]
    exact word.not_closes opens (whole.lexical word (by rw [words]; exact List.mem_cons_self))
  have group : (parseRoot .eval).GivesUndecorated
      ((tokens.filter Token.isSignificant).map Token.bare) (.expression whole.parsed.expr) [] := by
    rw [written]
    refine parseRoot_gives (fun depth deep => ?_) other (.lineEnd newlineKind (.last endKind))
    rw [List.length_map] at deep
    have ends : whole.between.current.kind = .newline := by
      rw [State.current, left]
      exact breaks
    exact operandAt_gives rfl rfl rfl whole.read whole.split ends deep
  exact parse_of_undecorated scanned group

/-- A call over two lines with a comment in the first one is the same call in parentheses. -/
theorem parse_parenthesized_of_comment :
    ∃ root, parse "f(x, # c\n y)\n" none .eval = .ok root ∧
      EndsUncommented "f(x, # c\n y)\n" none ∧
      parse ("(" ++ "f(x, # c\n y)\n" ++ ")") none .eval = .ok root := by
  have accepted : (parse "f(x, # c\n y)\n" none .eval).toBool = true := by decide +kernel
  have ends : EndsUncommented "f(x, # c\n y)\n" none := .inl (by decide)
  cases parsed : parse "f(x, # c\n y)\n" none .eval with
  | ok root => exact ⟨root, rfl, ends, parse_parenthesized parsed ends⟩
  | error fault =>
    rw [parsed] at accepted
    contradiction

end Offside
