import Offside.Proofs.Grammar.Decorators
import Offside.Proofs.Grammar.Elsewhere
import Offside.Proofs.Grammar.Turns

/-!
# Statements on one line and on lines of their own

A simple statement ends at the same token whether a semicolon or the end of the line is behind it
(`SimpleStatement.gives`). So statements on one line between semicolons, with or without a semicolon
at the end, are read as the same statements on lines of their own: in a module, and as a block behind
the colon of a compound statement (`statement_layouts_agree`).
-/
namespace Offside

open Parse Outline

/-- Tokens that are parsed as a module of one simple statement. The first token is the first one that
the grammar looks at, as it passes over comments and soft breaks. -/
structure SimpleStatement (tokens : List Token) (stmt : Stmt) : Prop where
  /-- No semicolon is among the tokens. -/
  unseparated : ∀ token ∈ tokens, token.isText ";" = false
  /-- Neither ends of lines nor marks of blocks nor end marks are among them. -/
  inline : ∀ token ∈ tokens, token.kind ≠ .newline ∧ token.kind ≠ .indent ∧ token.kind ≠ .dedent ∧
    token.kind ≠ .endMarker
  /-- The first token is not the sign of a decorator. -/
  undecorated : (Token.front (tokens.filter Token.isSignificant)).isText "@" = false
  /-- The first token starts no compound statement. -/
  simple : Grammar.statementRule? Grammar.standard.compound
    (Token.front (tokens.filter Token.isSignificant)) = none
  /-- In front of the end of a line and an end mark, the tokens are parsed as the statement. -/
  parsed : ∃ newline ending file, newline.kind = .newline ∧ ending.kind = .endMarker ∧
    parseTokens (tokens ++ [newline, ending]) file .exec = .ok (.module [stmt])

/-- The rest of a line of statements: further statements, each behind a semicolon, and perhaps a
semicolon at the end. -/
inductive Joined : List (List Token) → List Token → Prop where
  /-- Nothing is left. -/
  | done : Joined [] []
  /-- A semicolon at the end. -/
  | closed {semicolon : Token} (kind : semicolon.kind = .operator) (text : semicolon.value = ";") :
    Joined [] [semicolon]
  /-- A semicolon and a further statement. -/
  | more {semicolon : Token} {tokens rest : List Token} {pieces : List (List Token)}
    (kind : semicolon.kind = .operator) (text : semicolon.value = ";")
    (later : Joined pieces rest) : Joined (tokens :: pieces) (semicolon :: (tokens ++ rest))

/-- Statements on lines of their own. -/
inductive Separate : List (List Token) → List Token → Prop where
  /-- No line is left. -/
  | done : Separate [] []
  /-- A statement, the end of its line, and further lines. -/
  | line {newline : Token} {tokens rest : List Token} {pieces : List (List Token)}
    (kind : newline.kind = .newline) (later : Separate pieces rest) :
    Separate (tokens :: pieces) (tokens ++ newline :: rest)

namespace Scope

variable {scope : Scope} {state behind : State} {breadth depth : Nat}

/-- What reads statements between given bounds is mirrored by itself. -/
theorem mirrors_within (frame : Frame) (breadth depth : Nat) :
    (Scope.within breadth depth).Mirrors frame (Scope.within breadth depth) :=
  ⟨Inner.mirrors_upTo (Nat.le_refl _), (statementAt_closing (Nat.le_refl _)).1,
    (statementAt_closing (Nat.le_refl _)).2⟩

/-- What reads statements between given bounds makes them. -/
theorem sound_within (breadth depth : Nat) : (Scope.within breadth depth).Sound :=
  ⟨fun _ => Inner.sound_upTo breadth, (statementAt_makes depth).1, (statementAt_makes depth).2⟩

/-- A simple statement holds no definition. -/
theorem small_definitions (sound : scope.Sound) (standard : state.grammar = .standard)
    (waits : state.decorators = []) {out : Stmt} (read : scope.small state = .ok out behind) :
    out.definitions = [] := by
  obtain ⟨moves, -⟩ := small_makes sound state out behind standard waits read
  obtain ⟨dropped, derives⟩ := moves.covers
  exact derives.invariant Symbol.HoldsNoDefinition (fun _ => trivial) (fun _ => trivial)
    (fun _ _ _ _ _ production _ _ parts => production.holdsNoDefinition parts)
    (List.suffix_refl _) _ List.mem_cons_self

/-- Without a semicolon behind the first statement a line holds one statement. -/
theorem simpleLine_ok {out : List Stmt} (read : scope.simpleLine state = .ok out behind) :
    ∃ first between, scope.small state = .ok first between ∧
      (between.current.isText ";" = false → out = [first] ∧ between.current.kind = .newline) := by
  rw [simpleLine_eq] at read
  obtain ⟨first, between, small, rest⟩ := bind_ok read
  refine ⟨first, between, small, fun other => ?_⟩
  obtain ⟨body, last, turns, rest⟩ := bind_ok rest
  obtain ⟨newline, final, required, same⟩ := bind_ok rest
  obtain ⟨rfl, rfl⟩ := pure_ok same
  have ended : out = [first] ∧ last = between := by
    generalize scope.inner.bound = bound at turns
    cases bound with
    | zero => exact absurd turns failExpression_ne
    | succ bound =>
      obtain ⟨turn, middle, taken, later⟩ := bind_ok turns
      obtain ⟨found, place, eaten, further⟩ := bind_ok taken
      rcases eat_ok eaten with ⟨-, written, -⟩ | ⟨rfl, -, rfl⟩
      · rw [other] at written
        contradiction
      · obtain ⟨rfl, rfl⟩ := pure_ok further
        exact pure_ok later
  obtain ⟨rfl, rfl⟩ := ended
  exact ⟨rfl, (expectKind_ok required).1⟩

end Scope

/-- Only the end of the line ends the line. -/
theorem suffix_of_newline {words left : List Token} {newline ending : Token} {line : Nat}
    (within : left <:+ words ++ [newline, ending]) (inline : ∀ token ∈ words, token.kind ≠ .newline)
    (ends : ending.kind = .endMarker) (front : (left.headD (.endMarker line)).kind = .newline) :
    left = [newline, ending] := by
  obtain ⟨before, same⟩ := within
  cases left with
  | nil => contradiction
  | cons token rest =>
    rcases List.append_eq_append_iff.1 same with ⟨more, split, left⟩ | ⟨more, split, left⟩
    · cases more with
      | nil => exact left
      | cons first more =>
        obtain ⟨rfl, -⟩ := List.cons.inj left
        exact absurd front (inline token (by rw [split]; simp))
    · cases more with
      | nil => exact left.symm
      | cons first more =>
        cases more with
        | nil =>
          obtain ⟨-, same⟩ := List.cons.inj left
          obtain ⟨rfl, -⟩ := List.cons.inj same
          rw [List.headD_cons, ends] at front
          contradiction
        | cons second more =>
          have length := congrArg List.length left
          simp only [List.cons_append, List.length_cons, List.length_append, List.length_nil] at length
          omega

namespace SimpleStatement

variable {tokens : List Token} {stmt : Stmt}

/-- The tokens that the grammar looks at, of which there are some, are read as the statement, up to
the end of the line. -/
theorem small_ok (simple : SimpleStatement tokens stmt) :
    tokens.filter Token.isSignificant ≠ [] ∧
    ∃ (bound : Nat) (state behind : State), state.grammar = .standard ∧ state.failure = none ∧
      state.decorators = [] ∧ (Scope.upTo bound).small state = .ok stmt behind ∧
      state.ahead = tokens.filter Token.isSignificant ++ behind.ahead ∧
      behind.current.kind = .newline := by
  obtain ⟨newline, ending, file, breaks, ends, parsed⟩ := simple.parsed
  obtain ⟨behind, reads, mark⟩ := parseTokens_exec_iff.1 parsed
  have ahead : (State.ofTokens (tokens ++ [newline, ending]) file).ahead =
      tokens.filter Token.isSignificant ++ [newline, ending] := by
    have breaks : newline.isSignificant = true := by simp [Token.isSignificant, breaks]
    have ends : ending.isSignificant = true := by simp [Token.isSignificant, ends]
    simp [State.ofTokens, breaks, ends]
  have plain : ∀ token ∈ tokens.filter Token.isSignificant ++ [newline, ending],
      token.isText ";" = false := by
    refine List.forall_mem_append.2 ⟨fun token member =>
      simple.unseparated token (List.mem_filter.1 member).1, ?_⟩
    simp [Token.isText, breaks, ends]
  have inline : ∀ token ∈ tokens.filter Token.isSignificant, token.kind ≠ .newline :=
    fun token member => (simple.inline token (List.mem_filter.1 member).1).1
  have standard : (State.ofTokens (tokens ++ [newline, ending]) file).grammar = .standard := rfl
  have healthy : (State.ofTokens (tokens ++ [newline, ending]) file).failure = none := rfl
  have waits : (State.ofTokens (tokens ++ [newline, ending]) file).decorators = [] := rfl
  generalize State.ofTokens (tokens ++ [newline, ending]) file = state at *
  have filled : tokens.filter Token.isSignificant ≠ [] := by
    intro empty
    have unfit : state.current.Unfit := by
      rw [State.current, ahead, empty]
      exact .of_isLayout (by rw [List.nil_append, List.headD_cons, breaks]; rfl)
    generalize same : [stmt] = body at reads
    cases reads with
    | stop => contradiction
    | line going read later => exact statementLine_unfit standard unfit _ _ read
  have front : state.current = Token.front (tokens.filter Token.isSignificant) := by
    obtain ⟨first, rest, words⟩ := List.exists_cons_of_ne_nil filled
    rw [State.current, ahead, words]
    rfl
  generalize same : [stmt] = body at reads
  cases reads with
  | stop => contradiction
  | @line _ middle _ body rest going read later =>
    have line := Scope.simpleLine_of_statementLine standard (front ▸ simple.undecorated)
      (front ▸ simple.simple) read
    obtain ⟨first, between, small, single⟩ := Scope.simpleLine_ok line
    have within : between.ahead <:+ tokens.filter Token.isSignificant ++ [newline, ending] := by
      have mirrors := Scope.small_mirrors
        (Scope.mirrors_within Frame.whole state.bound state.bound) state standard
      rw [← ahead]
      exact (mirrors.passes small).1.suffix
    have other : between.current.isText ";" = false := by
      cases left : between.ahead with
      | nil =>
        rw [State.current, left]
        rfl
      | cons token more =>
        rw [State.current, left]
        exact plain token (within.subset (by rw [left]; exact List.mem_cons_self))
    obtain ⟨rfl, breaks⟩ := single other
    obtain ⟨rfl, -⟩ := List.cons.inj same
    refine ⟨filled, _, state, between, standard, healthy, waits, small, ?_, breaks⟩
    rw [ahead, suffix_of_newline within inline ends breaks]

/-- The statement is read up to the end of the line or a semicolon. -/
theorem gives (simple : SimpleStatement tokens stmt) {breadth depth : Nat} {stop : Token}
    {after : List Token} (stops : stop.kind = .newline ∨ stop.kind = .operator ∧ stop.value = ";")
    (deep : (seen tokens).length < breadth) :
    (Scope.within breadth depth).small.GivesUndecorated (seen tokens ++ stop :: after) stmt
      (stop :: after) := by
  obtain ⟨-, bound, state, behind, standard, healthy, waits, read, ahead, ends⟩ := simple.small_ok
  rw [seen, List.length_map] at deep
  have sound := Scope.sound_within breadth depth
  have mirrors : (Scope.within breadth depth).small.Mirrors Frame.whole false Eq
      (Scope.within breadth depth).small := by
    refine (Scope.small_mirrors (Scope.mirrors_within _ breadth depth)).weaken ?_
    rintro out _ rfl
    exact (out.moveLines_id).symm
  have pairs (pairing : Pairing) (unnamed : pairing.rename = .none) (mark : pairing.mark = ";")
      (more : pairing.tail ≠ []) : (Scope.upTo bound).small.Pairs pairing
      (tokens.filter Token.isSignificant).length pairing.Copies
      (Scope.within breadth depth).small := by
    have round : pairing.Tells ")" := ⟨rfl, .inr (by rw [mark]; decide)⟩
    exact Scope.small_pairs round (Inner.pairs_upTo (.inr ⟨more, deep⟩))
  refine gives_of_pairs (.inr rfl) pairs mirrors (Scope.small_makes sound) ?_ standard healthy waits
    read ahead ends stops
  intro pairing value start last unnamed otherStandard otherWaits otherRead copies
  have none_ := Scope.small_definitions (Scope.sound_upTo bound) standard waits read
  have otherNone := Scope.small_definitions sound otherStandard otherWaits otherRead
  have word : Renaming.none.word = id := rfl
  rw [Pairing.Copies, unnamed, word, Stmt.relabel_id, Stmt.moveLines_of_definitions _ _ none_,
    Stmt.moveLines_of_definitions _ _ otherNone] at copies
  exact copies

/-- The statement starts with a token that starts no compound statement, and neither with a decorator
nor with a mark of the layout. -/
theorem front (simple : SimpleStatement tokens stmt) (rest : List Token) :
    (Token.front (seen tokens ++ rest)).isText "@" = false ∧
      Grammar.statementRule? Grammar.standard.compound (Token.front (seen tokens ++ rest)) = none ∧
      (Token.front (seen tokens ++ rest)).kind ≠ .newline ∧
      (Token.front (seen tokens ++ rest)).kind ≠ .dedent ∧
      (Token.front (seen tokens ++ rest)).kind ≠ .endMarker := by
  obtain ⟨token, more, words⟩ := List.exists_cons_of_ne_nil simple.small_ok.1
  have member : token ∈ tokens := (List.mem_filter.1 (by rw [words]; exact List.mem_cons_self)).1
  have sign := simple.undecorated
  have compound := simple.simple
  rw [words] at sign compound
  obtain ⟨breaks, -, closes, ends⟩ := simple.inline token member
  rw [seen, words]
  exact ⟨sign, compound, breaks, closes, ends⟩

end SimpleStatement

/-- A token that the grammar looks at is seen. -/
theorem Outline.seen_cons {token : Token} {kind : Kind} (same : token.kind = kind)
    (shown : kind ≠ .comment ∧ kind ≠ .softBreak) (rest : List Token) :
    seen (token :: rest) = token.bare :: seen rest := by
  simp [seen, Token.isSignificant, same, shown]

section lines

variable {breadth depth turns : Nat} {pieces : List (List Token)} {stmts : List Stmt}
  {tail lines : List Token} {newline : Token}

/-- Behind a statement there is a semicolon or the end of the line. -/
theorem Joined.stops (joined : Joined pieces tail) (breaks : newline.kind = .newline)
    (rest : List Token) : ∃ stop after, seen tail ++ newline :: rest = stop :: after ∧
      (stop.kind = .newline ∨ stop.kind = .operator ∧ stop.value = ";") := by
  cases joined with
  | done => exact ⟨newline, rest, rfl, .inl breaks⟩
  | @closed semicolon kind text =>
    have shown : seen [semicolon] = [semicolon.bare] := seen_cons kind (by decide) []
    exact ⟨semicolon.bare, newline :: rest, by rw [shown]; rfl, .inr ⟨kind, text⟩⟩
  | @more semicolon tokens later _ kind text =>
    exact ⟨semicolon.bare, _, by rw [seen_cons kind (by decide)]; rfl, .inr ⟨kind, text⟩⟩

/-- Without a semicolon in front the line is done. -/
theorem Scope.smallTurn_done (scope : Scope) (body : List Stmt) {ahead : List Token}
    (other : (Token.front ahead).isText ";" = false) :
    (scope.smallTurn body).Gives ahead (.done body) ahead := by
  rw [smallTurn]
  exact .bind (.eat_other other) fun _ => .pure _ ahead

/-- Behind a semicolon the line may end. -/
theorem Scope.smallTurn_closed (scope : Scope) (body : List Stmt) {semicolon : Token}
    {ahead : List Token} (written : semicolon.isText ";" = true)
    (breaks : (Token.front ahead).kind = .newline) :
    (scope.smallTurn body).Gives (semicolon :: ahead) (.done body) ahead := by
  rw [smallTurn]
  refine .bind (.eat written) fun _ => ?_
  refine .bind (.checkKind .newline ahead) fun _ => .bind (.checkKind .endMarker ahead) fun _ => ?_
  rw [decide_eq_true breaks]
  exact .pure _ ahead

/-- Behind a semicolon a further statement is read. -/
theorem Scope.smallTurn_more (scope : Scope) (body : List Stmt) {semicolon : Token}
    {ahead rest : List Token} {stmt : Stmt} (written : semicolon.isText ";" = true)
    (inline : (Token.front ahead).kind ≠ .newline) (going : (Token.front ahead).kind ≠ .endMarker)
    (read : scope.small.GivesUndecorated ahead stmt rest) :
    (scope.smallTurn body).GivesUndecorated (semicolon :: ahead) (.again (body ++ [stmt])) rest := by
  rw [smallTurn]
  refine (Gives.eat written).undecorated.bind fun _ => ?_
  refine (Gives.checkKind .newline ahead).undecorated.bind fun _ => ?_
  refine (Gives.checkKind .endMarker ahead).undecorated.bind fun _ => ?_
  rw [decide_eq_false inline, decide_eq_false going]
  exact read.bind fun _ => (Gives.pure _ rest).undecorated

/-- The rest of a line is read as its statements. -/
theorem Joined.loop (joined : Joined pieces tail) (simple : List.Forall₂ SimpleStatement pieces stmts)
    (breaks : newline.kind = .newline) (rest : List Token) (body : List Stmt)
    (deep : (seen tail).length < breadth) (enough : (seen tail).length < turns) :
    (Parse.loop (Scope.within breadth depth).smallTurn turns body).GivesUndecorated
      (seen tail ++ newline :: rest) (body ++ stmts) (newline :: rest) := by
  obtain ⟨fewer, rfl⟩ := Nat.exists_eq_add_one_of_ne_zero (Nat.ne_zero_of_lt enough)
  induction joined generalizing stmts fewer body with
  | done =>
    cases simple
    rw [List.append_nil]
    refine (Gives.done (Scope.smallTurn_done _ body ?_)).undecorated
    simp [seen, Token.front, Token.isText, breaks]
  | @closed semicolon kind text =>
    cases simple
    have shown : seen [semicolon] = [semicolon.bare] := seen_cons kind (by decide) []
    have written : semicolon.bare.isText ";" = true := by simp [Token.isText, Token.bare, kind, text]
    have ends : (Token.front (newline :: rest)).kind = .newline := breaks
    rw [List.append_nil, shown]
    exact (Gives.done (Scope.smallTurn_closed _ body written ends)).undecorated
  | @more semicolon tokens tail pieces kind text later ih =>
    cases simple with
    | @cons _ stmt _ stmts here simple =>
    have shown : seen (semicolon :: (tokens ++ tail)) =
        semicolon.bare :: (seen tokens ++ seen tail) := by
      rw [seen_cons kind (by decide), seen_append]
    have written : semicolon.bare.isText ";" = true := by simp [Token.isText, Token.bare, kind, text]
    simp only [shown, List.length_cons, List.length_append] at deep enough
    obtain ⟨fewer, rfl⟩ := Nat.exists_eq_add_one_of_ne_zero (show fewer ≠ 0 by omega)
    obtain ⟨stop, after, split, stops⟩ := later.stops breaks rest
    obtain ⟨-, -, inline, -, going⟩ := here.front (seen tail ++ newline :: rest)
    have small : (Scope.within breadth depth).small.GivesUndecorated
        (seen tokens ++ (seen tail ++ newline :: rest)) stmt (seen tail ++ newline :: rest) := by
      rw [split]
      exact here.gives stops (by omega)
    have others := ih simple (body ++ [stmt]) (by omega) fewer (by omega)
    rw [List.append_assoc] at others
    rw [shown, List.cons_append, List.append_assoc]
    exact .again (Scope.smallTurn_more _ body written inline going small) others

/-- A line of statements between semicolons is read as the statements. -/
theorem Joined.gives {first : List Token} (joined : Joined pieces tail)
    (simple : List.Forall₂ SimpleStatement (first :: pieces) stmts)
    (breaks : newline.kind = .newline) (rest : List Token)
    (deep : (seen (first ++ tail)).length < breadth) :
    (Scope.within breadth depth).simpleLine.GivesUndecorated
      (seen (first ++ tail) ++ newline :: rest) stmts rest := by
  cases simple with
  | @cons _ stmt _ stmts here simple =>
  rw [seen_append, List.length_append] at deep
  obtain ⟨stop, after, split, stops⟩ := joined.stops breaks rest
  have small : (Scope.within breadth depth).small.GivesUndecorated
      (seen first ++ (seen tail ++ newline :: rest)) stmt (seen tail ++ newline :: rest) := by
    rw [split]
    exact here.gives stops (by omega)
  rw [Scope.simpleLine_eq, seen_append, List.append_assoc]
  refine small.bind fun _ => ?_
  refine (joined.loop simple breaks rest [stmt] (by omega) ?_).bind fun _ => ?_
  · show _ < breadth
    omega
  · exact (Gives.expectKind_bind breaks fun _ => .pure _ rest).undecorated

/-- Statements on lines of their own are read line by line. -/
theorem Separate.loop {turn : List Stmt → Parse (Turn (List Stmt) (List Stmt))}
    {last behind : List Token} (separate : Separate pieces lines)
    (simple : List.Forall₂ SimpleStatement pieces stmts)
    (reads : ReadsLines (Scope.within breadth depth).statementLine turn last behind)
    (body : List Stmt) (deep : (seen lines).length < breadth)
    (enough : (seen lines).length < turns) :
    (Parse.loop turn turns body).GivesUndecorated (seen lines ++ last) (body ++ stmts) behind := by
  obtain ⟨fewer, rfl⟩ := Nat.exists_eq_add_one_of_ne_zero (Nat.ne_zero_of_lt enough)
  induction separate generalizing stmts fewer body with
  | done =>
    cases simple
    rw [List.append_nil]
    exact (reads.done body).bind fun _ => (Gives.pure _ behind).undecorated
  | @line newline tokens rest pieces kind later ih =>
    cases simple with
    | @cons _ stmt _ stmts here simple =>
    have shown : seen (tokens ++ newline :: rest) = seen tokens ++ newline.bare :: seen rest := by
      rw [seen_append, seen_cons kind (by decide)]
    simp only [shown, List.length_cons, List.length_append] at deep enough
    obtain ⟨fewer, rfl⟩ := Nat.exists_eq_add_one_of_ne_zero (show fewer ≠ 0 by omega)
    obtain ⟨sign, compound, -, closes, going⟩ := here.front (newline.bare :: (seen rest ++ last))
    have line : (Scope.within breadth depth).simpleLine.GivesUndecorated
        (seen tokens ++ newline.bare :: (seen rest ++ last)) [stmt] (seen rest ++ last) := by
      have ends : newline.bare.kind = .newline := kind
      rw [← List.append_nil tokens]
      refine Joined.done.gives ?_ ends (seen rest ++ last) ?_
      · exact .cons here .nil
      · rw [List.append_nil]
        omega
    have others := ih simple (body ++ [stmt]) (by omega) fewer (by omega)
    rw [List.append_assoc] at others
    rw [shown, List.append_assoc, List.cons_append]
    have bounded : 0 < (Scope.within breadth depth).inner.bound := Nat.zero_lt_of_lt deep
    exact .again (reads.again closes going (gives_simple bounded sign compound line)) others

end lines

/-- What is left is the end of the tokens behind those that are read. -/
theorem Parse.GivesUndecorated.exact_rest {α : Type} {parser : Parse α} {value : α}
    {state : State} {words rest : List Token}
    (gives : parser.GivesUndecorated (words.map Token.bare ++ rest.map Token.bare) value
      (rest.map Token.bare))
    (passes : ∀ state out behind, state.grammar = .standard → parser state = .ok out behind →
      state.Passes behind)
    (standard : state.grammar = .standard) (healthy : state.failure = none)
    (undecorated : state.decorators = []) (ahead : state.ahead = words ++ rest) :
    ∃ line, parser state = .ok value { state with ahead := rest, line } := by
  obtain ⟨line, left, same, -, read⟩ := gives state standard healthy undecorated
    (by rw [ahead, List.map_append])
  have within := (passes state value _ standard read).suffix
  rw [ahead] at within
  have length : left.length = rest.length := by
    rw [← List.length_map (f := Token.bare), same, List.length_map]
  obtain rfl := (List.suffix_of_suffix_length_le within (List.suffix_append words rest)
    (Nat.le_of_eq length)).eq_of_length length
  exact ⟨line, read⟩

section bodies

variable {breadth depth : Nat} {pieces : List (List Token)} {stmts : List Stmt} {first : List Token}
  {tail lines rest : List Token} {newline ending : Token}

/-- A line of statements and an end mark are read as the statements of a module. -/
theorem Joined.module (joined : Joined pieces tail)
    (simple : List.Forall₂ SimpleStatement (first :: pieces) stmts)
    (breaks : newline.kind = .newline) (ends : ending.kind = .endMarker)
    (deep : (seen (first ++ tail)).length + 1 < depth) :
    (moduleBody (.upTo depth)).GivesUndecorated (seen (first ++ tail) ++ [newline, ending]) stmts
      [ending] := by
  obtain ⟨fewer, rfl⟩ := Nat.exists_eq_add_of_le' (show 2 ≤ depth by omega)
  have reads := readsLines_of_endMarker (.upTo (fewer + 2)) ends
  have line : (Scope.upTo (fewer + 2)).simpleLine.GivesUndecorated
      (seen (first ++ tail) ++ [newline, ending]) stmts [ending] :=
    joined.gives simple breaks [ending] (Nat.lt_of_succ_lt deep)
  cases simple with
  | cons here later =>
    obtain ⟨sign, compound, -, closes, going⟩ := here.front (seen tail ++ [newline, ending])
    rw [← List.append_assoc, ← seen_append] at sign compound closes going
    have statement := gives_simple (Nat.zero_lt_succ _) sign compound line
    refine .again (reads.again closes going statement) ?_
    exact (reads.done _).bind fun _ => (Gives.pure _ [ending]).undecorated

/-- Statements on lines of their own and an end mark are read as the statements of a module. -/
theorem Separate.module (separate : Separate pieces lines)
    (simple : List.Forall₂ SimpleStatement pieces stmts) (ends : ending.kind = .endMarker)
    (deep : (seen lines).length < depth) :
    (moduleBody (.upTo depth)).GivesUndecorated (seen lines ++ [ending]) stmts [ending] :=
  separate.loop simple (readsLines_of_endMarker (.upTo depth) ends) [] deep deep

/-- Tokens are parsed as a module of the statements that are read from them. -/
theorem parseTokens_of_moduleBody {tokens : List Token}
    (body : ∀ depth, (seen tokens).length < depth →
      (moduleBody (.upTo depth)).GivesUndecorated (seen tokens) stmts rest)
    (file : Option String) : parseTokens tokens file .exec = .ok (.module stmts) := by
  have whole : (Scope.run moduleBody).GivesUndecorated (seen tokens) stmts rest := .run body
  have read : (parseRoot .exec).GivesUndecorated (seen tokens) (.module stmts) rest :=
    whole.bind fun _ => (Gives.pure _ rest).undecorated
  exact parseTokens_of_undecorated read

/-- Statements on the rest of the line are read as a block. -/
theorem Joined.suite (joined : Joined pieces tail)
    (simple : List.Forall₂ SimpleStatement (first :: pieces) stmts)
    (breaks : newline.kind = .newline) (deep : (seen (first ++ tail)).length < depth) :
    (Scope.within breadth depth).suite.GivesUndecorated (seen (first ++ tail) ++ newline :: rest)
      stmts rest := by
  obtain ⟨fewer, rfl⟩ := Nat.exists_eq_add_one_of_ne_zero (Nat.ne_zero_of_lt deep)
  have inline : (Token.front (seen (first ++ tail) ++ newline :: rest)).kind ≠ .newline := by
    cases simple with
    | cons here later =>
      rw [seen_append, List.append_assoc]
      exact (here.front _).2.2.1
  refine (Gives.eatKind_other inline).undecorated.bind fun _ => ?_
  show (Scope.within breadth (fewer + 1)).line.GivesUndecorated _ stmts rest
  rw [Scope.within_line]
  exact joined.gives simple breaks rest deep

/-- Statements on lines of their own, with an indent before and a dedent behind them, are read as a
block. -/
theorem Separate.suite (separate : Separate pieces lines)
    (simple : List.Forall₂ SimpleStatement pieces stmts) {indent dedent : Token}
    (breaks : newline.kind = .newline) (opens : indent.kind = .indent)
    (closes : dedent.kind = .dedent) (wide : (seen lines).length < breadth)
    (deep : (seen lines).length < depth) :
    (Scope.within breadth depth).suite.GivesUndecorated
      (newline :: indent :: (seen lines ++ dedent :: rest)) stmts rest := by
  obtain ⟨fewer, rfl⟩ := Nat.exists_eq_add_one_of_ne_zero (Nat.ne_zero_of_lt deep)
  have reads : ReadsLines (Scope.within (fewer + 1) fewer).statementLine
      (Scope.within breadth (fewer + 1)).blockTurn (dedent :: rest) rest := by
    rw [← Scope.within_statement breadth]
    exact Scope.blockTurn_readsLines _ closes rest
  have taken : (eatKind .newline).Gives (newline :: indent :: (seen lines ++ dedent :: rest)) true
      (indent :: (seen lines ++ dedent :: rest)) := .eatKind breaks (by decide)
  refine taken.undecorated.bind fun _ => ?_
  refine .drop_bind (.expectKind_bind opens fun _ => .pure () _) ?_
  exact separate.loop simple reads [] deep wide

end bodies

/-- Statement layouts are equivalent. Simple statements on one line between semicolons, with or
without a semicolon before the end of the line, are parsed as a module of just these statements, as
they are on lines of their own. Where a block is read, from any state behind the colon of a compound
statement and with any bounds that allow for the tokens in front, the line and an indented block of
the lines give the same body, and what is behind them is left. -/
theorem statement_layouts_agree {first : List Token} {pieces : List (List Token)}
    {stmts : List Stmt} (simple : List.Forall₂ SimpleStatement (first :: pieces) stmts)
    {tail lines : List Token} (joined : Joined pieces tail)
    (separate : Separate (first :: pieces) lines) {newline indent dedent ending : Token}
    (breaks : newline.kind = .newline) (opens : indent.kind = .indent)
    (closes : dedent.kind = .dedent) (ends : ending.kind = .endMarker) :
    (∀ file, parseTokens (first ++ tail ++ [newline, ending]) file .exec = .ok (.module stmts) ∧
      parseTokens (lines ++ [ending]) file .exec = .ok (.module stmts)) ∧
    ∀ (breadth depth : Nat) (state : State) (rest : List Token), state.grammar = .standard →
      state.failure = none → state.decorators = [] → state.ahead.length ≤ breadth →
      state.ahead.length ≤ depth →
      (state.ahead = (first ++ tail ++ [newline]).filter Token.isSignificant ++ rest →
        ∃ line, (Scope.within breadth depth).suite state =
          .ok stmts { state with ahead := rest, line }) ∧
      (state.ahead = (newline :: indent :: (lines ++ [dedent])).filter Token.isSignificant ++ rest →
        ∃ line, (Scope.within breadth depth).suite state =
          .ok stmts { state with ahead := rest, line }) := by
  have line : seen [newline] = [newline.bare] := seen_cons breaks (by decide) []
  have mark : seen [ending] = [ending.bare] := seen_cons ends (by decide) []
  have passes (breadth depth : Nat) (state : State) (out : List Stmt) (behind : State)
      (standard : state.grammar = .standard)
      (read : (Scope.within breadth depth).suite state = .ok out behind) : state.Passes behind :=
    ((Scope.suite_closing (Scope.mirrors_within Frame.whole breadth depth) state
      standard).mirrors.passes read).1
  refine ⟨fun file => ⟨?_, ?_⟩, fun breadth depth state rest standard healthy undecorated wide deep =>
    ⟨fun ahead => ?_, fun ahead => ?_⟩⟩
  · have split : seen (first ++ tail ++ [newline, ending]) =
        seen (first ++ tail) ++ [newline.bare, ending.bare] := by
      rw [seen_append, seen_cons breaks (by decide), mark]
    have body (depth : Nat) (deep : (seen (first ++ tail ++ [newline, ending])).length < depth) :
        (moduleBody (.upTo depth)).GivesUndecorated (seen (first ++ tail ++ [newline, ending])) stmts
          [ending.bare] := by
      rw [split, List.length_append] at deep
      rw [split]
      exact joined.module simple breaks ends (Nat.lt_of_succ_lt deep)
    exact parseTokens_of_moduleBody body file
  · have body (depth : Nat) (deep : (seen (lines ++ [ending])).length < depth) :
        (moduleBody (.upTo depth)).GivesUndecorated (seen (lines ++ [ending])) stmts
          [ending.bare] := by
      rw [seen_append, List.length_append] at deep
      rw [seen_append, mark]
      exact separate.module simple ends (by omega)
    exact parseTokens_of_moduleBody body file
  · have length : state.ahead.length = (seen (first ++ tail)).length + 1 + rest.length := by
      have split := congrArg List.length (seen_append (first ++ tail) [newline])
      rw [line, seen, List.length_map, List.length_append] at split
      rw [ahead, List.length_append, split]
      rfl
    have gives : (Scope.within breadth depth).suite.GivesUndecorated
        (seen (first ++ tail ++ [newline]) ++ rest.map Token.bare) stmts (rest.map Token.bare) := by
      rw [seen_append, line, List.append_assoc]
      exact joined.suite simple breaks (by omega)
    exact gives.exact_rest (passes breadth depth) standard healthy undecorated ahead
  · have split : seen (newline :: indent :: (lines ++ [dedent])) =
        newline.bare :: indent.bare :: (seen lines ++ [dedent.bare]) := by
      rw [seen_cons breaks (by decide), seen_cons opens (by decide), seen_append,
        seen_cons closes (by decide)]
      rfl
    have length : state.ahead.length = (seen lines).length + 3 + rest.length := by
      have lengths := congrArg List.length split
      simp only [seen, List.length_map, List.length_cons, List.length_append] at lengths
      rw [ahead, List.length_append, lengths, seen, List.length_map]
      rfl
    have gives : (Scope.within breadth depth).suite.GivesUndecorated
        (seen (newline :: indent :: (lines ++ [dedent])) ++ rest.map Token.bare) stmts
        (rest.map Token.bare) := by
      rw [split, List.cons_append, List.cons_append, List.append_assoc]
      exact separate.suite simple breaks opens closes (by omega) (by omega)
    exact gives.exact_rest (passes breadth depth) standard healthy undecorated ahead

/-- An assignment behind a comment, and a return without a value before a last semicolon. -/
theorem statement_layouts_agree_of_return :
    List.Forall₂ SimpleStatement
      [[⟨.comment, "# c", 1, "# c"⟩, .word "x", .mark "=", .word "y"], [.word "return"]]
      [.assign [.name "x" .store] (.name "y" .load), .returnValue none] ∧
    Joined [[.word "return"]] [.mark ";", .word "return", .mark ";"] ∧
    Separate [[⟨.comment, "# c", 1, "# c"⟩, .word "x", .mark "=", .word "y"], [.word "return"]]
      [⟨.comment, "# c", 1, "# c"⟩, .word "x", .mark "=", .word "y", .lineEnd "\n", .word "return",
        .lineEnd ""] ∧
    parseTokens [⟨.comment, "# c", 1, "# c"⟩, .word "x", .mark "=", .word "y", .mark ";",
      .word "return", .mark ";", .lineEnd "", .endMarker 2] none .exec =
      .ok (.module [.assign [.name "x" .store] (.name "y" .load), .returnValue none]) ∧
    parseTokens [⟨.comment, "# c", 1, "# c"⟩, .word "x", .mark "=", .word "y", .lineEnd "\n",
      .word "return", .lineEnd "", .endMarker 2] none .exec =
      .ok (.module [.assign [.name "x" .store] (.name "y" .load), .returnValue none]) ∧
    (∃ line, (Scope.within 9 9).suite ⟨[.word "x", .mark "=", .word "y", .mark ";", .word "return",
      .mark ";", .lineEnd "", .word "z"], 1, none, unknownFile, .standard, []⟩ =
      .ok [.assign [.name "x" .store] (.name "y" .load), .returnValue none]
        ⟨[.word "z"], line, none, unknownFile, .standard, []⟩) ∧
    ∃ line, (Scope.within 10 10).suite ⟨[.lineEnd "", .opening " ", .word "x", .mark "=", .word "y",
      .lineEnd "\n", .word "return", .lineEnd "", .closing, .word "z"], 1, none, unknownFile,
        .standard, []⟩ =
      .ok [.assign [.name "x" .store] (.name "y" .load), .returnValue none]
        ⟨[.word "z"], line, none, unknownFile, .standard, []⟩ := by
  have first : SimpleStatement [⟨.comment, "# c", 1, "# c"⟩, .word "x", .mark "=", .word "y"]
      (.assign [.name "x" .store] (.name "y" .load)) :=
    ⟨by decide, by decide, by decide, by decide, .lineEnd "", .endMarker 2, none, rfl, rfl, by rfl⟩
  have second : SimpleStatement [.word "return"] (.returnValue none) :=
    ⟨by decide, by decide, by decide, by decide, .lineEnd "", .endMarker 2, none, rfl, rfl, by rfl⟩
  have simple := List.Forall₂.cons first (.cons second .nil)
  have joined : Joined [[.word "return"]] [.mark ";", .word "return", .mark ";"] :=
    @Joined.more (.mark ";") [.word "return"] _ _ rfl rfl (.closed rfl rfl)
  have separate : Separate [[⟨.comment, "# c", 1, "# c"⟩, .word "x", .mark "=", .word "y"],
      [.word "return"]] [⟨.comment, "# c", 1, "# c"⟩, .word "x", .mark "=", .word "y",
        .lineEnd "\n", .word "return", .lineEnd ""] :=
    @Separate.line (.lineEnd "\n") [⟨.comment, "# c", 1, "# c"⟩, .word "x", .mark "=", .word "y"] _ _
      rfl (@Separate.line (.lineEnd "") [.word "return"] _ _ rfl .done)
  obtain ⟨parsed, suite⟩ := statement_layouts_agree simple joined separate
    (show (Token.lineEnd "").kind = .newline from rfl) (show (Token.opening " ").kind = .indent from rfl)
    (show Token.closing.kind = .dedent from rfl) (show (Token.endMarker 2).kind = .endMarker from rfl)
  have line := (suite 9 9 ⟨[.word "x", .mark "=", .word "y", .mark ";", .word "return", .mark ";",
    .lineEnd "", .word "z"], 1, none, unknownFile, .standard, []⟩ [.word "z"] rfl rfl rfl (by decide)
    (by decide)).1 rfl
  have block := (suite 10 10 ⟨[.lineEnd "", .opening " ", .word "x", .mark "=", .word "y",
    .lineEnd "\n", .word "return", .lineEnd "", .closing, .word "z"], 1, none, unknownFile, .standard,
      []⟩ [.word "z"] rfl rfl rfl (by decide) (by decide)).2 rfl
  exact ⟨simple, joined, separate, (parsed none).1, (parsed none).2, line, block⟩

end Offside
