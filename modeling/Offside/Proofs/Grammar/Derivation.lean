import Offside.Proofs.Grammar.Statements
import Offside.Proofs.Layout.Tokens

/-!
# Parsed texts are derived

A source text that is parsed as a module or as an expression has been scanned to its end, and its
tokens derive the tree (`parse_derives`). A fault of the scan cannot be passed over, as the end
mark is not among the tokens before it.
-/
namespace Offside

open Text Lexeme

/-- Behind the tokens that symbols cover stands an end of the tokens. -/
theorem Derives.suffix {symbols : List Symbol} {dropped : List Expr} {ahead behind : List Token}
    (derives : Derives symbols dropped ahead behind) : behind <:+ ahead := by
  induction derives with
  | nil => exact List.suffix_refl _
  | terminal _ _ ih => exact ih.trans (List.suffix_cons _ _)
  | phrase _ _ _ inside rest => exact rest.trans inside
  | dropped _ ih => exact ih

/-- A terminal covers a token that it admits, and the symbols behind it cover the tokens behind. -/
theorem Derives.of_terminal {terminal : Terminal} {symbols : List Symbol} {dropped : List Expr}
    {ahead behind : List Token}
    (derives : Derives (.terminal terminal :: symbols) dropped ahead behind) :
    ∃ token later, ahead = token :: later ∧ Terminal.Admits token terminal ∧
      Derives symbols dropped later behind := by
  cases derives with
  | terminal admits rest => exact ⟨_, _, rfl, admits, rest⟩

/-- A phrase covers what one of its productions covers. -/
theorem Derives.of_phrase {phrase : Phrase} {dropped : List Expr} {ahead behind : List Token}
    (derives : Derives [.phrase phrase] dropped ahead behind) :
    ∃ body first, Production phrase body ∧ Derives body first ahead behind := by
  cases derives with
  | phrase production inside rest =>
    cases rest
    exact ⟨_, _, production, inside⟩

/-- All characters of a name may be part of one. -/
def Token.IsPlain (token : Token) : Prop :=
  token.kind = .name → ∀ c ∈ token.value.toList, isNamePart c = true

/-- Steps find plain names. -/
theorem Token.holdsOfSteps_isPlain : HoldsOfSteps Token.IsPlain where
  found := by
    intro cursor next depth deeper token _ _ step
    have finds := cursor.step_finds depth
    rw [step] at finds
    cases finds with
    | name starts =>
      intro _ c member
      simp only [Cursor.token, String.toList_ofList] at member
      exact List.mem_takeWhile_imp member
    | number | literal | comment | operator =>
      intro named
      contradiction
  layout := by
    intro token layout named
    rw [named] at layout
    contradiction

/-- The names of a source text are plain. -/
theorem Scanner.plain_of_tokenize {source : String} {file : Option String} {tokens : List Token}
    (found : tokenize source file = .ok tokens) : ∀ token ∈ tokens, token.IsPlain := by
  obtain ⟨point, run, ready, -⟩ := Scanner.run_of_tokenize found
  have plain := Token.holdsOfSteps_isPlain.run run
  rwa [ready, List.append_nil] at plain

/-- The state before the first token of a stream. A stream of a fault alone has none. -/
theorem State.start_ok {stream : Stream} {file : String} {state : State}
    (started : State.start stream file = .ok state) :
    state.ahead = stream.tokens.filter Token.isSignificant ∧ state.failure = stream.failure ∧
      state.grammar = .standard ∧ state.decorators = [] ∧
      (stream.failure ≠ none → state.ahead ≠ []) := by
  unfold State.start at started
  dsimp only at started
  split at started
  · contradiction
  · rename_i other
    obtain rfl := Except.ok.inj started
    refine ⟨rfl, rfl, rfl, rfl, fun faulty empty => ?_⟩
    obtain ⟨fault, same⟩ := Option.ne_none_iff_exists'.1 faulty
    exact other fault empty same

/-- What is parsed is read from the state before the first token of the stream. -/
theorem parseStream_ok {stream : Stream} {file : Option String} {mode : Mode} {root : Root}
    (parsed : parseStream stream file mode = .ok root) :
    ∃ state behind, State.start stream (file.getD unknownFile) = .ok state ∧
      parseRoot mode state = .ok root behind := by
  unfold parseStream at parsed
  cases started : State.start stream (file.getD unknownFile) with
  | error fault =>
    rw [started] at parsed
    contradiction
  | ok state =>
    rw [started] at parsed
    cases read : parseRoot mode state with
    | ok found behind =>
      simp only [bind, Except.bind, EStateM.run, read] at parsed
      obtain rfl := Except.ok.inj parsed
      exact ⟨state, behind, rfl, read⟩
    | error fault behind =>
      simp only [bind, Except.bind, EStateM.run, read] at parsed
      contradiction

/-- What is not parsed fails before the first token of the stream or from the state there. -/
theorem parseStream_fails {stream : Stream} {file : Option String} {mode : Mode} {fault : Fault}
    (failed : parseStream stream file mode = .error fault) :
    State.start stream (file.getD unknownFile) = .error fault ∨
      ∃ state behind, State.start stream (file.getD unknownFile) = .ok state ∧
        parseRoot mode state = .error fault behind := by
  unfold parseStream at failed
  cases started : State.start stream (file.getD unknownFile) with
  | error first =>
    rw [started] at failed
    exact .inl (congrArg Except.error (Except.error.inj failed))
  | ok state =>
    rw [started] at failed
    cases read : parseRoot mode state with
    | ok root behind =>
      simp only [bind, Except.bind, EStateM.run, read] at failed
      contradiction
    | error first behind =>
      simp only [bind, Except.bind, EStateM.run, read] at failed
      obtain rfl := Except.error.inj failed
      exact .inr ⟨state, behind, rfl, read⟩

/-- A stream that is parsed, as something else than one statement line, is read up to an end
mark. -/
theorem parseStream_moves {stream : Stream} {file : Option String} {mode : Mode} {root : Root}
    (whole : mode ≠ .single) (parsed : parseStream stream file mode = .ok root) :
    ∃ state between, State.start stream (file.getD unknownFile) = .ok state ∧
      State.Moves [.phrase (.root root)] state between ∧ between.current.kind = .endMarker := by
  obtain ⟨state, behind, started, read⟩ := parseStream_ok parsed
  obtain ⟨-, -, standard, waits, -⟩ := State.start_ok started
  obtain ⟨between, moves, mark⟩ := parseRoot_moves whole standard waits read
  exact ⟨state, between, started, moves, mark⟩

/-- An end of tokens that starts with an end mark is that mark, if only the last of them is
one. -/
theorem singleton_of_suffix {token last : Token} {rest front : List Token}
    (within : token :: rest <:+ front ++ [last]) (mark : token.kind = .endMarker)
    (unmarked : ∀ token ∈ front, token.kind ≠ .endMarker) : rest = [] := by
  obtain ⟨before, same⟩ := within
  rcases List.eq_nil_or_concat rest with empty | ⟨more, final, rfl⟩
  · exact empty
  · have split : before ++ token :: more = front ∧ [final] = [last] :=
      List.append_inj' (by simpa using same) rfl
    refine absurd mark (unmarked token ?_)
    rw [← split.1]
    exact List.mem_append_right before List.mem_cons_self

/-- A source text that is parsed, as something else than one statement line, is scanned to its
end, and its tokens derive the tree. -/
theorem parse_derives {source : String} {file : Option String} {mode : Mode} {root : Root}
    (whole : mode ≠ .single) (parsed : parse source file mode = .ok root) :
    ∃ tokens, tokenize source file = .ok tokens ∧ ∃ dropped, root.DerivesFrom tokens dropped := by
  obtain ⟨state, between, started, moves, mark⟩ := parseStream_moves whole parsed
  obtain ⟨ahead, failure, -, -, nonempty⟩ := State.start_ok started
  obtain ⟨dropped, derives⟩ := moves.covers
  have within := derives.suffix
  obtain ⟨run, ready, finished⟩ := Scanner.run_complete (physicalLines source) file
  rw [Stream.ofSource, Stream.ofLines] at ahead failure nonempty
  unfold tokenize Stream.toExcept
  rw [Stream.ofSource, Stream.ofLines]
  generalize (Scanner.start (physicalLines source) file).run = outcome at *
  obtain ⟨⟨tokens, fault?⟩, point⟩ := outcome
  rw [State.current] at mark
  cases fault? with
  | some fault =>
    -- No token before the fault is an end mark, but the one in front at the end is.
    obtain ⟨before, _, earlier, bare, going, -, -⟩ := run.of_fault
    have unmarked := (earlier.keeps.going going).2.2
    rw [bare, List.append_nil] at unmarked
    have left := moves.guarded (by rw [failure]; simp) (nonempty (by simp))
    obtain ⟨token, rest, front⟩ := List.exists_cons_of_ne_nil left
    rw [front, ahead] at within
    rw [front] at mark
    have member := within.subset List.mem_cons_self
    exact absurd mark (unmarked token (List.mem_filter.1 member).1)
  | none =>
    have kept := run.keeps
    rw [ready, List.append_nil] at kept
    obtain ⟨front, last, same, ends, unmarked⟩ := (kept.wellLaidOut finished).ended
    refine ⟨tokens, rfl, dropped, between.ahead, ahead ▸ derives, ?_⟩
    cases left : between.ahead with
    | nil => exact fun token member => absurd member List.not_mem_nil
    | cons token rest =>
      rw [left] at within mark
      have significant : last.isSignificant = true := by simp [Token.isSignificant, ends]
      rw [ahead, same, List.filter_append, List.filter_singleton, significant] at within
      have alone := singleton_of_suffix within mark fun token member =>
        unmarked token (List.mem_filter.1 member).1
      rw [alone]
      exact fun found member => List.mem_singleton.1 member ▸ mark

end Offside
