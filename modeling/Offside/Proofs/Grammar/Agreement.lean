import Offside.Proofs.Grammar.Derivation
import Offside.Proofs.Grammar.MirrorStatements
import Offside.Proofs.Layout.Places

/-!
# Faults of parsing

A fault of parsing is the one with which the scan ended, or it stands at a token that was made
before (`parseStream_error`). Such a token is above the fault of the scan, and no text is parsed
over a fault, unless it is read as one statement line. So the fault of a scan is never passed over,
and a text whose scan succeeds is parsed as its tokens are (`parse_agrees`).
-/
namespace Offside

open Parse Text

/-- No seam, and all lines stay where they are. -/
def Frame.whole : Frame := ⟨id, [], []⟩

variable {frame : Frame}

/-- The statements of a module are the same on both sides up to their lines. -/
theorem moduleBody_mirrors {scope other : Scope} (alike : scope.Mirrors frame other) :
    (moduleBody scope).Mirrors frame false frame.MovedBody (moduleBody other) := by
  refine .loop_of frame.MovedBody frame.MovedBody (fun body otherBody moved => ?_)
    alike.inner.bound rfl
  refine .checkKind fun ended => .ite (fun _ => .pure (.done moved)) fun _ => ?_
  exact (Scope.statementLine_closing alike).mirrors.within.bind fun more otherMore fits =>
    .pure (.again (moved.append fits))

/-- A whole expression is the same on both sides. -/
theorem wholeExpression_mirrors {inner other : Inner} (alike : inner.Mirrors frame other) :
    (wholeExpression inner).Mirrors frame false Eq (wholeExpression other) := by
  refine (Inner.expr_mirrors alike _).bind_eq fun body => ?_
  refine Mirrors.bind_eq (.loop (fun _ => ?_) alike.bound _) fun _ => ?_
  · exact .eatKind (by decide) (.pure rfl) (.pure rfl)
  · exact .expectKind fun _ _ => .pure rfl

/-- A fault of parsing is the one that waits, or it is at the token in front of a state that is
reached. -/
theorem parseRoot_blames {mode : Mode} {state behind : State} {fault : Fault}
    (standard : state.grammar = .standard) (failed : parseRoot mode state = .error fault behind) :
    state.Blames fault := by
  have scope : (Scope.upTo state.bound).Mirrors Frame.whole (Scope.upTo state.bound) :=
    Scope.mirrors_upTo (Nat.le_refl _)
  cases mode with
  | exec =>
    rcases bind_error failed with failed | ⟨body, between, -, failed⟩
    · exact (moduleBody_mirrors scope state standard).blames failed
    · contradiction
  | eval =>
    rcases bind_error failed with failed | ⟨body, between, -, failed⟩
    · exact (wholeExpression_mirrors scope.inner state standard).blames failed
    · contradiction
  | single =>
    rcases bind_error failed with failed | ⟨body, between, -, failed⟩
    · exact (Scope.statementLine_closing scope state standard).mirrors.blames failed
    · contradiction

/-- Parsing does not start if the scan has made no token. -/
theorem State.start_error {stream : Stream} {file : String} {fault : Fault}
    (failed : State.start stream file = .error fault) : stream.failure = some fault := by
  unfold State.start at failed
  dsimp only at failed
  split at failed
  · rename_i waits
    obtain rfl := Except.error.inj failed
    exact waits
  · contradiction

/-- A fault of parsing tokens in front of a fault is that fault, or it is at one of the tokens. -/
theorem parseStream_error {stream : Stream} {file : Option String} {mode : Mode}
    {fault found : Fault} (waits : stream.failure = some fault)
    (failed : parseStream stream file mode = .error found) :
    found = fault ∨ ∃ token ∈ stream.tokens, found.position.line = token.line := by
  rcases parseStream_fails failed with started | ⟨state, behind, started, read⟩
  · exact .inl (Option.some.inj ((State.start_error started).symm.trans waits))
  · obtain ⟨ahead, failure, standard, -, nonempty⟩ := State.start_ok started
    rw [waits] at failure nonempty
    rcases parseRoot_blames standard read with same | ⟨between, passes, place⟩
    · exact .inl (Option.some.inj (same.symm.trans failure))
    · have left := passes.guarded (by simp [failure]) (nonempty (by simp))
      obtain ⟨token, rest, front⟩ := List.exists_cons_of_ne_nil left
      have member : token ∈ state.ahead := passes.suffix.subset (by simp [front])
      rw [ahead] at member
      refine .inr ⟨token, (List.mem_filter.1 member).1, ?_⟩
      rw [place, State.position, State.current, front]
      rfl

/-- A stream that ends without a fault is the stream of its tokens. -/
theorem Stream.toExcept_ok {stream : Stream} {tokens : List Token}
    (scanned : stream.toExcept = .ok tokens) : stream = .ofTokens tokens := by
  obtain ⟨found, failure⟩ := stream
  cases failure with
  | none => rw [← Except.ok.inj scanned, Stream.ofTokens]
  | some fault => contradiction

/-- A stream that ends with a fault holds it. -/
theorem Stream.toExcept_error {stream : Stream} {fault : Fault}
    (scanned : stream.toExcept = .error fault) : stream.failure = some fault := by
  obtain ⟨found, failure⟩ := stream
  cases failure with
  | none => contradiction
  | some other => rw [← Except.error.inj scanned]

/-- The tokens of a source text stand above the fault with which the scan ends. -/
theorem Stream.ofSource_above_fault {source : String} {file : Option String} {fault : Fault}
    (waits : (Stream.ofSource source file).failure = some fault) :
    ∀ token ∈ (Stream.ofSource source file).tokens, token.line < fault.position.line := by
  obtain ⟨run, -, -⟩ := Scanner.run_complete (physicalLines source) file
  rw [Stream.ofSource, Stream.ofLines] at waits ⊢
  generalize (Scanner.start (physicalLines source) file).run = outcome at run waits ⊢
  obtain ⟨⟨tokens, failure⟩, point⟩ := outcome
  obtain rfl : failure = some fault := waits
  exact run.above_fault

/-- A source text is parsed as the tokens that its scan hands out one by one. If the scan succeeds,
parsing the text gives what parsing its tokens gives. If the scan ends with a fault, parsing the
text as a module or as an expression fails: with that fault, or with one on a line above it. -/
theorem parse_agrees (source : String) (file : Option String) (mode : Mode) :
    (∃ stream point, Scanner.Run (Scanner.start (physicalLines source) file) stream point ∧
      point.next = (none, point) ∧ parse source file mode = parseStream stream file mode) ∧
    (∀ tokens, tokenize source file = .ok tokens →
      parse source file mode = parseTokens tokens file mode) ∧
    (∀ fault, tokenize source file = .error fault → mode ≠ .single →
      ∃ found, parse source file mode = .error found ∧
        (found = fault ∨ found.position.line < fault.position.line)) := by
  obtain ⟨run, ready, finished⟩ := Scanner.run_complete (physicalLines source) file
  refine ⟨⟨_, _, run, Scanner.next_of_finished ready finished, rfl⟩, ?_, ?_⟩
  · intro tokens scanned
    rw [parse, parseTokens, Stream.toExcept_ok scanned]
  · intro fault scanned whole
    cases parsed : parse source file mode with
    | ok root =>
      obtain ⟨tokens, complete, -⟩ := parse_derives whole parsed
      rw [scanned] at complete
      contradiction
    | error found =>
      refine ⟨found, rfl, ?_⟩
      have waits := Stream.toExcept_error scanned
      rcases parseStream_error waits parsed with same | ⟨token, member, place⟩
      · exact .inl same
      · exact .inr (place ▸ Stream.ofSource_above_fault waits token member)

/-- A text with a literal that does not end, below a line that is no statement, and a text without
faults. -/
theorem parse_agrees_of_fault :
    (∃ tokens, tokenize "x = 1\n" none = .ok tokens ∧
      parse "x = 1\n" none .exec = parseTokens tokens none .exec) ∧
    ∃ fault, tokenize "x y\n'" none = .error fault ∧ ∃ found,
      parse "x y\n'" none .exec = .error found ∧
        (found = fault ∨ found.position.line < fault.position.line) := by
  have accepted : (tokenize "x = 1\n" none).toBool = true := by decide +kernel
  have refused : (tokenize "x y\n'" none).toBool = false := by decide +kernel
  constructor
  · cases scanned : tokenize "x = 1\n" none with
    | error fault =>
      rw [scanned] at accepted
      contradiction
    | ok tokens => exact ⟨tokens, rfl, (parse_agrees _ _ _).2.1 tokens scanned⟩
  · cases scanned : tokenize "x y\n'" none with
    | ok tokens =>
      rw [scanned] at refused
      contradiction
    | error fault => exact ⟨fault, rfl, (parse_agrees _ _ .exec).2.2 fault scanned (by decide)⟩

end Offside
