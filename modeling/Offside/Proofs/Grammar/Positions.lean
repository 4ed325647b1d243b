import Offside.Proofs.Grammar.Agreement
import Offside.Proofs.Layout.Excerpts

/-!
# Positions of faults

A fault of the scan is met on a line of the source text. A fault of parsing is that one, or it is at
the token in front of a state that is reached: on the line of one of the tokens, or on the first
line (`parseStream_error_line`). So a fault is on a line of the text, which a report shows between
gutters and above a row of carets (`positions_truthful`).
-/
namespace Offside

open Parse Text

/-- Parsing starts on the first line. -/
theorem State.start_line {stream : Stream} {file : String} {state : State}
    (started : State.start stream file = .ok state) : state.line = 1 := by
  unfold State.start at started
  dsimp only at started
  split at started
  · contradiction
  · obtain rfl := Except.ok.inj started
    rfl

/-- A fault of parsing is the one behind the tokens, or it is on the line of a token or on the first
line. -/
theorem parseStream_error_line {stream : Stream} {file : Option String} {mode : Mode}
    {fault : Fault} (failed : parseStream stream file mode = .error fault) :
    stream.failure = some fault ∨ fault.position.line = 1 ∨
      ∃ token ∈ stream.tokens, fault.position.line = token.line := by
  rcases parseStream_fails failed with started | ⟨state, behind, started, read⟩
  · exact .inl (State.start_error started)
  obtain ⟨ahead, failure, standard, -, -⟩ := State.start_ok started
  have initial := State.start_line started
  have member {token : Token} (front : token ∈ state.ahead) : token ∈ stream.tokens :=
    List.mem_of_mem_filter (ahead ▸ front)
  rcases parseRoot_blames standard read with waits | ⟨between, passes, place⟩
  · exact .inl (failure.symm.trans waits)
  refine .inr ?_
  rw [place, State.position, State.current]
  cases front : between.ahead with
  | nil =>
    rcases passes.line with same | ⟨token, inside, same⟩
    · exact .inl (same.trans initial)
    · exact .inr ⟨token, member inside, same⟩
  | cons token rest =>
    have inside : token ∈ state.ahead := passes.suffix.subset (front ▸ List.mem_cons_self)
    exact .inr ⟨token, member inside, rfl⟩

/-- A fault is on a line of a source text, and its report shows this line between gutters, with a
row of carets under it. -/
structure Fault.Shown (source : String) (fault : Fault) : Prop where
  /-- Lines are counted from one. -/
  first : 1 ≤ fault.position.line
  /-- The text has the line. -/
  last : fault.position.line ≤ (physicalLines source).length
  /-- The report ends with what it shows of the line. -/
  shown : ∃ text excerpt, LineOf source fault.position.line text ∧
    fault.report source = fault.headline ++ excerpt ∧ Excerpt fault.position.line text excerpt

/-- The report of a fault shows each line that the source text has. -/
theorem Fault.shown_of_line {source : String} {fault : Fault} (first : 1 ≤ fault.position.line)
    (last : fault.position.line ≤ (physicalLines source).length) : fault.Shown source := by
  obtain ⟨text, stands⟩ := LineOf.exists_text first last
  obtain ⟨excerpt, ends, shows⟩ := Fault.report_of_line stands
  exact ⟨first, last, text, excerpt, stands, ends, shows⟩

/-- The tokens of a text that is not empty stand on its lines, and so does the fault behind them. -/
theorem Stream.ofSource_lines {source : String} (some_ : source ≠ "") (file : Option String) :
    (∀ token ∈ (Stream.ofSource source file).tokens,
      1 ≤ token.line ∧ token.line ≤ (physicalLines source).length) ∧
    ∀ fault, (Stream.ofSource source file).failure = some fault → fault.Shown source := by
  have filled := physicalLines_pos some_
  cases scanned : tokenize source file with
  | ok tokens =>
    obtain ⟨made, indents, rfl, -, stands⟩ := tokenize_lines scanned
    have same := Stream.toExcept_ok scanned
    rw [same]
    refine ⟨List.forall_mem_append.2 ⟨fun token member => ?_, fun token member => ?_⟩, ?_⟩
    · exact ⟨(stands token member).first, (stands token member).last⟩
    · rw [Spot.closing_line token member]
      exact ⟨filled, Nat.le_refl _⟩
    · intro fault waits
      contradiction
  | error fault =>
    have waits := Stream.toExcept_error scanned
    obtain ⟨run, -, -⟩ := Scanner.run_complete (physicalLines source) file
    rw [Stream.ofSource, Stream.ofLines] at waits ⊢
    generalize (Scanner.start (physicalLines source) file).run = outcome at run waits ⊢
    obtain ⟨⟨tokens, failure⟩, point⟩ := outcome
    obtain rfl : failure = some fault := waits
    obtain ⟨⟨line, within, place⟩, stands⟩ := run.fault_reads
    refine ⟨fun token member => ?_, fun other same => ?_⟩
    · obtain ⟨line, within, place, -⟩ := stands token member
      obtain ⟨first, last, -, -⟩ := lineOf_of_mem within
      rw [place]
      exact ⟨first, last⟩
    · obtain rfl := Option.some.inj same
      obtain ⟨first, last, -, -⟩ := lineOf_of_mem within
      exact Fault.shown_of_line (place ▸ first) (place ▸ last)

/-- Positions tell where something stands in a source text that is not empty. The lines of tokens do
not decrease. The marks that close the open blocks at the end of the text and the end mark are on
its last line, and each token before them is on the line on which it starts and holds this line,
terminated by a line feed. Each fault of the scan, and each fault of parsing in any mode, is on a
line of the text, which the report of the fault shows between gutters and above a row of carets. -/
theorem positions_truthful {source : String} (some_ : source ≠ "") (file : Option String) :
    (∀ tokens, tokenize source file = .ok tokens →
      tokens.Pairwise (fun upper lower => upper.line ≤ lower.line) ∧
      ∃ made indents, tokens = made ++ Spot.closing indents (physicalLines source).length ∧
        SpelledBelow 0 made (normalizeText source.toList) ∧
        ∀ token ∈ made, LineOf source token.line token.rawLine) ∧
    (∀ fault, tokenize source file = .error fault → fault.Shown source) ∧
    ∀ mode fault, parse source file mode = .error fault → fault.Shown source := by
  obtain ⟨stands, shows⟩ := Stream.ofSource_lines some_ file
  refine ⟨fun tokens scanned => ?_, fun fault scanned => ?_, fun mode fault failed => ?_⟩
  · exact ⟨tokenize_ordered scanned, tokenize_lines scanned⟩
  · exact shows fault (Stream.toExcept_error scanned)
  · rcases parseStream_error_line failed with waits | first | ⟨token, member, same⟩
    · exact shows fault waits
    · have filled := physicalLines_pos some_
      exact Fault.shown_of_line (by rw [first]) (by rw [first]; exact filled)
    · obtain ⟨first, last⟩ := stands token member
      exact Fault.shown_of_line (same ▸ first) (same ▸ last)

/-- A text with a block and a literal over two lines, and one with no statement on its second
line. -/
theorem positions_truthful_of_block :
    (∃ tokens made indents, tokenize "if a:\r\n  '''b\nc'''" none = .ok tokens ∧
      tokens = made ++ Spot.closing indents 3 ∧
      SpelledBelow 0 made "if a:\n  '''b\nc'''\n".toList ∧
      ∀ token ∈ made, LineOf "if a:\r\n  '''b\nc'''" token.line token.rawLine) ∧
    ∃ fault, parse "x\ny z" none .exec = .error fault ∧ fault.Shown "x\ny z" := by
  have accepted : (tokenize "if a:\r\n  '''b\nc'''" none).toBool = true := by decide +kernel
  have refused : (parse "x\ny z" none .exec).toBool = false := by decide +kernel
  have unified : normalizeText "if a:\r\n  '''b\nc'''".toList =
      "if a:\n  '''b\nc'''\n".toList := by
    decide +kernel
  have count : (physicalLines "if a:\r\n  '''b\nc'''").length = 3 := by decide +kernel
  constructor
  · cases scanned : tokenize "if a:\r\n  '''b\nc'''" none with
    | error fault =>
      rw [scanned] at accepted
      contradiction
    | ok tokens =>
      obtain ⟨-, made, indents, whole, spelled, lines⟩ :=
        (positions_truthful (by decide) none).1 tokens scanned
      rw [count] at whole
      rw [unified] at spelled
      exact ⟨tokens, made, indents, rfl, whole, spelled, lines⟩
  · cases parsed : parse "x\ny z" none .exec with
    | ok root =>
      rw [parsed] at refused
      contradiction
    | error fault => exact ⟨fault, rfl, (positions_truthful (by decide) none).2.2 .exec fault parsed⟩

end Offside
