import Offside.Proofs.Layout.Cursor

/-!
# Runs of a scan

A run calls `Scanner.next` again and again. `Scanner.Run` relates the state before the first call
to every state that is reached, with what has been handed out on the way. What a run keeps is
proved for the scan of one line (`Scanner.Run.invariant`), and all of a run is what `Scanner.run`
computes (`Scanner.run_complete`).
-/
namespace Offside

open Text

namespace Scanner

/-- The points of a run: what some calls have handed out, and the state behind them. No call
follows a fault. -/
inductive Run (start : Scanner) : Stream → Scanner → Prop where
  /-- Before the first call. -/
  | start : Run start ⟨[], none⟩ start
  /-- A call hands out a token. -/
  | token {tokens : List Token} {before behind : Scanner} {token : Token}
      (run : Run start ⟨tokens, none⟩ before)
      (call : before.next = (some (.ok token), behind)) :
      Run start ⟨tokens ++ [token], none⟩ behind
  /-- A call hands out a fault. -/
  | fault {tokens : List Token} {before behind : Scanner} {fault : Fault}
      (run : Run start ⟨tokens, none⟩ before)
      (call : before.next = (some (.error fault), behind)) :
      Run start ⟨tokens, some fault⟩ behind

/-- A state without the tokens that are ready. -/
def idle (scanner : Scanner) : Scanner := { scanner with pending := [] }

/-- A call takes the first token that is ready. -/
theorem next_of_pending {scanner : Scanner} {token : Token} {later : List Token}
    (ready : scanner.pending = token :: later) :
    scanner.next = (some (.ok token), { scanner with pending := later }) := by
  rw [next, ready]

/-- A call behind the last line hands out nothing and changes nothing. -/
theorem next_of_finished {scanner : Scanner} (ready : scanner.pending = [])
    (finished : scanner.finished = true) : scanner.next = (none, scanner) := by
  rw [next, ready]
  simp [finished]

/-- A call with no token ready hands out the fault of the next line and ends the scan. -/
theorem next_of_scanLine_error {scanner left : Scanner} {fault : Fault}
    (ready : scanner.pending = []) (going : scanner.finished = false)
    (scan : scanner.scanLine = .error (fault, left)) :
    scanner.next = (some (.error fault), left.stop) := by
  rw [next, ready]
  simp [going, scan]

/-- A call with no token ready hands out the first token of the next line. -/
theorem next_of_scanLine_ok {scanner scanned : Scanner} {token : Token} {later : List Token}
    (ready : scanner.pending = []) (going : scanner.finished = false)
    (scan : scanner.scanLine = .ok scanned) (found : scanned.pending = token :: later) :
    scanner.next = (some (.ok token), { scanned with pending := later }) := by
  rw [next, ready]
  simp [going, scan, found]

/-- What a call hands out, by what is ready and by the scan of the next line. -/
theorem next_cases {scanner behind : Scanner} {result : Option (Except Fault Token)}
    (call : scanner.next = (result, behind)) :
    (∃ token later, scanner.pending = token :: later ∧ result = some (.ok token) ∧
        behind = { scanner with pending := later }) ∨
    (scanner.pending = [] ∧ scanner.finished = true ∧ result = none ∧ behind = scanner) ∨
    (scanner.pending = [] ∧ scanner.finished = false ∧ ∃ fault left,
        scanner.scanLine = .error (fault, left) ∧ result = some (.error fault) ∧
        behind = left.stop) ∨
    (scanner.pending = [] ∧ scanner.finished = false ∧ ∃ scanned token later,
        scanner.scanLine = .ok scanned ∧ scanned.pending = token :: later ∧
        result = some (.ok token) ∧ behind = { scanned with pending := later }) ∨
    (scanner.pending = [] ∧ scanner.finished = false ∧ ∃ scanned,
        scanner.scanLine = .ok scanned ∧ scanned.pending = [] ∧ result = none ∧
        behind = scanned) := by
  rw [next] at call
  split at call
  · rename_i token later ready
    obtain ⟨rfl, rfl⟩ := Prod.mk.inj call
    exact .inl ⟨token, later, ready, rfl, rfl⟩
  · rename_i ready
    split at call
    · rename_i finished
      obtain ⟨rfl, rfl⟩ := Prod.mk.inj call
      exact .inr (.inl ⟨ready, finished, rfl, rfl⟩)
    · rename_i going
      rw [Bool.not_eq_true] at going
      split at call
      · rename_i fault left scan
        obtain ⟨rfl, rfl⟩ := Prod.mk.inj call
        exact .inr (.inr (.inl ⟨ready, going, fault, left, scan, rfl, rfl⟩))
      · rename_i scanned scan
        split at call
        · rename_i token later found
          obtain ⟨rfl, rfl⟩ := Prod.mk.inj call
          refine .inr (.inr (.inr (.inl ?_)))
          exact ⟨ready, going, scanned, token, later, scan, found, rfl, rfl⟩
        · rename_i found
          obtain ⟨rfl, rfl⟩ := Prod.mk.inj call
          exact .inr (.inr (.inr (.inr ⟨ready, going, scanned, scan, found, rfl, rfl⟩)))

/-- A call hands out a token that is ready, or the first one of the next line. -/
theorem next_ok {scanner behind : Scanner} {token : Token}
    (call : scanner.next = (some (.ok token), behind)) :
    (∃ later, scanner.pending = token :: later ∧ behind = { scanner with pending := later }) ∨
    (scanner.pending = [] ∧ scanner.finished = false ∧ ∃ scanned later,
        scanner.scanLine = .ok scanned ∧ scanned.pending = token :: later ∧
        behind = { scanned with pending := later }) := by
  rcases next_cases call with ⟨found, later, ready, same, rfl⟩ | ⟨_, _, same, _⟩ |
    ⟨_, _, _, _, _, same, _⟩ | ⟨ready, going, scanned, found, later, scan, front, same, rfl⟩ |
    ⟨_, _, _, _, _, same, _⟩
  · obtain rfl := Except.ok.inj (Option.some.inj same)
    exact .inl ⟨later, ready, rfl⟩
  · simp at same
  · simp at same
  · obtain rfl := Except.ok.inj (Option.some.inj same)
    exact .inr ⟨ready, going, scanned, later, scan, front, rfl⟩
  · simp at same

/-- A call hands out the fault of the next line and ends the scan. -/
theorem next_error {scanner behind : Scanner} {fault : Fault}
    (call : scanner.next = (some (.error fault), behind)) :
    scanner.pending = [] ∧ scanner.finished = false ∧
      ∃ left, scanner.scanLine = .error (fault, left) ∧ behind = left.stop := by
  rcases next_cases call with ⟨_, _, _, same, _⟩ | ⟨_, _, same, _⟩ |
    ⟨ready, going, found, left, scan, same, rfl⟩ | ⟨_, _, _, _, _, _, _, same, _⟩ |
    ⟨_, _, _, _, _, same, _⟩
  · simp at same
  · simp at same
  · obtain rfl := Except.error.inj (Option.some.inj same)
    exact ⟨ready, going, left, scan, rfl⟩
  · simp at same
  · simp at same

/-- A fault is the fault of the scan of a line, behind which the scan has ended. -/
theorem Run.of_fault {start point : Scanner} {tokens : List Token} {fault : Fault}
    (run : Run start ⟨tokens, some fault⟩ point) :
    ∃ before left, Run start ⟨tokens, none⟩ before ∧ before.pending = [] ∧
      before.finished = false ∧ before.scanLine = .error (fault, left) ∧ point = left.stop := by
  cases run with
  | @fault _ before _ _ run call =>
    obtain ⟨ready, going, left, scan, rfl⟩ := next_error call
    exact ⟨before, left, run, ready, going, scan, rfl⟩

/-- What holds of the tokens made so far and of the state without them, and is kept by the scan
of a line, holds at every point of a run without a fault. -/
theorem Run.invariant {start : Scanner} (holds : List Token → Scanner → Prop)
    (initially : holds start.pending start.idle)
    (scan : ∀ made before behind, before.pending = [] → before.finished = false →
      holds made before → before.scanLine = .ok behind →
      holds (made ++ behind.pending) behind.idle)
    {tokens : List Token} {point : Scanner} (run : Run start ⟨tokens, none⟩ point) :
    holds (tokens ++ point.pending) point.idle := by
  generalize handed : (⟨tokens, none⟩ : Stream) = stream at run
  induction run generalizing tokens with
  | start =>
    obtain ⟨rfl, -⟩ := Stream.mk.inj handed
    exact initially
  | @token tokens before behind token run call ih =>
    obtain ⟨rfl, -⟩ := Stream.mk.inj handed
    rcases next_ok call with ⟨later, ready, rfl⟩ |
      ⟨ready, going, scanned, later, scanned_eq, front, rfl⟩
    · simpa [idle, ready] using ih rfl
    · have bare : before.idle = before := by rw [idle, ← ready]
      have kept := ih rfl
      rw [ready, List.append_nil, bare] at kept
      simpa [idle, front] using scan _ _ _ ready going kept scanned_eq
  | fault => simp at handed

/-- A run may first hand out the tokens that are ready. -/
theorem Run.flush {start point : Scanner} {tokens : List Token}
    (run : Run start ⟨tokens, none⟩ point) :
    Run start ⟨tokens ++ point.pending, none⟩ point.idle := by
  generalize ready : point.pending = later
  induction later generalizing tokens point with
  | nil =>
    have bare : point.idle = point := by rw [idle, ← ready]
    rwa [List.append_nil, bare]
  | cons token later ih =>
    have handed := ih (run.token (next_of_pending ready)) rfl
    simpa [idle] using handed

/-- The place behind the indentation of a line. -/
def behindIndent (line : Line) (below : List Line) : Cursor :=
  ⟨line, line.text.toList.dropWhile isIndent, below⟩

/-- The width of the indentation of a line. -/
def indentWidth (line : Line) : Nat :=
  (line.text.toList.takeWhile isIndent).length

/-- The marks at the start of a line, and the blocks that are open in it. Inside brackets the
indentation does not count. -/
def track (scanner : Scanner) (line : Line) (below : List Line) :
    Except (Cause × List Token × List Nat) (List Token × List Nat) :=
  if scanner.depth = 0 then
    trackIndent scanner.indents (indentWidth line) (behindIndent line below)
  else .ok ([], scanner.indents)

/-- The tokens of a line without statements, from behind its indentation. -/
inductive Idles (cursor : Cursor) : List Token → Prop where
  /-- Nothing or a form feed is left of the line. -/
  | blank (front : cursor.rest = ['\n'] ∨ cursor.rest = ['\x0c', '\n']) :
      Idles cursor [cursor.token .softBreak ['\n']]
  /-- A comment is left of it. -/
  | comment (front : cursor.rest.head? = some '#') :
      Idles cursor [cursor.token .comment (trimEnd (· == '\n') cursor.rest),
        cursor.token .softBreak ['\n']]

/-- These are the tokens of a line without statements. -/
theorem idles_of_idleTokens? {cursor : Cursor} {tokens : List Token}
    (found : idleTokens? cursor = some tokens) : Idles cursor tokens := by
  unfold idleTokens? at found
  dsimp only at found
  split at found
  · rename_i empty
    obtain rfl := Option.some.inj found
    rw [Bool.or_eq_true, decide_eq_true_eq, decide_eq_true_eq] at empty
    exact .blank empty
  · split at found
    · rename_i front
      obtain rfl := Option.some.inj found
      exact .comment front
    · contradiction

/-- The marks at the start of a line of a width, and the widths of the blocks that are open behind
them. -/
inductive Tracks (indents : List Nat) (width : Nat) (cursor : Cursor) :
    List Token → List Nat → Prop where
  /-- A block opens. -/
  | opens (wider : indents.headD 0 < width) :
      Tracks indents width cursor [cursor.token .indent (cursor.line.text.toList.take width)]
        (width :: indents)
  /-- All blocks that are wider close, and one of the width is open. -/
  | closes (narrow : ¬indents.headD 0 < width)
      (fits : (indents.dropWhile (width < ·)).headD 0 = width) :
      Tracks indents width cursor
        ((indents.takeWhile (width < ·)).map fun _ => cursor.token .dedent [])
        (indents.dropWhile (width < ·))

/-- These are the marks that a line of a width starts with. -/
theorem trackIndent_ok_iff {indents kept : List Nat} {width : Nat} {cursor : Cursor}
    {marks : List Token} :
    trackIndent indents width cursor = .ok (marks, kept) ↔
      Tracks indents width cursor marks kept := by
  rw [trackIndent]
  constructor
  · intro tracked
    split at tracked
    · rename_i wider
      obtain ⟨rfl, rfl⟩ := Prod.mk.inj (Except.ok.inj tracked)
      exact .opens wider
    · rename_i narrow
      dsimp only at tracked
      split at tracked
      · rename_i fits
        obtain ⟨rfl, rfl⟩ := Prod.mk.inj (Except.ok.inj tracked)
        exact .closes narrow fits
      · contradiction
  · intro tracks
    cases tracks with
    | opens wider => rw [if_pos wider]
    | closes narrow fits =>
      rw [if_neg narrow]
      exact if_pos fits

/-- Inside brackets a line has no marks. -/
theorem track_ok_iff {scanner : Scanner} {line : Line} {below : List Line} {marks : List Token}
    {kept : List Nat} :
    scanner.track line below = .ok (marks, kept) ↔
      (scanner.depth = 0 ∧
        Tracks scanner.indents (indentWidth line) (behindIndent line below) marks kept) ∨
      (scanner.depth ≠ 0 ∧ marks = [] ∧ kept = scanner.indents) := by
  rw [track]
  by_cases flat : scanner.depth = 0
  · rw [if_pos flat, trackIndent_ok_iff]
    simp [flat]
  · rw [if_neg flat]
    simp [flat, eq_comm]

/-- Each mark at the start of a line stands behind its indentation. -/
theorem track_token {scanner : Scanner} {line : Line} {below : List Line} {marks : List Token}
    {kept : List Nat} (tracked : scanner.track line below = .ok (marks, kept)) :
    ∀ token ∈ marks, ∃ kind value, (kind = .indent ∨ kind = .dedent) ∧
      token = (behindIndent line below).token kind value := by
  intro token member
  rcases track_ok_iff.1 tracked with ⟨-, tracks⟩ | ⟨-, rfl, -⟩
  · cases tracks with
    | opens => exact ⟨_, _, .inl rfl, List.mem_singleton.1 member⟩
    | closes =>
      obtain ⟨-, -, rfl⟩ := List.mem_map.1 member
      exact ⟨_, _, .inr rfl, rfl⟩
  · contradiction

/-- What the scan of a line leads to if it meets no fault: the end of the input, the tokens of a
line without statements, or the marks and the tokens of a logical line. -/
theorem scanLine_ok {scanner scanned : Scanner} (scan : scanner.scanLine = .ok scanned) :
    (scanner.below = [] ∧ scanned = scanner.finish) ∨
    ∃ line below, scanner.below = line :: below ∧
      ((∃ tokens, idleTokens? (behindIndent line below) = some tokens ∧
          scanned = { scanner with below, line := line.number, pending := tokens }) ∨
        (idleTokens? (behindIndent line below) = none ∧ ∃ marks indents found,
          scanner.track line below = .ok (marks, indents) ∧
          (behindIndent line below).Scans scanner.depth found ∧
          scanned = { scanner with
            below := found.below, line := found.line, indents, depth := found.depth,
            pending := marks ++ found.tokens })) := by
  unfold scanLine at scan
  split at scan
  · rename_i bottom
    exact .inl ⟨bottom, (Except.ok.inj scan).symm⟩
  · rename_i line below lines
    refine .inr ⟨line, below, lines, ?_⟩
    dsimp only at scan
    split at scan
    · rename_i tokens idles
      exact .inl ⟨tokens, idles, (Except.ok.inj scan).symm⟩
    · rename_i logical
      split at scan
      · contradiction
      · rename_i marks indents tracked
        split at scan
        · contradiction
        · rename_i found tokens
          exact .inr ⟨logical, marks, indents, found, tracked, scans_of_scanTokens tokens,
            (Except.ok.inj scan).symm⟩

/-- Where the scan of a line meets a fault: in its indentation or in its tokens. -/
theorem scanLine_error {scanner left : Scanner} {fault : Fault}
    (scan : scanner.scanLine = .error (fault, left)) :
    ∃ line below, scanner.below = line :: below ∧
      idleTokens? (behindIndent line below) = none ∧
      ((∃ cause marks indents, scanner.track line below = .error (cause, marks, indents) ∧
          fault = ⟨cause, ⟨line.number, scanner.file⟩⟩ ∧
          left = scanner.behindTokens marks indents ⟨[], line.number, below, scanner.depth⟩) ∨
        (∃ marks indents lower, scanner.track line below = .ok (marks, indents) ∧
          scanTokens (behindIndent line below) scanner.depth = .error lower ∧
          fault = ⟨lower.cause, ⟨lower.line, scanner.file⟩⟩ ∧
          left = scanner.behindTokens marks indents lower.scanned)) := by
  unfold scanLine at scan
  split at scan
  · contradiction
  · rename_i line below lines
    refine ⟨line, below, lines, ?_⟩
    dsimp only at scan
    split at scan
    · contradiction
    · rename_i logical
      refine ⟨logical, ?_⟩
      split at scan
      · rename_i cause marks indents tracked
        obtain ⟨rfl, rfl⟩ := Prod.mk.inj (Except.error.inj scan)
        exact .inl ⟨cause, marks, indents, tracked, rfl, rfl⟩
      · rename_i marks indents tracked
        split at scan
        · rename_i lower tokens
          obtain ⟨rfl, rfl⟩ := Prod.mk.inj (Except.error.inj scan)
          exact .inr ⟨marks, indents, lower, tracked, tokens, rfl, rfl⟩
        · contradiction

/-- A line with an indentation that no block has is a fault. -/
theorem scanLine_of_mark {scanner : Scanner} {line : Line} {below : List Line} {cause : Cause}
    {marks : List Token} {indents : List Nat} (lines : scanner.below = line :: below)
    (logical : idleTokens? (behindIndent line below) = none)
    (tracked : scanner.track line below = .error (cause, marks, indents)) :
    scanner.scanLine = .error (⟨cause, ⟨line.number, scanner.file⟩⟩,
      scanner.behindTokens marks indents ⟨[], line.number, below, scanner.depth⟩) := by
  rw [track] at tracked
  rw [behindIndent] at logical tracked
  rw [indentWidth] at tracked
  rw [scanLine, lines]
  dsimp only
  rw [logical]
  dsimp only
  rw [tracked]

/-- A line with a fault in its tokens is a fault. -/
theorem scanLine_of_tokens {scanner : Scanner} {line : Line} {below : List Line}
    {marks : List Token} {indents : List Nat} {fault : LineFault}
    (lines : scanner.below = line :: below)
    (logical : idleTokens? (behindIndent line below) = none)
    (tracked : scanner.track line below = .ok (marks, indents))
    (scanned : scanTokens (behindIndent line below) scanner.depth = .error fault) :
    scanner.scanLine = .error (⟨fault.cause, ⟨fault.line, scanner.file⟩⟩,
      scanner.behindTokens marks indents fault.scanned) := by
  rw [track] at tracked
  rw [behindIndent] at logical tracked scanned
  rw [indentWidth] at tracked
  rw [scanLine, lines]
  dsimp only
  rw [logical]
  dsimp only
  rw [tracked]
  dsimp only
  rw [scanned]

/-- Behind the indentation of a terminated line there is something left of it. -/
theorem behindIndent_inside {line : Line} {below : List Line} (terminated : line.Terminated) :
    (behindIndent line below).Inside := by
  refine ⟨List.dropWhile_suffix _, ?_⟩
  intro empty
  have all := List.dropWhile_eq_nil_iff.1 empty '\n' (List.mem_of_getLast? terminated)
  exact absurd all (by decide)

/-- The scan of a line makes a token ready, and it reads a line unless the input has ended. -/
theorem scanLine_progress {scanner scanned : Scanner}
    (terminated : ∀ line ∈ scanner.below, line.Terminated)
    (scan : scanner.scanLine = .ok scanned) :
    scanned.pending ≠ [] ∧ scanned.below <:+ scanner.below ∧
      (scanned.finished = scanner.finished ∧ scanned.below.length < scanner.below.length ∨
        scanned.finished = true) := by
  rcases scanLine_ok scan with ⟨bottom, rfl⟩ | ⟨line, below, lines, idles | logical⟩
  · simp [finish]
  · obtain ⟨tokens, found, rfl⟩ := idles
    refine ⟨?_, by simp [lines], .inl ⟨rfl, by simp [lines]⟩⟩
    cases idles_of_idleTokens? found <;> simp
  · obtain ⟨-, marks, indents, found, -, scans, rfl⟩ := logical
    rw [lines] at terminated
    have progress := scans.progress terminated
      (behindIndent_inside (terminated line List.mem_cons_self))
    have shorter := progress.2.length_le
    refine ⟨by simp [progress.1], ?_, .inl ⟨rfl, ?_⟩⟩
    · rw [lines]
      exact progress.2.trans (List.suffix_cons _ _)
    · rw [lines, List.length_cons]
      exact Nat.lt_succ_of_le shorter

/-- The lines that have not been read are terminated at every point of a run. -/
theorem Run.terminated {start : Scanner} (terminated : ∀ line ∈ start.below, line.Terminated)
    {tokens : List Token} {point : Scanner} (run : Run start ⟨tokens, none⟩ point) :
    ∀ line ∈ point.below, line.Terminated :=
  run.invariant (fun _ scanner => ∀ line ∈ scanner.below, line.Terminated) terminated
    fun _ _ _ _ _ before scan line member =>
      before line ((scanLine_progress before scan).2.1.subset member)

/-- The state behind a number of calls. -/
def after (scanner : Scanner) : Nat → Scanner
  | 0 => scanner
  | calls + 1 => (scanner.after calls).next.2

/-- The tokens that a call makes: those of the line that it scans, if it scans one. Where it meets
a fault they are the tokens of the line before the fault, which are lost. -/
def makes (scanner : Scanner) : List Token :=
  if scanner.pending = [] ∧ scanner.finished = false then
    match scanner.scanLine with
    | .ok scanned => scanned.pending
    | .error (_, left) => left.pending
  else []

/-- The tokens that are made up to a number of calls, whether they are handed out, ready or lost. -/
def made (scanner : Scanner) : Nat → List Token
  | 0 => scanner.pending
  | calls + 1 => scanner.made calls ++ (scanner.after calls).makes

/-- A call makes no token while one is ready. -/
theorem makes_of_pending {scanner : Scanner} (ready : scanner.pending ≠ []) :
    scanner.makes = [] :=
  if_neg fun waits => ready waits.1

/-- A call behind the end makes no token. -/
theorem makes_of_finished {scanner : Scanner} (finished : scanner.finished = true) :
    scanner.makes = [] :=
  if_neg fun waits => by simp [finished] at waits

/-- A call that scans a line makes its tokens. -/
theorem makes_of_ok {scanner scanned : Scanner} (ready : scanner.pending = [])
    (going : scanner.finished = false) (scan : scanner.scanLine = .ok scanned) :
    scanner.makes = scanned.pending := by
  rw [makes, if_pos ⟨ready, going⟩, scan]

/-- A call that meets a fault makes the tokens in front of it. -/
theorem makes_of_error {scanner left : Scanner} {fault : Fault} (ready : scanner.pending = [])
    (going : scanner.finished = false) (scan : scanner.scanLine = .error (fault, left)) :
    scanner.makes = left.pending := by
  rw [makes, if_pos ⟨ready, going⟩, scan]

/-- The points of a run are reached by calls. What is made up to a point is what has been handed
out and what is ready, and behind a fault what is lost there. -/
theorem Run.exists_calls {start point : Scanner} {stream : Stream}
    (run : Run start stream point) :
    ∃ calls lost, start.after calls = point ∧
      start.made calls = stream.tokens ++ (point.pending ++ lost) ∧
      (stream.failure = none → lost = []) := by
  induction run with
  | start => exact ⟨0, [], rfl, by simp [made], fun _ => rfl⟩
  | @token tokens before behind token run call ih =>
    obtain ⟨calls, lost, reached, made_, sound⟩ := ih
    obtain rfl := sound rfl
    have behind_eq : start.after (calls + 1) = behind := by rw [after, reached, call]
    refine ⟨calls + 1, [], behind_eq, ?_, fun _ => rfl⟩
    rw [made, reached, made_, List.append_nil]
    rcases next_ok call with ⟨later, ready, rfl⟩ |
      ⟨ready, going, scanned, later, scan, front, rfl⟩
    · simp [makes_of_pending (ready ▸ List.cons_ne_nil _ _), ready]
    · simp [makes_of_ok ready going scan, ready, front]
  | @fault tokens before behind fault run call ih =>
    obtain ⟨calls, lost, reached, made_, sound⟩ := ih
    obtain rfl := sound rfl
    have behind_eq : start.after (calls + 1) = behind := by rw [after, reached, call]
    obtain ⟨ready, going, left, scan, rfl⟩ := next_error call
    refine ⟨calls + 1, left.pending, behind_eq, ?_, fun failed => by simp at failed⟩
    rw [made, reached, made_, makes_of_error ready going scan, ready]
    simp [stop]

/-- A scan that has ended stays as it is, however often it is called. -/
theorem ended_forever {point : Scanner} (ready : point.pending = [])
    (finished : point.finished = true) (calls : Nat) :
    point.after calls = point ∧ point.next = (none, point) := by
  have silent := next_of_finished ready finished
  refine ⟨?_, silent⟩
  induction calls with
  | zero => rfl
  | succ calls ih => rw [after, ih, silent]

/-- A call that hands out nothing is made where the scan has ended. -/
theorem ended_of_next_none {point : Scanner}
    (terminated : ∀ line ∈ point.below, line.Terminated) (call : point.next.1 = none) :
    point.pending = [] ∧ point.finished = true := by
  rcases next_cases (Prod.eta point.next).symm with ⟨_, _, _, same, _⟩ | ⟨ready, finished, _⟩ |
    ⟨_, _, _, _, _, same, _⟩ | ⟨_, _, _, _, _, _, _, same, _⟩ | ⟨_, _, scanned, scan, empty, _⟩
  · simp [same] at call
  · exact ⟨ready, finished⟩
  · simp [same] at call
  · simp [same] at call
  · exact absurd empty (scanLine_progress terminated scan).1

/-- What is handed out by calls until there is nothing more is what is drained. -/
theorem drain_complete {start scanner : Scanner} {bound : Nat} {handed : List Token}
    (terminated : ∀ line ∈ scanner.below, line.Terminated)
    (run : Run start ⟨handed ++ scanner.pending, none⟩ scanner.idle)
    (enough : scanner.finished = true ∨ scanner.below.length + 1 < bound) :
    Run start ⟨handed ++ (scanner.drain bound).1.tokens, (scanner.drain bound).1.failure⟩
        (scanner.drain bound).2 ∧
      (scanner.drain bound).2.pending = [] ∧ (scanner.drain bound).2.finished = true := by
  induction bound generalizing handed scanner with
  | zero =>
    have finished := enough.resolve_right (by omega)
    exact ⟨run, rfl, finished⟩
  | succ bound ih =>
    rw [drain]
    split
    · rename_i finished
      exact ⟨run, rfl, finished⟩
    · rename_i going
      rw [Bool.not_eq_true] at going
      dsimp only
      split
      · rename_i fault left scan
        exact ⟨run.fault (next_of_scanLine_error rfl going scan), rfl, rfl⟩
      · rename_i scanned scan
        have progress := scanLine_progress terminated scan
        obtain ⟨token, later, found⟩ := List.exists_cons_of_ne_nil progress.1
        have handedOut := (run.token (next_of_scanLine_ok rfl going scan found)).flush
        have reached : Run start ⟨handed ++ scanner.pending ++ scanned.pending, none⟩
            scanned.idle := by
          simpa [idle, found] using handedOut
        have enough : scanned.finished = true ∨ scanned.below.length + 1 < bound := by
          rcases progress.2.2 with ⟨_, shorter⟩ | finished
          · exact .inr (by have := enough.resolve_left (by simp [going]); omega)
          · exact .inl finished
        have whole := ih (fun line member => terminated line (progress.2.1.subset member))
          reached enough
        simpa using whole

/-- All of a run from the start of lines is what is scanned at once. -/
theorem run_complete (lines : List String) (file : Option String) :
    Run (start lines file) (start lines file).run.1 (start lines file).run.2 ∧
      (start lines file).run.2.pending = [] ∧ (start lines file).run.2.finished = true := by
  have reached : Run (start lines file) ⟨[] ++ (start lines file).pending, none⟩
      (start lines file).idle := .start
  have whole := drain_complete (Line.read_terminated lines) reached
    (.inr (Nat.lt_succ_self ((start lines file).below.length + 1)))
  rwa [List.nil_append] at whole

/-- The tokens of lines, up to a fault if there is one, are what a run hands out until no token is
ready. -/
theorem run_tokens (lines : List String) (file : Option String) :
    ∃ point, Run (start lines file) ⟨(Stream.ofLines lines file).tokens, none⟩ point ∧
      point.pending = [] := by
  obtain ⟨run, ready, -⟩ := run_complete lines file
  rw [Stream.ofLines]
  generalize (start lines file).run = outcome at run ready
  obtain ⟨⟨tokens, failure⟩, point⟩ := outcome
  cases failure with
  | none => exact ⟨point, run, ready⟩
  | some fault =>
    obtain ⟨before, -, earlier, bare, -⟩ := run.of_fault
    exact ⟨before, earlier, bare⟩

/-- The tokens of a source text are what a run hands out until the scan has ended. -/
theorem run_of_tokenize {source : String} {file : Option String} {tokens : List Token}
    (found : tokenize source file = .ok tokens) :
    ∃ point, Run (start (physicalLines source) file) ⟨tokens, none⟩ point ∧
      point.pending = [] ∧ point.finished = true := by
  have whole := run_complete (physicalLines source) file
  unfold tokenize Stream.toExcept at found
  rw [Stream.ofSource, Stream.ofLines] at found
  generalize (start (physicalLines source) file).run = outcome at whole found
  obtain ⟨⟨handed, failure⟩, point⟩ := outcome
  cases failure with
  | some fault => contradiction
  | none =>
    obtain rfl := Except.ok.inj found
    exact ⟨point, whole⟩

end Scanner

end Offside
