import Offside.Fault
import Offside.Lexeme
import Offside.Text.Lines
import Offside.Token

/-!
# Tokens of a layout

A text is scanned one physical line at a time, together with the lines that it runs on into. The
indentation of a line opens and closes blocks: the widths of the open blocks form a stack, and
inside brackets the layout does not count. `Scanner.next` hands out one token at a time;
`Scanner.run` scans all of the input. A fault ends the scan, and the tokens of the line in which
it was met are lost.

Lines are numbered in 32 bits by the program and by natural numbers here, which is the same for all
texts of fewer than 2 ^ 32 lines.
-/
namespace Offside

open Text Lexeme

/-- A physical line that has been read. -/
structure Line where
  /-- Its number, counted from one and below 2 ^ 32 in the program. -/
  number : Nat
  /-- Its text, which ends in a line feed. -/
  text : String
  /-- This line or an earlier one came without a terminator. -/
  bare : Bool
  deriving DecidableEq, Inhabited, Repr

/-- The text of a line with its terminator made a line feed, and whether it had a terminator. -/
def normalizeLine (text : List Char) : List Char × Bool :=
  match text.reverse with
  | '\n' :: '\r' :: rest => (rest.reverse ++ ['\n'], true)
  | '\n' :: _ => (text, true)
  | _ => (text ++ ['\n'], false)

/-- The lines that follow the given number of lines, up to the first empty one, which ends the
input. -/
def Line.follow (count : Nat) (bare : Bool) : List String → List Line
  | [] => []
  | raw :: later =>
    if raw = "" then []
    else
      let (text, terminated) := normalizeLine raw.toList
      let bare := bare || !terminated
      ⟨count + 1, String.ofList text, bare⟩ :: follow (count + 1) bare later

/-- The lines of an input. -/
def Line.read (lines : List String) : List Line :=
  follow 0 false lines

/-- A place inside a line, with the lines below it. -/
structure Cursor where
  /-- The line. -/
  line : Line
  /-- What is left of the line. -/
  rest : List Char
  /-- The lines that have not been read. -/
  below : List Line
  deriving Inhabited

/-- A token of a line that starts at a cursor. -/
def Cursor.token (cursor : Cursor) (kind : Kind) (value : List Char) : Token :=
  ⟨kind, String.ofList value, cursor.line.number, cursor.line.text⟩

/-- The start of a line, with the lines below it. -/
def Cursor.start (line : Line) (below : List Line) : Cursor :=
  ⟨line, line.text.toList, below⟩

/-- The number of characters in lines. -/
def linesSize : List Line → Nat
  | [] => 0
  | line :: rest => line.text.toList.length + linesSize rest

/-- The number of characters in front of a cursor. -/
def Cursor.size (cursor : Cursor) : Nat :=
  cursor.rest.length + linesSize cursor.below

/-- The rest of a string literal that stands in a line, and the place behind it. The parts of the
literal are found by the given scanner, line by line. A literal that does not end breaks off at the
start of its last part. -/
def closeString (part : List Char → StringPart) :
    (below : List Line) → (line : Line) → (rest : List Char) →
      Except Cursor (List Char × Cursor)
  | [], line, rest =>
    match part rest with
    | .closed taken rest => .ok (taken, ⟨line, rest, []⟩)
    | .continued _ => .error ⟨line, rest, []⟩
    | .broken => .error ⟨line, rest, []⟩
  | next :: below, line, rest =>
    match part rest with
    | .closed taken rest => .ok (taken, ⟨line, rest, next :: below⟩)
    | .continued taken =>
      (closeString part below next next.text.toList).map fun (more, cursor) =>
        (taken ++ more, cursor)
    | .broken => .error ⟨line, rest, next :: below⟩

/-- A string literal that ends, part by part: it goes on over lines until a part is closed. -/
inductive ClosesString (part : List Char → StringPart) :
    List Line → Line → List Char → List Char → Cursor → Prop where
  /-- The part in the line is closed. -/
  | here {below : List Line} {line : Line} {text taken rest : List Char}
      (found : part text = .closed taken rest) :
      ClosesString part below line text taken ⟨line, rest, below⟩
  /-- The part in the line goes on, and the rest of the literal ends. -/
  | later {below : List Line} {line next : Line} {text taken more : List Char} {place : Cursor}
      (found : part text = .continued taken)
      (closes : ClosesString part below next next.text.toList more place) :
      ClosesString part (next :: below) line text (taken ++ more) place

/-- A result that comes out of a function went into it. -/
theorem ok_of_map {ε α β : Type} {f : α → β} {result : Except ε α} {value : β}
    (found : result.map f = .ok value) : ∃ given, result = .ok given ∧ f given = value := by
  cases result with
  | error fault => contradiction
  | ok given => exact ⟨given, rfl, Except.ok.inj found⟩

/-- A string literal is found exactly if it ends part by part. -/
theorem closeString_eq_ok_iff {part : List Char → StringPart} {below : List Line} {line : Line}
    {text taken : List Char} {place : Cursor} :
    closeString part below line text = .ok (taken, place) ↔
      ClosesString part below line text taken place := by
  constructor
  · intro closed
    induction below generalizing line text taken place with
    | nil =>
      rw [closeString] at closed
      split at closed
      · rename_i found
        obtain ⟨rfl, rfl⟩ := Prod.mk.inj (Except.ok.inj closed)
        exact .here found
      · contradiction
      · contradiction
    | cons next below ih =>
      rw [closeString] at closed
      split at closed
      · rename_i found
        obtain ⟨rfl, rfl⟩ := Prod.mk.inj (Except.ok.inj closed)
        exact .here found
      · rename_i found
        obtain ⟨⟨more, behind⟩, rest, same⟩ := ok_of_map closed
        obtain ⟨rfl, rfl⟩ := Prod.mk.inj same
        exact .later found (ih rest)
      · contradiction
  · intro closes
    induction closes with
    | @here below line text taken rest found => cases below <;> simp [closeString, found]
    | later found _ ih => simp [closeString, found, ih, Except.map]

/-- What is behind the end of a string literal is no more than what was behind its start, if that
holds within each line. -/
theorem ClosesString.size {part : List Char → StringPart}
    (shrinks : ∀ text taken rest, part text = .closed taken rest → rest.length ≤ text.length)
    {below : List Line} {line : Line} {text taken : List Char} {place : Cursor}
    (closes : ClosesString part below line text taken place) :
    place.size ≤ text.length + linesSize below := by
  induction closes with
  | here found => exact Nat.add_le_add_right (shrinks _ _ _ found) _
  | later found closes ih =>
    simp only [linesSize] at ih ⊢
    omega

/-- A string literal whose opening mark is in front of a cursor: its text and the place behind
it, or where it breaks off. -/
def scanString (cursor : Cursor) : Except Cursor (List Char × Cursor) :=
  match cursor.rest with
  | [] => .error cursor
  | quote :: rest =>
    if [quote, quote].isPrefixOf rest then
      (closeString (longPart quote false) cursor.below cursor.line (rest.drop 2)).map
        fun (body, next) => ([quote, quote, quote] ++ body, next)
    else
      (closeString (shortPart quote) cursor.below cursor.line rest).map
        fun (body, next) => (quote :: body, next)

/-- A string literal in front of a cursor, by the number of its marks. -/
inductive ScansString (cursor : Cursor) : List Char → Cursor → Prop where
  /-- A literal between triple marks. -/
  | triple {quote : Char} {rest taken : List Char} {next : Cursor}
      (front : cursor.rest = [quote, quote, quote] ++ rest)
      (closes : ClosesString (longPart quote false) cursor.below cursor.line rest taken next) :
      ScansString cursor ([quote, quote, quote] ++ taken) next
  /-- A literal between single marks. -/
  | single {quote : Char} {rest taken : List Char} {next : Cursor}
      (front : cursor.rest = quote :: rest) (other : [quote, quote].isPrefixOf rest = false)
      (closes : ClosesString (shortPart quote) cursor.below cursor.line rest taken next) :
      ScansString cursor (quote :: taken) next

/-- A string literal is scanned exactly if it is in front, between triple or single marks. -/
theorem scanString_eq_ok_iff {cursor next : Cursor} {literal : List Char} :
    scanString cursor = .ok (literal, next) ↔ ScansString cursor literal next := by
  constructor
  · intro found
    unfold scanString at found
    split at found
    · contradiction
    · rename_i quote rest front
      split at found
      · rename_i marks
        obtain ⟨later, rfl⟩ := List.isPrefixOf_iff_prefix.1 marks
        obtain ⟨⟨body, place⟩, closed, same⟩ := ok_of_map found
        obtain ⟨rfl, rfl⟩ := Prod.mk.inj same
        exact .triple front (closeString_eq_ok_iff.1 closed)
      · rename_i other
        rw [Bool.not_eq_true] at other
        obtain ⟨⟨body, place⟩, closed, same⟩ := ok_of_map found
        obtain ⟨rfl, rfl⟩ := Prod.mk.inj same
        exact .single front other (closeString_eq_ok_iff.1 closed)
  · intro scans
    cases scans with
    | triple front closes =>
      simp [scanString, front, closeString_eq_ok_iff.2 closes, Except.map]
    | single front other closes =>
      simp [scanString, front, other, closeString_eq_ok_iff.2 closes, Except.map]

/-- A string literal takes characters. -/
theorem ScansString.size {cursor next : Cursor} {literal : List Char}
    (scans : ScansString cursor literal next) : next.size < cursor.size := by
  cases scans with
  | @triple quote rest _ _ front closes =>
    have bound := closes.size fun text taken rest part => by simp [← longPart_closed part]
    have size : cursor.size = rest.length + 3 + linesSize cursor.below := by
      simp [Cursor.size, front]
    omega
  | @single quote rest _ _ front other closes =>
    have bound := closes.size fun text taken rest part => by simp [← shortPart_closed part]
    have size : cursor.size = rest.length + 1 + linesSize cursor.below := by
      simp [Cursor.size, front]
    omega

/-- The bracket depth behind an operator. A closing bracket without an opening one is passed
over. -/
def bracketDepth (depth : Nat) (operator : List Char) : Nat :=
  match operator with
  | ['('] | ['['] | ['\x7b'] => depth + 1
  | [')'] | [']'] | ['\x7d'] => depth - 1
  | _ => depth

/-- What one step of a scan finds at a cursor. -/
inductive Step where
  /-- A token, and the place and the bracket depth behind it. -/
  | token (found : Token) (next : Cursor) (depth : Nat)
  /-- Nothing: white space or a continuation, and the place behind it. -/
  | skip (next : Cursor)
  /-- The end of the line, with the token that marks it. -/
  | last (found : Option Token)
  /-- A cause at the line of the cursor, and the place where the scan breaks off. -/
  | fault (cause : Cause) (place : Cursor)

/-- The step for a string literal behind the letters that mark it. -/
def stringStep (start : Cursor) (marks : List Char) (opening : Cursor) (depth : Nat) : Step :=
  match scanString opening with
  | .ok (literal, next) => .token (start.token .string (marks ++ literal)) next depth
  | .error place => .fault .unterminatedString place

/-- One step of a scan inside a line, at a given bracket depth. -/
def Cursor.step (cursor : Cursor) (depth : Nat) : Step :=
  match cursor.rest with
  | [] => .last none
  | c :: tail =>
    let text := c :: tail
    if startsNumber text then
      let (value, rest) := Lexeme.number text
      .token (cursor.token .number value) { cursor with rest } depth
    else if isNameStart c then
      let (value, rest) := Lexeme.name text
      if (rest.head?.any isQuote) && stringMarks.contains value then
        stringStep cursor value { cursor with rest } depth
      else .token (cursor.token .name value) { cursor with rest } depth
    else if text = ['\\', '\n'] then
      match cursor.below with
      | next :: below => .skip (.start next below)
      | [] => .fault .unexpectedEnd cursor
    else if c = '\n' then
      .last (some (cursor.token (if depth = 0 then .newline else .softBreak)
        (if cursor.line.bare then [] else ['\n'])))
    else if isWhiteSpace c then .skip { cursor with rest := tail }
    else if isQuote c then stringStep cursor [] cursor depth
    else if c = '#' then
      .token (cursor.token .comment (trimEnd (· == '\n') text))
        { cursor with rest := tail.drop (tail.length - 1) } depth
    else
      let (value, rest) := Lexeme.operator text
      .token (cursor.token .operator value) { cursor with rest } (bracketDepth depth value)

/-- The place behind a step, if the line does not end there. -/
def Step.next? : Step → Option Cursor
  | .token _ next _ => some next
  | .skip next => some next
  | .last _ => none
  | .fault _ _ => none

/-- A step for a string literal takes characters. -/
theorem stringStep_size {start opening next : Cursor} {marks : List Char} {depth : Nat}
    (found : (stringStep start marks opening depth).next? = some next) :
    next.size < opening.size := by
  unfold stringStep at found
  split at found
  · rename_i scanned
    cases found
    exact (scanString_eq_ok_iff.1 scanned).size
  · simp [Step.next?] at found

/-- Each step takes characters. -/
theorem Cursor.step_size {cursor next : Cursor} {depth : Nat}
    (found : (cursor.step depth).next? = some next) : next.size < cursor.size := by
  unfold step at found
  split at found
  · simp [Step.next?] at found
  · rename_i c tail front
    have shorter {rest : List Char} (less : rest.length < (c :: tail).length) :
        ({ cursor with rest } : Cursor).size < cursor.size := by
      simpa [Cursor.size, front] using less
    dsimp only at found
    split at found
    · rename_i starts
      cases found
      exact shorter (number_lossless.length_rest_lt (number_ne_nil starts))
    · split at found
      · rename_i starts
        have less := shorter ((Munch.many_lossless _).length_rest_lt (name_ne_nil starts))
        split at found
        · exact Nat.lt_trans (stringStep_size found) less
        · cases found
          exact less
      · split at found
        · rename_i continued
          split at found
          · rename_i line below lines
            cases found
            simp [Cursor.size, Cursor.start, linesSize, front, lines]
          · simp [Step.next?] at found
        · split at found
          · simp [Step.next?] at found
          · split at found
            · cases found
              exact shorter (by simp)
            · split at found
              · exact stringStep_size found
              · split at found
                · cases found
                  exact shorter (by rw [List.length_drop, List.length_cons]; omega)
                · cases found
                  exact shorter (operator_lossless.length_rest_lt operator_ne_nil)

/-- What scanning a line gives: its tokens, and the state behind it. -/
structure Scanned where
  /-- The tokens, in order. -/
  tokens : List Token
  /-- The number of the last line that was read. -/
  line : Nat
  /-- The lines that have not been read. -/
  below : List Line
  /-- The bracket depth. -/
  depth : Nat

/-- A fault inside a line. -/
structure LineFault where
  /-- The cause. -/
  cause : Cause
  /-- The line of the lexeme in which it was met. -/
  line : Nat
  /-- What the scan has given before it breaks off. -/
  scanned : Scanned

/-- What a line gives behind a token, with this token in front. -/
def consToken (token : Token) : Except LineFault Scanned → Except LineFault Scanned
  | .ok scanned => .ok { scanned with tokens := token :: scanned.tokens }
  | .error fault =>
    .error { fault with
      scanned := { fault.scanned with tokens := token :: fault.scanned.tokens } }

/-- The tokens from a cursor to the end of the line that it runs on into. -/
def scanTokens (cursor : Cursor) (depth : Nat) : Except LineFault Scanned :=
  match _found : cursor.step depth with
  | .token token next depth => consToken token (scanTokens next depth)
  | .skip next => scanTokens next depth
  | .last token => .ok ⟨token.toList, cursor.line.number, cursor.below, depth⟩
  | .fault cause place =>
    .error ⟨cause, cursor.line.number, ⟨[], place.line.number, place.below, depth⟩⟩
termination_by cursor.size
decreasing_by
  · exact Cursor.step_size (by rw [_found]; rfl)
  · exact Cursor.step_size (by rw [_found]; rfl)

/-- The state of a scan between two tokens. -/
structure Scanner where
  /-- The name of the file. -/
  file : String
  /-- The lines that have not been read. -/
  below : List Line
  /-- The number of the last line that was read. -/
  line : Nat
  /-- The widths of the open blocks, the innermost first. The width zero outside all blocks is
  not written. -/
  indents : List Nat
  /-- The number of open brackets. -/
  depth : Nat
  /-- The tokens that are ready. -/
  pending : List Token
  /-- No more lines are scanned. -/
  finished : Bool
  deriving Inhabited

/-- The name of a file that has none. -/
def unknownFile : String := "<unknown>"

namespace Scanner

/-- A scan of the given lines, before the first token. -/
def start (lines : List String) (file : Option String) : Scanner where
  file := file.getD unknownFile
  below := Line.read lines
  line := 0
  indents := []
  depth := 0
  pending := []
  finished := false

/-- The width of the innermost open block. -/
def width (scanner : Scanner) : Nat :=
  scanner.indents.headD 0

/-- The end of the input: the open blocks close, and the end mark follows. -/
def finish (scanner : Scanner) : Scanner :=
  let dedents := scanner.indents.map fun _ => (⟨.dedent, "", scanner.line, ""⟩ : Token)
  { scanner with
    indents := []
    pending := dedents ++ [.endMarker scanner.line]
    finished := true }

/-- The marks of a line that starts at a width, and the blocks that are open behind them. A greater
width opens a block and a smaller one closes all blocks that are wider; then a block of just that
width must be open. If there is none, the wider blocks are closed nevertheless. -/
def trackIndent (indents : List Nat) (width : Nat) (cursor : Cursor) :
    Except (Cause × List Token × List Nat) (List Token × List Nat) :=
  if indents.headD 0 < width then
    .ok ([cursor.token .indent (cursor.line.text.toList.take width)], width :: indents)
  else
    let marks := (indents.takeWhile (width < ·)).map fun _ => cursor.token .dedent []
    let kept := indents.dropWhile (width < ·)
    if kept.headD 0 = width then .ok (marks, kept)
    else .error (.inconsistentDedent width, marks, kept)

/-- A line without statements: nothing or a form feed, or a comment, behind the indentation. -/
def idleTokens? (cursor : Cursor) : Option (List Token) :=
  let softBreak := cursor.token .softBreak ['\n']
  if cursor.rest = ['\n'] || cursor.rest = ['\x0c', '\n'] then some [softBreak]
  else if cursor.rest.head? = some '#' then
    some [cursor.token .comment (trimEnd (· == '\n') cursor.rest), softBreak]
  else none

/-- The state behind the tokens of a line that starts with marks and is scanned in blocks. -/
def behindTokens (scanner : Scanner) (marks : List Token) (indents : List Nat) (scanned : Scanned) :
    Scanner :=
  { scanner with
    below := scanned.below
    line := scanned.line
    indents
    depth := scanned.depth
    pending := marks ++ scanned.tokens }

/-- Scan the next line and the lines that it runs on into. A fault comes with the state in which it
was met: the tokens of the line before it are ready. -/
def scanLine (scanner : Scanner) : Except (Fault × Scanner) Scanner :=
  match scanner.below with
  | [] => .ok scanner.finish
  | line :: below =>
    let text := line.text.toList
    let cursor : Cursor := ⟨line, text.dropWhile isIndent, below⟩
    let width := (text.takeWhile isIndent).length
    let failed (cause : Cause) (number : Nat) : Fault := ⟨cause, ⟨number, scanner.file⟩⟩
    match idleTokens? cursor with
    | some tokens => .ok { scanner with below, line := line.number, pending := tokens }
    | none =>
      let tracked :=
        if scanner.depth = 0 then trackIndent scanner.indents width cursor
        else .ok ([], scanner.indents)
      match tracked with
      | .error (cause, marks, indents) =>
        .error (failed cause line.number,
          scanner.behindTokens marks indents ⟨[], line.number, below, scanner.depth⟩)
      | .ok (marks, indents) =>
        match scanTokens cursor scanner.depth with
        | .error fault =>
          .error (failed fault.cause fault.line, scanner.behindTokens marks indents fault.scanned)
        | .ok scanned => .ok (scanner.behindTokens marks indents scanned)

/-- The state behind a fault: the tokens that are ready are lost, and no more lines are scanned. -/
def stop (scanner : Scanner) : Scanner :=
  { scanner with pending := [], finished := true }

/-- The next token or the fault that ends the scan, and the state behind it. Every line that is
scanned makes at least one token ready. -/
def next (scanner : Scanner) : Option (Except Fault Token) × Scanner :=
  match scanner.pending with
  | token :: pending => (some (.ok token), { scanner with pending })
  | [] =>
    if scanner.finished then (none, scanner)
    else match scanner.scanLine with
      | .error (fault, left) => (some (.error fault), left.stop)
      | .ok scanned =>
        match scanned.pending with
        | token :: pending => (some (.ok token), { scanned with pending })
        | [] => (none, scanned)

end Scanner

/-- The tokens of an input up to its end or its first fault. -/
structure Stream where
  /-- The tokens, in order. -/
  tokens : List Token
  /-- The fault behind them. -/
  failure : Option Fault
  deriving Inhabited

namespace Scanner

/-- All tokens that are left, and the state behind them. The first argument bounds the number of
lines that are scanned. -/
def drain : Nat → Scanner → Stream × Scanner
  | 0, scanner => (⟨scanner.pending, none⟩, { scanner with pending := [] })
  | bound + 1, scanner =>
    if scanner.finished then (⟨scanner.pending, none⟩, { scanner with pending := [] })
    else
      let idle := { scanner with pending := [] }
      match idle.scanLine with
      | .error (fault, left) => (⟨scanner.pending, some fault⟩, left.stop)
      | .ok scanned =>
        let (stream, done) := drain bound scanned
        ({ stream with tokens := scanner.pending ++ stream.tokens }, done)

/-- All tokens that are left, and the state behind them. Each scan but the one at the end of the
input reads a line. -/
def run (scanner : Scanner) : Stream × Scanner :=
  scanner.drain (scanner.below.length + 2)

end Scanner

namespace Stream

/-- The tokens of lines. -/
def ofLines (lines : List String) (file : Option String) : Stream :=
  (Scanner.start lines file).run.1

/-- The tokens of a source text. -/
def ofSource (source : String) (file : Option String) : Stream :=
  ofLines (physicalLines source) file

/-- A stream of the given tokens. -/
def ofTokens (tokens : List Token) : Stream :=
  ⟨tokens, none⟩

/-- All tokens of a stream, if no fault ends it. -/
def toExcept (stream : Stream) : Except Fault (List Token) :=
  match stream.failure with
  | none => .ok stream.tokens
  | some fault => .error fault

end Stream

/-- The tokens of a source text, or the first fault in it. -/
def tokenize (source : String) (file : Option String) : Except Fault (List Token) :=
  (Stream.ofSource source file).toExcept

end Offside
