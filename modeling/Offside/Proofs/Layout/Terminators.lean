import Offside.Proofs.Layout.Positions
import Offside.Proofs.Layout.Splices

/-!
# Terminators of lines

The lines of a source text are read from its normalized text, up to whether the last of them came
with a terminator (`read_of_normalizeText`). So a carriage return before each line feed leaves them
as they are (`read_returnBreaks`), and so does a line feed at the end of the last line, up to its
flag (`read_feed`). What a scan finds in lines with and without the flag differs in the texts of the
ends of lines only (`Stream.ofSource_feed`).
-/
namespace Offside

open Text Lexeme

/-- A text with a carriage return before each line feed. -/
def returnBreaks (text : List Char) : List Char :=
  text.flatMap fun c => if c = '\n' then ['\r', '\n'] else [c]

section texts

/-- The carriage returns go when the line ends are unified. -/
theorem unifyBreaks_returnBreaks {text : List Char} (plain : '\r' ∉ text) :
    unifyBreaks (returnBreaks text) = text := by
  induction text with
  | nil => rfl
  | cons c rest ih =>
    rw [List.mem_cons, not_or] at plain
    obtain ⟨here, later⟩ := plain
    by_cases breaks : c = '\n'
    · subst breaks
      show '\n' :: unifyBreaks (returnBreaks rest) = _
      rw [ih later]
    · have single : returnBreaks (c :: rest) = c :: returnBreaks rest := by
        rw [returnBreaks, List.flatMap_cons, if_neg breaks]
        rfl
      rw [single, unifyBreaks_cons, if_neg fun returns => here returns.1.symm, ih later]

/-- A text without carriage returns has unified line ends. -/
theorem unifyBreaks_plain {text : List Char} (plain : '\r' ∉ text) : unifyBreaks text = text := by
  induction text with
  | nil => rfl
  | cons c rest ih =>
    rw [List.mem_cons, not_or] at plain
    obtain ⟨here, later⟩ := plain
    rw [unifyBreaks_cons, if_neg fun returns => here returns.1.symm, ih later]

/-- The last character stays with a carriage return before each line feed. -/
theorem returnBreaks_getLast? (text : List Char) :
    (returnBreaks text).getLast? = text.getLast? := by
  induction text with
  | nil => rfl
  | cons c rest ih =>
    rw [returnBreaks, List.flatMap_cons, List.getLast?_append, List.getLast?_cons]
    show (returnBreaks rest).getLast?.or _ = _
    rw [ih]
    by_cases breaks : c = '\n'
    · rw [if_pos breaks, breaks]
      cases rest.getLast? <;> rfl
    · rw [if_neg breaks]
      cases rest.getLast? <;> rfl

/-- A carriage return before each line feed leaves the normalized text as it is. -/
theorem normalizeText_returnBreaks {text : List Char} (plain : '\r' ∉ text) :
    normalizeText (returnBreaks text) = normalizeText text := by
  have empty : returnBreaks text = [] ↔ text = [] := by
    rw [← List.getLast?_eq_none_iff, returnBreaks_getLast?, List.getLast?_eq_none_iff]
  rw [normalizeText, normalizeText, unifyBreaks_returnBreaks plain, unifyBreaks_plain plain,
    returnBreaks_getLast?]
  simp only [empty]

/-- A line feed at the end of a last line leaves the normalized text as it is. -/
theorem normalizeText_concat {text : List Char} {last : Char} (ends : text.getLast? = some last)
    (unbroken : last ≠ '\n') (plain : last ≠ '\r') :
    normalizeText (text ++ ['\n']) = normalizeText text := by
  have whole : text.getLast? = some '\r' → ['\n'].head? ≠ some '\n' :=
    fun returns => absurd (Option.some.inj (ends.symm.trans returns)) plain
  have open_ : ¬(text = [] ∨ text.getLast? = some '\n') := by
    rintro (empty | breaks)
    · rw [empty] at ends
      contradiction
    · exact unbroken (Option.some.inj (ends.symm.trans breaks))
  rw [normalizeText_append (List.cons_ne_nil _ _) whole, normalizeText.eq_def text, if_neg open_]
  rfl

end texts

/-- A line that came with a terminator. -/
def Line.ended (line : Line) : Line :=
  { line with bare := false }

section lines

variable {bare : Bool}

/-- Lines as they are read are told by their text and their number. -/
theorem SoundLines.ext {last : Nat} {lines others : List Line} (sound : SoundLines bare lines)
    (otherSound : SoundLines bare others) (numbered : Line.Numbered last lines)
    (otherNumbered : Line.Numbered last others) (same : linesText others = linesText lines) :
    others = lines := by
  have beside := LinesBeside.of_text sound otherSound same
  clear sound otherSound same
  induction beside with
  | nil => rfl
  | seam some_ => exact absurd rfl some_
  | @cons line other below otherBelow text flag _ ih =>
    obtain rfl := ih numbered.2 otherNumbered.2
    have number : other.number = line.number :=
      Nat.add_right_cancel (otherNumbered.1.trans numbered.1.symm)
    cases line
    cases other
    simp_all

/-- With the same normalized text and the same end the same lines are read. -/
theorem read_of_normalizeText {source other : String}
    (same : normalizeText other.toList = normalizeText source.toList)
    (ends : Spot.endsBare other.toList = Spot.endsBare source.toList) :
    Line.read (physicalLines other) = Line.read (physicalLines source) := by
  have sound := Spot.start_sound source
  have otherSound := Spot.start_sound other
  rw [ends] at otherSound
  have text : linesText (Line.read (physicalLines other)) =
      linesText (Line.read (physicalLines source)) := by
    rw [linesText_physicalLines, linesText_physicalLines, same]
  have count : (physicalLines other).length = (physicalLines source).length := by
    rw [← (read_numbered other).2, ← (read_numbered source).2, ← SoundLines.count_break sound,
      ← SoundLines.count_break otherSound, text]
  have otherNumbered := (read_numbered other).1
  rw [count] at otherNumbered
  exact SoundLines.ext sound otherSound (read_numbered source).1 otherNumbered text

/-- A carriage return before each line feed leaves the lines as they are. -/
theorem read_returnBreaks {source : String} (plain : '\r' ∉ source.toList) :
    Line.read (physicalLines (.ofList (returnBreaks source.toList))) =
      Line.read (physicalLines source) := by
  apply read_of_normalizeText
  · rw [String.toList_ofList, normalizeText_returnBreaks plain]
  · rw [String.toList_ofList, Spot.endsBare, Spot.endsBare, returnBreaks_getLast?]

/-- Lines that came with terminators hold the same text. -/
theorem linesText_ended (lines : List Line) : linesText (lines.map Line.ended) = linesText lines :=
  List.flatMap_map ..

/-- Lines that came with terminators are sound if the lines are. -/
theorem SoundLines.ended {lines : List Line} (sound : SoundLines bare lines) :
    SoundLines false (lines.map Line.ended) := by
  apply SoundLines.of_ended
  intro line member
  obtain ⟨own, within, rfl⟩ := List.mem_map.1 member
  exact ⟨sound.whole own within, rfl⟩

/-- Lines that came with terminators have the same numbers. -/
theorem Line.Numbered.ended {last : Nat} {lines : List Line} (numbered : Numbered last lines) :
    Numbered last (lines.map Line.ended) := by
  induction lines with
  | nil => trivial
  | cons line below ih =>
    refine ⟨?_, ih numbered.2⟩
    rw [List.length_map]
    exact numbered.1

/-- A line feed at the end of the last line makes it a line that came with a terminator. -/
theorem read_feed {source : String} {last : Char} (ends : source.toList.getLast? = some last)
    (unbroken : last ≠ '\n') (plain : last ≠ '\r') :
    Line.read (physicalLines (source ++ "\n")) =
      (Line.read (physicalLines source)).map Line.ended := by
  have sound : SoundLines (Spot.endsBare (source ++ "\n").toList)
      (Line.read (physicalLines (source ++ "\n"))) := Spot.start_sound (source ++ "\n")
  have ended : Spot.endsBare (source ++ "\n").toList = false := by
    have feed : "\n".toList = ['\n'] := rfl
    rw [Spot.endsBare, String.toList_append, feed, List.getLast?_concat]
    rfl
  rw [ended] at sound
  have onceSound : SoundLines _ (Line.read (physicalLines source)) := Spot.start_sound source
  have text : linesText (Line.read (physicalLines (source ++ "\n"))) =
      linesText ((Line.read (physicalLines source)).map Line.ended) := by
    rw [linesText_ended, linesText_physicalLines, linesText_physicalLines, String.toList_append]
    exact normalizeText_concat ends unbroken plain
  have count : (physicalLines (source ++ "\n")).length = (physicalLines source).length := by
    rw [← (read_numbered (source ++ "\n")).2, ← (read_numbered source).2,
      ← SoundLines.count_break sound, text, SoundLines.count_break onceSound.ended, List.length_map]
  have numbered := (read_numbered (source ++ "\n")).1
  rw [count] at numbered
  exact SoundLines.ext onceSound.ended sound (read_numbered source).1.ended numbered text

end lines

/-- A token from a line that came with a terminator: the end of the line is written as a line
feed. -/
def Token.ended (token : Token) : Token :=
  if token.kind = .newline ∨ token.kind = .softBreak then { token with value := "\n" } else token

/-- The kind of a token is the same. -/
theorem Token.ended_kind (token : Token) : token.ended.kind = token.kind := by
  rw [ended]
  split <;> rfl

/-- A place in lines that came with terminators. -/
def Cursor.ended (cursor : Cursor) : Cursor :=
  ⟨cursor.line.ended, cursor.rest, cursor.below.map Line.ended⟩

/-- A step in lines that came with terminators. -/
def Step.ended : Step → Step
  | .token found next depth => .token found.ended next.ended depth
  | .skip next => .skip next.ended
  | .last found => .last (found.map Token.ended)
  | .fault cause place => .fault cause place.ended

/-- What scanning a line gives in lines that came with terminators. -/
def Scanned.ended (scanned : Scanned) : Scanned :=
  ⟨scanned.tokens.map Token.ended, scanned.line, scanned.below.map Line.ended, scanned.depth⟩

/-- A fault in lines that came with terminators. -/
def LineFault.ended (fault : LineFault) : LineFault :=
  { fault with scanned := fault.scanned.ended }

/-- A scan of lines that came with terminators. -/
def Scanner.ended (scanner : Scanner) : Scanner :=
  { scanner with
    below := scanner.below.map Line.ended
    pending := scanner.pending.map Token.ended }

/-- The tokens of lines that came with terminators. -/
def Stream.ended (stream : Stream) : Stream :=
  { stream with tokens := stream.tokens.map Token.ended }

section scan

/-- The rest of a string literal does not depend on the terminators of lines. -/
theorem closeString_ended (part : List Char → StringPart) (below : List Line) (line : Line)
    (rest : List Char) :
    closeString part (below.map Line.ended) line.ended rest =
      ((closeString part below line rest).map fun (taken, next) =>
        (taken, next.ended)).mapError Cursor.ended := by
  induction below generalizing line rest with
  | nil =>
    rw [List.map_nil, closeString, closeString]
    cases part rest <;> rfl
  | cons next below ih =>
    rw [List.map_cons, closeString, closeString]
    cases part rest with
    | closed => rfl
    | broken => rfl
    | continued taken =>
      dsimp only
      rw [show next.ended.text = next.text from rfl, ih]
      cases closeString part below next next.text.toList <;> rfl

/-- A string literal does not depend on the terminators of lines. -/
theorem scanString_ended (cursor : Cursor) :
    scanString cursor.ended =
      ((scanString cursor).map fun (taken, next) =>
        (taken, next.ended)).mapError Cursor.ended := by
  obtain ⟨line, rest, below⟩ := cursor
  cases rest with
  | nil => rfl
  | cons quote rest =>
    rw [scanString, scanString, Cursor.ended]
    dsimp only
    rw [closeString_ended, closeString_ended]
    split
    · cases closeString (longPart quote false) below line (rest.drop 2) <;> rfl
    · cases closeString (shortPart quote) below line rest <;> rfl

/-- The step for a string literal does not depend on the terminators of lines. -/
theorem stringStep_ended (start opening : Cursor) (marks : List Char) (depth : Nat) :
    stringStep start.ended marks opening.ended depth =
      (stringStep start marks opening depth).ended := by
  rw [stringStep, stringStep, scanString_ended]
  cases scanString opening with
  | error place => rfl
  | ok found => rfl

/-- A step differs in the text of the end of a line only. -/
theorem Cursor.step_ended (cursor : Cursor) (depth : Nat) :
    cursor.ended.step depth = (cursor.step depth).ended := by
  obtain ⟨line, rest, below⟩ := cursor
  cases rest with
  | nil => rfl
  | cons c tail =>
    cases Lead.of c tail with
    | number starts =>
      rw [ended, step_number starts rfl, step_number starts rfl]
      rfl
    | marked starts opens known =>
      rw [ended, step_letters starts rfl opens known, step_letters starts rfl opens known]
      exact stringStep_ended ⟨line, c :: tail, below⟩ ⟨line, (Lexeme.name (c :: tail)).2, below⟩ _
        depth
    | name starts unmarked =>
      rw [ended, step_word starts rfl unmarked, step_word starts rfl unmarked]
      rfl
    | continued => cases below <;> rfl
    | feed =>
      rw [ended, step_feed, step_feed]
      split <;> rfl
    | blank member =>
      rw [ended, step_blank member, step_blank member]
      rfl
    | quote mark =>
      rw [ended, step_quote mark, step_quote mark]
      exact stringStep_ended ⟨line, c :: tail, below⟩ ⟨line, c :: tail, below⟩ [] depth
    | comment => rfl
    | operator starts =>
      rw [ended, step_operator starts rfl, step_operator starts rfl]
      rfl

/-- The tokens of a line differ in the text of its end only. -/
theorem scanTokens_ended (cursor : Cursor) (depth : Nat) :
    scanTokens cursor.ended depth =
      ((scanTokens cursor depth).map Scanned.ended).mapError LineFault.ended := by
  fun_induction scanTokens cursor depth with
  | case1 cursor depth token next deeper step ih =>
    have other : cursor.ended.step depth = .token token.ended next.ended deeper := by
      rw [Cursor.step_ended, step]
      rfl
    rw [scanTokens_of_token other, ih]
    cases scanTokens next deeper <;> rfl
  | case2 cursor depth next step ih =>
    have other : cursor.ended.step depth = .skip next.ended := by
      rw [Cursor.step_ended, step]
      rfl
    rw [scanTokens_of_skip other, ih]
  | case3 cursor depth token step =>
    have other : cursor.ended.step depth = .last (token.map Token.ended) := by
      rw [Cursor.step_ended, step]
      rfl
    rw [scanTokens_of_last other]
    cases token <;> rfl
  | case4 cursor depth cause place step =>
    have other : cursor.ended.step depth = .fault cause place.ended := by
      rw [Cursor.step_ended, step]
      rfl
    rw [scanTokens_of_fault other]
    rfl

namespace Scanner

/-- The marks of a line mark no end of a line. -/
theorem trackIndent_ended (indents : List Nat) (width : Nat) (cursor : Cursor) :
    trackIndent indents width cursor.ended =
      ((trackIndent indents width cursor).map fun (marks, kept) =>
        (marks.map Token.ended, kept)).mapError fun (cause, marks, kept) =>
          (cause, marks.map Token.ended, kept) := by
  rw [trackIndent, trackIndent]
  by_cases deeper : indents.headD 0 < width
  · rw [if_pos deeper, if_pos deeper]
    rfl
  rw [if_neg deeper, if_neg deeper]
  dsimp only
  have marks (closed : List Nat) : (closed.map fun _ => cursor.token .dedent []).map Token.ended =
      closed.map fun _ => cursor.ended.token .dedent [] := List.map_map
  by_cases fits : (indents.dropWhile (width < ·)).headD 0 = width
  · rw [if_pos fits, if_pos fits, ← marks]
    rfl
  · rw [if_neg fits, if_neg fits, ← marks]
    rfl

/-- The marks at the start of a line do not depend on the terminators of lines. -/
theorem track_ended (scanner : Scanner) (line : Line) (below : List Line) :
    scanner.ended.track line.ended (below.map Line.ended) =
      ((scanner.track line below).map fun (marks, kept) =>
        (marks.map Token.ended, kept)).mapError fun (cause, marks, kept) =>
          (cause, marks.map Token.ended, kept) := by
  rw [track, track]
  by_cases flat : scanner.depth = 0
  · rw [if_pos flat]
    exact (if_pos flat).trans (trackIndent_ended _ _ (behindIndent line below))
  · rw [if_neg flat]
    exact if_neg flat

/-- The tokens of a line without statements do not depend on its terminator. -/
theorem idleTokens?_ended (cursor : Cursor) :
    idleTokens? cursor.ended = (idleTokens? cursor).map (·.map Token.ended) := by
  by_cases empty : (cursor.rest = ['\n'] || cursor.rest = ['\x0c', '\n']) = true
  · rw [idleTokens?, idleTokens?, if_pos empty]
    exact if_pos empty
  by_cases comment : cursor.rest.head? = some '#'
  · rw [idleTokens?, idleTokens?, if_neg empty, if_pos comment]
    exact (if_neg empty).trans (if_pos comment)
  · rw [idleTokens?, idleTokens?, if_neg empty, if_neg comment]
    exact (if_neg empty).trans (if_neg comment)

/-- The end of the input does not depend on the terminators of lines. -/
theorem finish_ended (scanner : Scanner) : scanner.ended.finish = scanner.finish.ended := by
  have marks : (scanner.indents.map fun _ => (⟨.dedent, "", scanner.line, ""⟩ : Token)).map
      Token.ended = scanner.indents.map fun _ => ⟨.dedent, "", scanner.line, ""⟩ := List.map_map
  rw [finish, finish, ended, ended]
  dsimp only
  rw [List.map_append, marks]
  rfl

/-- The state behind the tokens of a line differs in the texts of ends only. -/
theorem behindTokens_ended (scanner : Scanner) (marks : List Token) (indents : List Nat)
    (scanned : Scanned) :
    scanner.ended.behindTokens (marks.map Token.ended) indents scanned.ended =
      (scanner.behindTokens marks indents scanned).ended := by
  rw [behindTokens, ended, behindTokens, ended, List.map_append]
  rfl

/-- A scanned line differs in the text of its end only. -/
theorem scanLine_ended (scanner : Scanner) :
    scanner.ended.scanLine =
      (scanner.scanLine.map Scanner.ended).mapError fun (fault, left) => (fault, left.ended) := by
  have lowered {line : Line} {below : List Line} (lines : scanner.below = line :: below) :
      scanner.ended.below = line.ended :: below.map Line.ended := by
    rw [ended, lines]
    rfl
  have idle (line : Line) (below : List Line) := idleTokens?_ended (behindIndent line below)
  have tokens (line : Line) (below : List Line) :=
    scanTokens_ended (behindIndent line below) scanner.depth
  cases scan : scanner.scanLine with
  | ok scanned =>
    rcases scanLine_ok scan with ⟨bottom, rfl⟩ | ⟨line, below, lines, ⟨made, idles, rfl⟩ |
      ⟨logical, marks, indents, found, tracked, scans, rfl⟩⟩
    · have empty : scanner.ended.below = [] := by
        rw [ended, bottom]
        rfl
      rw [scanLine, empty]
      exact congrArg Except.ok (finish_ended scanner)
    · have idle := idle line below
      rw [idles] at idle
      rw [scanLine_of_idle (lowered lines) idle]
      rfl
    · have idle := idle line below
      have trackedEnded := scanner.track_ended line below
      have tokens := tokens line below
      rw [logical] at idle
      rw [tracked] at trackedEnded
      rw [scans.scanTokens] at tokens
      rw [scanLine_of_logical (lowered lines) idle trackedEnded (scans_of_scanTokens tokens)]
      exact congrArg Except.ok (behindTokens_ended scanner marks indents found)
  | error failed =>
    obtain ⟨fault, left⟩ := failed
    obtain ⟨line, below, lines, logical, ⟨cause, marks, indents, tracked, rfl, rfl⟩ |
      ⟨marks, indents, lower, tracked, failed, rfl, rfl⟩⟩ := scanLine_error scan
    · have idle := idle line below
      have trackedEnded := scanner.track_ended line below
      rw [logical] at idle
      rw [tracked] at trackedEnded
      rw [scanLine_of_mark (lowered lines) idle trackedEnded]
      exact congrArg (fun left => Except.error (_, left))
        (behindTokens_ended scanner marks indents ⟨[], line.number, below, scanner.depth⟩)
    · have idle := idle line below
      have trackedEnded := scanner.track_ended line below
      have tokens := tokens line below
      rw [logical] at idle
      rw [tracked] at trackedEnded
      rw [failed] at tokens
      rw [scanLine_of_tokens (lowered lines) idle trackedEnded tokens]
      exact congrArg (fun left => Except.error (_, left))
        (behindTokens_ended scanner marks indents lower.scanned)

/-- A fault ends what is drained. -/
theorem drain_of_fault {scanner left : Scanner} {fault : Fault}
    (going : scanner.finished = false)
    (scan : scanner.idle.scanLine = .error (fault, left)) (bound : Nat) :
    (scanner.drain (bound + 1)).1 = ⟨scanner.pending, some fault⟩ := by
  rw [drain, if_neg (by simp [going])]
  dsimp only
  rw [← idle, scan]

/-- What a line makes is drained in front of what is below. -/
theorem drain_of_line {scanner scanned : Scanner} (going : scanner.finished = false)
    (scan : scanner.idle.scanLine = .ok scanned) (bound : Nat) :
    (scanner.drain (bound + 1)).1 =
      ⟨scanner.pending ++ (scanned.drain bound).1.tokens, (scanned.drain bound).1.failure⟩ := by
  rw [drain, if_neg (by simp [going])]
  dsimp only
  rw [← idle, scan]

/-- All scanned lines differ in the texts of their ends only. -/
theorem drain_ended (bound : Nat) (scanner : Scanner) :
    (scanner.ended.drain bound).1 = (scanner.drain bound).1.ended := by
  induction bound generalizing scanner with
  | zero => rfl
  | succ bound ih =>
    cases state : scanner.finished with
    | true =>
      have otherState : scanner.ended.finished = true := state
      rw [drain_of_finished state, drain_of_finished otherState]
      rfl
    | false =>
      have going : scanner.ended.finished = false := state
      have lines := scanLine_ended scanner.idle
      have lines : scanner.ended.idle.scanLine = _ := lines
      cases scan : scanner.idle.scanLine with
      | error failed =>
        obtain ⟨fault, left⟩ := failed
        rw [scan] at lines
        rw [drain_of_fault state scan, drain_of_fault going lines]
        rfl
      | ok scanned =>
        rw [scan] at lines
        have tokens : (scanner.pending ++ (scanned.drain bound).1.tokens).map Token.ended =
            scanner.ended.pending ++ (scanned.drain bound).1.ended.tokens := List.map_append
        rw [drain_of_line state scan, drain_of_line going lines, ih scanned, ← tokens]
        rfl

end Scanner

end scan

/-- The tokens of a text are the same with a line feed at the end of its last line, but for the text
of that end. -/
theorem Stream.ofSource_feed {source : String} {last : Char}
    (ends : source.toList.getLast? = some last) (unbroken : last ≠ '\n') (plain : last ≠ '\r')
    (file : Option String) :
    Stream.ofSource (source ++ "\n") file = (Stream.ofSource source file).ended := by
  have start : Scanner.start (physicalLines (source ++ "\n")) file =
      (Scanner.start (physicalLines source) file).ended := by
    rw [Scanner.start, read_feed ends unbroken plain]
    rfl
  have bound : (Scanner.start (physicalLines source) file).ended.below.length =
      (Scanner.start (physicalLines source) file).below.length := List.length_map _
  rw [ofSource, ofLines, Scanner.run, start, bound]
  exact Scanner.drain_ended _ _

/-- The tokens of a text are the same with a carriage return before each line feed. -/
theorem Stream.ofSource_returnBreaks {source : String} (plain : '\r' ∉ source.toList)
    (file : Option String) :
    Stream.ofSource (.ofList (returnBreaks source.toList)) file = Stream.ofSource source file := by
  rw [ofSource, ofSource, ofLines, ofLines, Scanner.start, read_returnBreaks plain]
  rfl

end Offside
