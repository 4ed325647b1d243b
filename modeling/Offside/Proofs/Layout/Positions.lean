import Offside.Proofs.Layout.Places
import Offside.Proofs.Layout.Splices
import Offside.Report

/-!
# Positions of tokens

The lines of a text are numbered one by one, so the number of a line and the number of lines below
it tell each other (`Line.Numbered`). A place of a scan has as many line feeds behind it as lines,
and from there each token is found on the line on which it starts (`SpelledBelow`,
`Spot.Step.spellsBelow`, `Spot.Comes.spellsBelow`). The line of a token and its raw line are those
of a line that was read (`Spot.Comes.reads`), and so is the line of a fault of the scan
(`Scanner.Run.fault_reads`).
-/
namespace Offside

open Text

/-- Lines are numbered one by one up to the last number. -/
def Line.Numbered (last : Nat) : List Line → Prop
  | [] => True
  | line :: below => line.number + below.length = last ∧ Numbered last below

section lines

variable {last : Nat}

/-- Lines at the end of numbered lines are numbered. -/
theorem Line.Numbered.suffix {lines lower : List Line} (numbered : Numbered last lines)
    (within : lower <:+ lines) : Numbered last lower := by
  induction lines with
  | nil =>
    obtain rfl := List.suffix_nil.1 within
    exact numbered
  | cons line below ih =>
    rcases List.suffix_cons_iff.1 within with rfl | within
    · exact numbered
    · exact ih numbered.2 within

/-- The number of a line is at most the last one. -/
theorem Line.Numbered.le_last {lines : List Line} (numbered : Numbered last lines) :
    ∀ line ∈ lines, line.number ≤ last ∧ last < line.number + lines.length := by
  intro line member
  induction lines with
  | nil => exact absurd member List.not_mem_nil
  | cons first below ih =>
    rw [List.length_cons]
    rcases List.mem_cons.1 member with rfl | later
    · have here := numbered.1
      omega
    · have bounds := ih numbered.2 later
      omega

/-- Lines that follow some lines are numbered from there on. -/
theorem Line.follow_numbered {raws : List String} (filled : ∀ raw ∈ raws, raw ≠ "") (count : Nat)
    (bare : Bool) :
    Numbered (count + raws.length) (follow count bare raws) ∧
      (follow count bare raws).length = raws.length := by
  induction raws generalizing count bare with
  | nil => exact ⟨trivial, rfl⟩
  | cons raw later ih =>
    obtain ⟨here, below⟩ := List.forall_mem_cons.1 filled
    rw [follow, if_neg here]
    obtain ⟨numbered, length⟩ := ih below (count + 1) (bare || !(normalizeLine raw.toList).2)
    have total : count + (raw :: later).length = count + 1 + later.length := by
      rw [List.length_cons]
      omega
    refine ⟨⟨?_, ?_⟩, by rw [List.length_cons, List.length_cons, length]⟩
    · rw [total]
      exact congrArg (count + 1 + ·) length
    · rwa [total]

/-- The text of a line with a number is the line of this number, terminated. -/
theorem Line.follow_text {raws : List String} (count : Nat) (bare : Bool) :
    ∀ line ∈ follow count bare raws, count < line.number ∧
      ∃ raw, raws[line.number - (count + 1)]? = some raw ∧
        line.text = .ofList (normalizeLine raw.toList).1 := by
  induction raws generalizing count bare with
  | nil => exact fun line member => absurd member List.not_mem_nil
  | cons raw later ih =>
    rw [follow]
    split
    · exact fun line member => absurd member List.not_mem_nil
    · refine List.forall_mem_cons.2 ⟨⟨Nat.lt_succ_self count, raw, ?_, rfl⟩, ?_⟩
      · rw [Nat.sub_self]
        rfl
      · intro line member
        obtain ⟨lower, found, at_, text⟩ := ih _ _ line member
        have index : line.number - (count + 1) = line.number - (count + 1 + 1) + 1 := by omega
        refine ⟨Nat.lt_of_succ_lt lower, found, ?_, text⟩
        rw [index, List.getElem?_cons_succ]
        exact at_

/-- The lines of a source text are numbered up to their number. -/
theorem read_numbered (source : String) :
    Line.Numbered (physicalLines source).length (Line.read (physicalLines source)) ∧
      (Line.read (physicalLines source)).length = (physicalLines source).length := by
  have numbered := Line.follow_numbered (physicalLines_filled source) 0 false
  rwa [Nat.zero_add] at numbered

/-- The end of a line that is dropped does not depend on how the line is terminated. -/
theorem trimEnd_normalizeLine (raw : List Char) :
    trimEnd (fun c => c == '\n' || c == '\r') (normalizeLine raw).1 =
      trimEnd (fun c => c == '\n' || c == '\r') raw := by
  unfold normalizeLine
  split
  · rename_i rest reversed
    rw [trimEnd, trimEnd, reversed, List.reverse_append, List.reverse_reverse]
    rfl
  · rfl
  · rw [trimEnd, trimEnd, List.reverse_append]
    rfl

/-- A source text that is not empty has a line. -/
theorem physicalLines_pos {source : String} (some_ : source ≠ "") :
    0 < (physicalLines source).length := by
  refine List.length_pos_of_ne_nil fun none_ => some_ ?_
  have whole := flatten_splitLines source.toList
  rw [List.map_eq_nil_iff.1 none_] at whole
  exact String.toList_eq_nil_iff.1 whole.symm

/-- Sound lines hold as many line feeds as there are lines. -/
theorem SoundLines.count_break {bare : Bool} {lines : List Line} (sound : SoundLines bare lines) :
    (linesText lines).count '\n' = lines.length := by
  induction lines with
  | nil => rfl
  | cons line below ih =>
    obtain ⟨body, text, unbroken⟩ := sound.body
    rw [linesText_cons, text, List.count_append, List.count_append, ih sound.2,
      List.count_eq_zero.2 unbroken, List.length_cons, List.count_singleton_self]
    omega

end lines

/-- A text behind some line feeds is written by tokens, each behind a gap and on the line on which
it starts. -/
inductive SpelledBelow : Nat → List Token → List Char → Prop where
  /-- Nothing is written by no tokens. -/
  | nil {above : Nat} : SpelledBelow above [] []
  /-- A gap, a token and what is written behind it. The line of the token is one more than the
  number of line feeds in front of it. -/
  | cons {above : Nat} (gap : List Char) (token : Token) {tokens : List Token} {text : List Char}
      (blank : isGap gap = true) (place : token.line = above + gap.count '\n' + 1)
      (later : SpelledBelow (above + (gap ++ token.written).count '\n') tokens text) :
      SpelledBelow above (token :: tokens) (gap ++ token.written ++ text)

namespace SpelledBelow

variable {above : Nat} {tokens : List Token} {text : List Char}

/-- The lines of tokens do not decrease, and lie between the line on which the text starts and the
one on which it ends. -/
theorem ordered (spelled : SpelledBelow above tokens text) :
    tokens.Pairwise (fun upper lower => upper.line ≤ lower.line) ∧
      ∀ token ∈ tokens, above < token.line := by
  induction spelled with
  | nil => exact ⟨.nil, fun token member => absurd member List.not_mem_nil⟩
  | cons gap token blank place later ih =>
    rw [List.count_append] at ih
    refine ⟨List.pairwise_cons.2 ⟨fun lower member => ?_, ih.1⟩, ?_⟩
    · have below := ih.2 lower member
      omega
    · refine List.forall_mem_cons.2 ⟨by omega, fun lower member => ?_⟩
      have below := ih.2 lower member
      omega

/-- Marks of the layout stand on the line that follows. -/
theorem marks {marks : List Token}
    (bare : ∀ token ∈ marks, token.written = [] ∧ token.line = above + 1)
    (later : SpelledBelow above tokens text) : SpelledBelow above (marks ++ tokens) text := by
  induction marks with
  | nil => exact later
  | cons token marks ih =>
    obtain ⟨⟨written, place⟩, rest⟩ := List.forall_mem_cons.1 bare
    have spelled := cons [] token rfl place (by rw [written]; exact ih rest)
    rwa [written] at spelled

/-- A token behind a gap, where the number of line feeds in the text tells on which line the tokens
behind it start. -/
theorem behind_gap {last : Nat} {token : Token} {gap lower : List Char}
    (blank : isGap gap = true) (whole : text = gap ++ token.written ++ lower)
    (place : token.line = above + gap.count '\n' + 1) (counts : above + text.count '\n' = last)
    (later : ∀ below, below + lower.count '\n' = last → SpelledBelow below tokens lower) :
    SpelledBelow above (token :: tokens) text := by
  subst whole
  refine cons gap token blank place (later _ ?_)
  rw [← counts, Nat.add_assoc, ← List.count_append]

end SpelledBelow

/-- The tokens of a line without statements stand on it. -/
theorem Scanner.idleTokens_spelledBelow {cursor : Cursor} {above : Nat} {tokens more : List Token}
    {gap : List Char} (terminated : cursor.line.Terminated) (unbroken : cursor.line.Unbroken)
    (inside : cursor.Inside) (found : idleTokens? cursor = some tokens) (blank : isGap gap = true)
    (avoids : '\n' ∉ gap) (place : cursor.line.number = above + 1)
    (later : SpelledBelow (above + 1) more (linesText cursor.below)) :
    SpelledBelow above (tokens ++ more) (gap ++ cursor.text) := by
  have flat := List.count_eq_zero.2 avoids
  cases idles_of_idleTokens? found with
  | blank front =>
    rcases front with front | front
    · have spelled := SpelledBelow.cons gap (cursor.token .softBreak ['\n']) blank
        (by rw [flat]; exact place) (by simpa [Cursor.token, Token.written, flat] using later)
      simpa [Cursor.text, front, Cursor.token, Token.written] using spelled
    · have wide : isGap (gap ++ ['\x0c']) = true := isGap_append blank rfl
      have spelled := SpelledBelow.cons (gap ++ ['\x0c']) (cursor.token .softBreak ['\n']) wide
        (by rw [List.count_append, flat]; exact place)
        (by simpa [Cursor.token, Token.written, flat] using later)
      simpa [Cursor.text, front, Cursor.token, Token.written] using spelled
  | comment =>
    obtain ⟨body, front, solid⟩ := inside.body terminated unbroken
    have empty := List.count_eq_zero.2 solid
    have comment : (cursor.token .comment (trimEnd (· == '\n') cursor.rest)).written = body := by
      rw [Cursor.written_token _ rfl, front, trimEnd_break solid]
    have ending := SpelledBelow.cons [] (cursor.token .softBreak ['\n']) rfl place
      (by simpa [Cursor.token, Token.written] using later)
    have spelled := SpelledBelow.cons gap
      (cursor.token .comment (trimEnd (· == '\n') cursor.rest)) blank
      (by rw [flat]; exact place)
      (by rw [comment, List.count_append, flat, empty]; exact ending)
    rw [comment] at spelled
    simpa [Cursor.text, front, Cursor.token, Token.written] using spelled

namespace Spot

variable {bare : Bool} {last : Nat} {before behind : Spot} {found tokens : List Token}

/-- The lines that stand at a place or below it. -/
def lines : Spot → List Line
  | .line below .. => below
  | .inside cursor .. => cursor.lines

/-- The lines at a place are numbered, and below the line that was read last. -/
def Numbered (last : Nat) : Spot → Prop
  | .line below number .. => number + below.length = last ∧ Line.Numbered last below
  | .inside cursor .. => Line.Numbered last cursor.lines

/-- Behind a place there are as many line feeds as lines. -/
theorem Sound.count_break {spot : Spot} (sound : spot.Sound bare) :
    spot.text.count '\n' = spot.lines.length := by
  cases spot with
  | line => exact SoundLines.count_break sound
  | inside cursor =>
    obtain ⟨inside, sound⟩ := sound
    have whole := sound.whole cursor.line List.mem_cons_self
    obtain ⟨body, rest, unbroken⟩ := inside.body whole.1 whole.2
    show cursor.text.count '\n' = (cursor.line :: cursor.below).length
    rw [Cursor.text, rest, List.count_append, List.count_append, sound.2.count_break,
      List.count_eq_zero.2 unbroken, List.count_singleton_self, List.length_cons]
    omega

/-- The lines of a source text are numbered up to their number. -/
theorem start_numbered (source : String) :
    (start source).Numbered (physicalLines source).length := by
  obtain ⟨numbered, length⟩ := read_numbered source
  exact ⟨by rw [Nat.zero_add, length], numbered⟩

/-- A step leads to lines that were not behind the place, and keeps their numbers. -/
theorem Step.numbered (step : Step before found behind) (sound : before.Sound bare)
    (numbered : before.Numbered last) : behind.lines <:+ before.lines ∧ behind.Numbered last := by
  cases step with
  | idle =>
    obtain ⟨-, here, below⟩ := numbered
    exact ⟨List.suffix_cons _ _, here, below⟩
  | enter => exact ⟨List.suffix_refl _, numbered.2⟩
  | token step | skip step =>
    obtain ⟨inside, sound⟩ := sound
    have within := (Cursor.step_inside (fun line member => (sound.whole line member).1) inside
      (by rw [step]; rfl)).2
    exact ⟨within, Line.Numbered.suffix numbered within⟩
  | last => exact ⟨List.suffix_cons _ _, numbered⟩

/-- The tokens of a step stand on a line that was not behind the place, and hold its text. -/
theorem Step.reads (step : Step before found behind) :
    ∀ token ∈ found, ∃ line ∈ before.lines,
      token.line = line.number ∧ token.rawLine = line.text := by
  cases step with
  | @idle line below number depth indents tokens idles =>
    intro token member
    refine ⟨line, List.mem_cons_self, ?_⟩
    cases Scanner.idles_of_idleTokens? idles with
    | blank =>
      obtain rfl := List.mem_singleton.1 member
      exact ⟨rfl, rfl⟩
    | comment =>
      rcases List.mem_cons.1 member with rfl | member
      · exact ⟨rfl, rfl⟩
      · obtain rfl := List.mem_singleton.1 member
        exact ⟨rfl, rfl⟩
  | @enter line below number depth indents kept marks logical tracked =>
    intro token member
    obtain ⟨_, _, -, rfl⟩ := track_token tracked token member
    exact ⟨line, List.mem_cons_self, rfl, rfl⟩
  | @token cursor next depth deeper indents found step =>
    intro token member
    obtain rfl := List.mem_singleton.1 member
    have finds := cursor.step_finds depth
    rw [step] at finds
    refine ⟨cursor.line, List.mem_cons_self, ?_⟩
    cases finds <;> exact ⟨rfl, rfl⟩
  | skip => exact fun token member => absurd member List.not_mem_nil
  | @last cursor depth indents found step =>
    intro token member
    have finds := cursor.step_finds depth
    rw [step] at finds
    refine ⟨cursor.line, List.mem_cons_self, ?_⟩
    cases finds with
    | nothing => exact absurd member List.not_mem_nil
    | lineFeed =>
      obtain rfl := List.mem_singleton.1 member
      exact ⟨rfl, rfl⟩

/-- The tokens on a way stand on lines that were not behind its start, and hold their texts. -/
theorem Comes.reads (way : Comes before tokens behind) (sound : before.Sound bare)
    (numbered : before.Numbered last) :
    ∀ token ∈ tokens, ∃ line ∈ before.lines,
      token.line = line.number ∧ token.rawLine = line.text := by
  induction way with
  | stop => exact fun token member => absurd member List.not_mem_nil
  | step step _ ih =>
    obtain ⟨within, onward⟩ := step.numbered sound numbered
    refine List.forall_mem_append.2 ⟨step.reads, fun token member => ?_⟩
    obtain ⟨line, inside, same⟩ := ih (step.sound sound) onward token member
    exact ⟨line, within.subset inside, same⟩

/-- A way leads to lines that were not behind its start. -/
theorem Comes.lines (way : Comes before tokens behind) (sound : before.Sound bare)
    (numbered : before.Numbered last) : behind.lines <:+ before.lines := by
  induction way with
  | stop => exact List.suffix_refl _
  | step step _ ih =>
    obtain ⟨within, onward⟩ := step.numbered sound numbered
    exact (ih (step.sound sound) onward).trans within

/-- A way keeps the numbers of lines. -/
theorem Comes.numbered (way : Comes before tokens behind) (sound : before.Sound bare)
    (numbered : before.Numbered last) : behind.Numbered last := by
  induction way with
  | stop => exact numbered
  | step step _ ih => exact ih (step.sound sound) (step.numbered sound numbered).2

/-- The number of a line is told by the lines that are left. -/
theorem Numbered.line {line : Line} {below : List Line} {above : Nat}
    (numbered : Line.Numbered last (line :: below))
    (level : above + (line :: below).length = last) : line.number = above + 1 := by
  have here := numbered.1
  rw [List.length_cons] at level
  omega

/-- What a step takes at a place in sound lines. -/
theorem Sound.takes {cursor : Cursor} {indents : List Nat} {depth : Nat}
    (sound : (Spot.inside cursor indents depth).Sound bare) (deep : Nat) :
    (cursor.step deep).Takes cursor :=
  cursor.step_takes deep (fun line member => (sound.2.whole line member).1)
    (fun line member => (sound.2.whole line member).2) sound.1

/-- The place is before a line. -/
def AtStart : Spot → Prop
  | .line .. => True
  | .inside .. => False

/-- The tokens from a place to the end of a text stand on the lines on which they start, whatever gap
is open in front of the place. A gap may be open inside a line only. -/
def SpellsBelow (last : Nat) (tokens : List Token) (spot : Spot) : Prop :=
  ∀ (gap : List Char) (above : Nat), isGap gap = true → (spot.AtStart → gap = []) →
    above + (gap ++ spot.text).count '\n' = last → SpelledBelow above tokens (gap ++ spot.text)

/-- A step to a place from which the tokens stand on their lines takes tokens on their lines. -/
theorem Step.spellsBelow (step : Step before found behind) (sound : before.Sound bare)
    (numbered : before.Numbered last) (rest : behind.SpellsBelow last tokens) :
    before.SpellsBelow last (found ++ tokens) := by
  intro gap above blank closed counts
  have onward := step.sound sound
  have further := (step.numbered sound numbered).2
  have level := counts
  rw [List.count_append, sound.count_break, ← Nat.add_assoc] at level
  cases step with
  | @idle line below _ depth indents found idles =>
    obtain rfl := closed trivial
    obtain ⟨indent, blanks, text⟩ := Scanner.line_indent line below
    have solid : '\n' ∉ indent := fun member => (mem_blanks_iff.1 (blanks _ member)).2.2 rfl
    have within : isGap indent = true :=
      isGap_of_all fun c member => (mem_blanks_iff.1 (blanks c member)).1
    have place : line.number = above + 1 := Numbered.line numbered.2 level
    have lower : above + 1 + (linesText below).count '\n' = last := by
      rw [SoundLines.count_break onward, ← further.1, place]
    have inside : (Scanner.behindIndent line below).Inside :=
      Scanner.behindIndent_inside sound.1.1
    have spelled := Scanner.idleTokens_spelledBelow sound.1.1 sound.1.2.1 inside idles within
      solid place (rest [] _ rfl (fun _ => rfl) lower)
    show SpelledBelow above (found ++ tokens) (linesText (line :: below))
    rw [linesText_cons, text, List.append_assoc]
    exact spelled
  | @enter line below number depth indents kept marks logical tracked =>
    obtain rfl := closed trivial
    obtain ⟨indent, within, text⟩ := Scanner.line_text line below
    have place : line.number = above + 1 := Numbered.line numbered.2 level
    have same : [] ++ Spot.text (.line (line :: below) number indents depth) =
        indent ++ (Scanner.behindIndent line below).text := text
    rw [same] at counts ⊢
    refine SpelledBelow.marks (fun token member => ⟨?_, ?_⟩)
      (rest indent _ within (fun start => start.elim) counts)
    · rcases track_isMark tracked token member with kind | kind <;> simp [Token.written, kind]
    · obtain ⟨_, _, -, rfl⟩ := track_token tracked token member
      exact place
  | @token cursor next depth deeper indents found step =>
    have takes := sound.takes depth
    rw [step] at takes
    have whole : gap ++ cursor.text = gap ++ found.written ++ next.text := by
      rw [takes, List.append_assoc]
    have place : found.line = above + gap.count '\n' + 1 := by
      rw [Cursor.step_line step]
      exact Numbered.line numbered level
    exact .behind_gap blank whole place counts fun below level =>
      rest [] below rfl (fun start => start.elim) level
  | @skip cursor next depth indents step =>
    have takes := sound.takes depth
    rw [step] at takes
    obtain ⟨more, white, text⟩ := takes
    have whole : gap ++ cursor.text = gap ++ more ++ next.text := by
      rw [text, List.append_assoc]
    show SpelledBelow above tokens (gap ++ cursor.text)
    rw [whole]
    refine rest _ above (isGap_append blank white) (fun start => start.elim) ?_
    rw [← counts]
    exact congrArg (above + List.count '\n' ·) whole.symm
  | @last cursor depth indents found step =>
    have takes := sound.takes depth
    rw [step] at takes
    obtain ⟨token, rfl, text⟩ := takes
    have whole : gap ++ cursor.text = gap ++ token.written ++ linesText cursor.below := by
      rw [text, List.append_assoc]
    have place : token.line = above + gap.count '\n' + 1 := by
      obtain ⟨tail, -, same⟩ := Cursor.step_last step sound.1.nonempty
      rw [Option.some.inj same]
      exact Numbered.line numbered level
    exact .behind_gap blank whole place counts fun below level =>
      rest [] below rfl (fun _ => rfl) level

/-- The tokens on the way to the end of a text stand on the lines on which they start. -/
theorem Comes.spellsBelow {number depth : Nat} {indents : List Nat}
    (way : Comes before tokens (.line [] number indents depth)) (sound : before.Sound bare)
    (numbered : before.Numbered last) : before.SpellsBelow last tokens := by
  generalize ends : Spot.line [] number indents depth = bottom at way
  induction way with
  | stop =>
    subst ends
    intro gap above blank closed counts
    obtain rfl := closed trivial
    exact .nil
  | step step _ ih =>
    exact step.spellsBelow sound numbered
      (ih (step.sound sound) (step.numbered sound numbered).2 ends)

end Spot

/-- A fault inside a line is met on that line or on one below. -/
theorem Cursor.Breaks.reads {cursor : Cursor} {depth : Nat} {fault : LineFault}
    (breaks : cursor.Breaks depth fault)
    (terminated : ∀ line ∈ cursor.lines, line.Terminated) (inside : cursor.Inside) :
    ∃ line ∈ cursor.lines, fault.line = line.number := by
  induction breaks with
  | token step _ ih | skip step _ ih =>
    obtain ⟨further, within⟩ := Cursor.step_inside terminated inside (by rw [step]; rfl)
    obtain ⟨line, member, same⟩ :=
      ih (fun line member => terminated line (within.subset member)) further
    exact ⟨line, within.subset member, same⟩
  | @fault cursor => exact ⟨cursor.line, List.mem_cons_self, rfl⟩

namespace Scanner

/-- What a run has handed out while it goes on is what was read line by line. -/
theorem Run.reads {lines : List String} {file : Option String} {tokens : List Token}
    {point : Scanner} (run : Run (Scanner.start lines file) ⟨tokens, none⟩ point) :
    point.finished = false →
      (Scanner.start lines file).Reads (tokens ++ point.pending) point.idle := by
  refine run.invariant
    (fun made scanner => scanner.finished = false → (Scanner.start lines file).Reads made scanner)
    (fun _ => .stop) fun made before behind _ going reads scan onward => ?_
  have some_ : before.below ≠ [] := by
    intro bottom
    rcases scanLine_ok scan with ⟨-, rfl⟩ | ⟨line, below, lines, -⟩
    · contradiction
    · rw [bottom] at lines
      contradiction
  have more := Reads.line going some_ scan .stop
  rw [List.append_nil] at more
  exact (reads going).trans more

/-- A fault of a scan is met on a line that was read, and so stand the tokens before it. -/
theorem Run.fault_reads {source : String} {file : Option String} {tokens : List Token}
    {fault : Fault} {point : Scanner}
    (run : Run (Scanner.start (physicalLines source) file) ⟨tokens, some fault⟩ point) :
    (∃ line ∈ Line.read (physicalLines source), fault.position.line = line.number) ∧
      ∀ token ∈ tokens, ∃ line ∈ Line.read (physicalLines source),
        token.line = line.number ∧ token.rawLine = line.text := by
  obtain ⟨before, _, earlier, ready, going, scan, -⟩ := run.of_fault
  have reads := earlier.reads going
  rw [ready, List.append_nil] at reads
  have way := Spot.comes_of_reads reads
  have sound := Spot.start_sound source
  have numbered := Spot.start_numbered source
  refine ⟨?_, way.reads sound numbered⟩
  obtain ⟨line, below, lines, -, found⟩ := scanLine_error scan
  have within : before.below <:+ Line.read (physicalLines source) := way.lines sound numbered
  have left : SoundLines _ before.below := way.sound sound
  rw [lines] at within left
  rcases found with ⟨cause, marks, indents, -, rfl, -⟩ |
    ⟨marks, indents, lower, -, tokens, rfl, -⟩
  · exact ⟨line, within.subset List.mem_cons_self, rfl⟩
  · obtain ⟨found, member, same⟩ := (breaks_of_scanTokens tokens).reads
      (fun line member => (left.whole line member).1) (behindIndent_inside left.1.1)
    exact ⟨found, within.subset member, same⟩

end Scanner

/-- A line of a source text has the text, terminated. A report of a fault on the line shows the
text without its end. -/
structure LineOf (source : String) (line : Nat) (text : String) : Prop where
  /-- Lines are counted from one. -/
  first : 1 ≤ line
  /-- The text has the line. -/
  last : line ≤ (physicalLines source).length
  /-- The text is the line with its terminator made a line feed. -/
  terminated : (physicalLines source)[line - 1]?.map
    (fun raw => String.ofList (normalizeLine raw.toList).1) = some text
  /-- The line that is shown is the text without its line end. -/
  shown : lineText source line =
    some (.ofList (trimEnd (fun c => c == '\n' || c == '\r') text.toList))

/-- A line that is read is a line of the source text. -/
theorem lineOf_of_mem {source : String} {line : Line}
    (member : line ∈ Line.read (physicalLines source)) : LineOf source line.number line.text := by
  obtain ⟨numbered, -⟩ := read_numbered source
  obtain ⟨first, raw, found, text⟩ := Line.follow_text 0 false line member
  have shown : lineText source line.number =
      some (.ofList (trimEnd (fun c => c == '\n' || c == '\r') raw.toList)) := by
    rw [Nat.zero_add, physicalLines, List.getElem?_map] at found
    obtain ⟨chars, at_, rfl⟩ := Option.map_eq_some_iff.1 found
    rw [lineText, if_neg (Nat.ne_of_gt first), at_, Option.map_some, String.toList_ofList]
  refine ⟨first, (numbered.le_last line member).1, ?_, ?_⟩
  · rw [text]
    exact congrArg _ found
  · rw [shown, text, String.toList_ofList, trimEnd_normalizeLine]

/-- The tokens at the end of a text stand on its last line. -/
theorem Spot.closing_line {indents : List Nat} {number : Nat} :
    ∀ token ∈ closing indents number, token.line = number := by
  intro token member
  rcases List.mem_append.1 member with member | member
  · obtain ⟨-, -, rfl⟩ := List.mem_map.1 member
    rfl
  · obtain rfl := List.mem_singleton.1 member
    rfl

/-- The tokens of a source text are those of its lines, in order, and those of its end. Each token
of the lines stands on the line on which it starts, and its raw line is this line. -/
theorem tokenize_lines {source : String} {file : Option String} {tokens : List Token}
    (found : tokenize source file = .ok tokens) :
    ∃ made indents, tokens = made ++ Spot.closing indents (physicalLines source).length ∧
      SpelledBelow 0 made (normalizeText source.toList) ∧
      ∀ token ∈ made, LineOf source token.line token.rawLine := by
  obtain ⟨made, number, indents, depth, way, rfl⟩ := tokenize_iff_comes.1 found
  have sound := Spot.start_sound source
  have counts := sound.count_break
  have start := Spot.start_numbered source
  have same : (physicalLines source).length = number := (way.numbered sound start).1.symm
  refine ⟨made, indents, by rw [same], ?_, fun token member => ?_⟩
  · rw [← linesText_physicalLines]
    refine way.spellsBelow sound start [] 0 rfl (fun _ => rfl) ?_
    rw [Nat.zero_add, List.nil_append, counts]
    exact (read_numbered source).2
  · obtain ⟨line, within, place, text⟩ := way.reads sound start token member
    rw [place, text]
    exact lineOf_of_mem within

/-- The lines of the tokens of a text do not decrease. -/
theorem tokenize_ordered {source : String} {file : Option String} {tokens : List Token}
    (found : tokenize source file = .ok tokens) :
    tokens.Pairwise fun upper lower => upper.line ≤ lower.line := by
  obtain ⟨made, indents, rfl, spelled, lines⟩ := tokenize_lines found
  refine List.pairwise_append.2 ⟨spelled.ordered.1, ?_, fun upper member lower ending => ?_⟩
  · refine List.pairwise_of_forall_mem_list fun upper member lower other => ?_
    rw [Spot.closing_line upper member, Spot.closing_line lower other]
  · rw [Spot.closing_line lower ending]
    exact (lines upper member).last

end Offside
