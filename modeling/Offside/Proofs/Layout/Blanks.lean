import Offside.Proofs.Layout.Outline
import Offside.Proofs.Layout.Positions

/-!
# Blank lines

A blank line holds spaces, tabs and at most one form feed. Between two logical lines it is scanned
in one of two ways. If nothing stands behind its form feed, or if it has none, it makes a soft break,
and the lines below are scanned as they were, one line further down (`tokenize_blank`). If blanks
stand behind its form feed it is taken for a logical line: it may open and close blocks, and its
line end stands where no statement is (`tokenize_blank_early`).
-/
namespace Offside

open Text

/-- The text is one physical line of spaces, tabs and at most one form feed, with another text
behind it. At the end of the input its line end may be missing. -/
structure BlankLine (blank : String) (gap : List Char) (lower : String) : Prop where
  /-- The characters before the line end. -/
  characters : ∀ c ∈ gap, c = ' ' ∨ c = '\t' ∨ c = '\x0c'
  /-- At most one of them is a form feed. -/
  single : gap.count '\x0c' ≤ 1
  /-- The line ends with a line feed, with a carriage return and a line feed, or with the text. -/
  text : blank.toList = gap ++ ['\n'] ∨ blank.toList = gap ++ ['\r', '\n'] ∨
    (blank.toList = gap ∧ gap ≠ [] ∧ lower = "")

/-- Behind the text a logical line may start: the text is empty or ends in a line feed, its tokens
are found, and they leave no bracket open. -/
structure EndsLogicalLine (upper : String) (file : Option String) (first : List Token) : Prop where
  /-- The last physical line ends. -/
  ends : EndsLine upper.toList
  /-- No string literal and no line that is continued goes on behind the text. -/
  scanned : tokenize upper file = .ok first
  /-- No bracket is open behind the text. -/
  flat : bracketsBehind first = 0

namespace BlankLine

variable {blank lower : String} {gap : List Char} (line : BlankLine blank gap lower)
include line

/-- The characters of a blank line are blanks. -/
theorem mem_blanks : ∀ c ∈ gap, c ∈ blanks := by
  intro c member
  rcases line.characters c member with rfl | rfl | rfl <;> decide

/-- No line feed is among the characters of a blank line. -/
theorem unbroken : '\n' ∉ gap := by
  intro member
  rcases line.characters _ member with same | same | same <;> exact absurd same (by decide)

/-- A blank line is of indentation alone, or of indentation before and behind a form feed. -/
theorem indents : (∀ c ∈ gap, isIndent c = true) ∨ ∃ front back, gap = front ++ '\x0c' :: back ∧
    (∀ c ∈ front, isIndent c = true) ∧ ∀ c ∈ back, isIndent c = true := by
  have other (c : Char) (member : c ∈ gap) (differs : c ≠ '\x0c') : isIndent c = true := by
    rcases line.characters c member with rfl | rfl | rfl
    · rfl
    · rfl
    · exact absurd rfl differs
  by_cases feeds : '\x0c' ∈ gap
  · obtain ⟨front, back, rfl⟩ := List.append_of_mem feeds
    have single := line.single
    rw [List.count_append, List.count_cons_self] at single
    have before : '\x0c' ∉ front := List.count_eq_zero.1 (by omega)
    have behind : '\x0c' ∉ back := List.count_eq_zero.1 (by omega)
    refine .inr ⟨front, back, rfl, fun c member => ?_, fun c member => ?_⟩
    · exact other c (List.mem_append_left _ member) fun same => before (same ▸ member)
    · exact other c (List.mem_append_right _ (List.mem_cons_of_mem _ member))
        fun same => behind (same ▸ member)
  · exact .inl fun c member => other c member fun same => feeds (same ▸ member)

/-- A blank line is read before the lines below it. -/
theorem read : ∃ bare, Line.read (physicalLines (blank ++ lower)) =
    ⟨1, .ofList (gap ++ ['\n']), bare⟩ :: (Line.read (physicalLines lower)).map (Line.lower 1) := by
  have alone (content : List Char) (unbroken : '\n' ∉ content)
      (text : blank.toList = content ++ ['\n'])
      (normal : normalizeLine (content ++ ['\n']) = (gap ++ ['\n'], true)) :
      Line.read (physicalLines (blank ++ lower)) = ⟨1, .ofList (gap ++ ['\n']), false⟩ ::
        (Line.read (physicalLines lower)).map (Line.lower 1) := by
    have lines : physicalLines blank = [.ofList (content ++ ['\n'])] := by
      rw [physicalLines, text, splitLines_terminated unbroken]
      rfl
    have some_ : String.ofList (content ++ ['\n']) ≠ "" := by
      intro empty
      have none_ := congrArg String.toList empty
      rw [String.toList_ofList] at none_
      exact List.append_ne_nil_of_right_ne_nil _ (List.cons_ne_nil _ _) none_
    have ends : EndsLine blank.toList := .inr (by rw [text, List.getLast?_concat])
    rw [read_physicalLines_append ends, lines, Line.read, Line.follow, if_neg some_,
      String.toList_ofList, normal]
    rfl
  have unbroken := line.unbroken
  rcases line.text with text | text | ⟨text, some_, rfl⟩
  · refine ⟨false, alone gap unbroken text ?_⟩
    obtain ⟨kept, normal, rfl | rfl⟩ := normalizeLine_feed gap
    · exact normal
    · rcases line.characters '\r' (by simp) with same | same | same <;>
        exact absurd same (by decide)
  · refine ⟨false, alone (gap ++ ['\r']) (by simp [unbroken]) (by simp [text]) ?_⟩
    simp [normalizeLine]
  · have filled : blank ≠ "" := by
      rintro rfl
      exact some_ text.symm
    have same : String.ofList blank.toList = blank := String.ofList_toList
    refine ⟨true, ?_⟩
    rw [String.append_empty, physicalLines, splitLines_of_not_mem (text ▸ some_) (text ▸ unbroken),
      List.map_singleton, same, Line.read, Line.follow, if_neg filled,
      normalizeLine_of_not_mem (text ▸ unbroken), text]
    rfl

end BlankLine

namespace Scanner

section blank

variable (line : Line) (below : List Line) {blank lower : String} {gap : List Char}

/-- A blank line without anything behind a form feed makes a soft break. -/
theorem idleTokens_of_blank (fits : BlankLine blank gap lower)
    (text : line.text.toList = gap ++ ['\n']) (late : '\x0c' ∉ gap.dropLast) :
    idleTokens? (behindIndent line below) = some [⟨.softBreak, "\n", line.number, line.text⟩] := by
  have rest : line.text.toList.dropWhile isIndent = ['\n'] ∨
      line.text.toList.dropWhile isIndent = ['\x0c', '\n'] := by
    rw [text]
    rcases fits.indents with all | ⟨front, back, rfl, all, -⟩
    · rw [List.dropWhile_append_of_pos all]
      exact .inl rfl
    · have none_ : back = [] := by
        by_contra some_
        rw [List.dropLast_append_of_ne_nil (List.cons_ne_nil _ _),
          List.dropLast_cons_of_ne_nil some_] at late
        exact late (List.mem_append_right _ List.mem_cons_self)
      rw [none_, List.append_assoc, List.dropWhile_append_of_pos all]
      exact .inr rfl
  rcases rest with rest | rest <;> simp [idleTokens?, behindIndent, Cursor.token, rest]

/-- Blanks before the end of a line are passed over. -/
theorem scans_of_blank (blank : ∀ c ∈ gap, c ∈ blanks) :
    Cursor.Scans ⟨line, gap ++ ['\n'], below⟩ 0
      ⟨[⟨.newline, .ofList (if line.bare then [] else ['\n']), line.number, line.text⟩], line.number,
        below, 0⟩ := by
  induction gap with
  | nil => exact .last Cursor.step_lineEnd
  | cons c gap ih =>
    obtain ⟨here, later⟩ := List.forall_mem_cons.1 blank
    exact .skip (Cursor.step_blank here) (ih later)

/-- A blank line with something behind a form feed is taken for a logical line. All that it holds is
its end. -/
theorem logical_of_blank (fits : BlankLine blank gap lower)
    (text : line.text.toList = gap ++ ['\n']) (early : '\x0c' ∈ gap.dropLast) :
    idleTokens? (behindIndent line below) = none ∧
      (behindIndent line below).Scans 0
        ⟨[⟨.newline, .ofList (if line.bare then [] else ['\n']), line.number, line.text⟩],
          line.number, below, 0⟩ := by
  rcases fits.indents with all | ⟨front, back, rfl, all, -⟩
  · exact absurd (all _ ((List.dropLast_sublist _).subset early)) (by decide)
  · have rest : line.text.toList.dropWhile isIndent = '\x0c' :: back ++ ['\n'] := by
      rw [text, List.append_assoc, List.dropWhile_append_of_pos all]
      rfl
    have some_ : back ≠ [] := by
      rintro rfl
      rw [List.dropLast_concat] at early
      exact absurd (all _ early) (by decide)
    obtain ⟨c, later, rfl⟩ := List.exists_cons_of_ne_nil some_
    constructor
    · simp [idleTokens?, behindIndent, rest]
    · rw [behindIndent, rest]
      exact scans_of_blank _ _ fun c member => fits.mem_blanks c (List.mem_append_right _ member)

end blank

section reads

variable {before between behind : Scanner} {made : List Token}

/-- Lines that are read up to the end of the input are those that are read up to some place, and the
lines from there on. -/
theorem Reads.split {all : List Token} (front : before.Reads made between)
    (whole : before.Reads all behind) (bottom : behind.below = []) :
    ∃ later, all = made ++ later ∧ between.Reads later behind := by
  induction front generalizing all with
  | stop => exact ⟨all, rfl, whole⟩
  | line _ some_ scan _ ih =>
    cases whole with
    | stop => exact absurd bottom some_
    | line _ _ same later =>
      obtain rfl := Except.ok.inj (scan.symm.trans same)
      obtain ⟨rest, rfl, onward⟩ := ih later
      exact ⟨rest, (List.append_assoc _ _ _).symm, onward⟩

end reads

end Scanner

/-- The last of the tokens that the grammar looks at is the end of a line, if there is one. -/
def EndsWithNewline (tokens : List Token) : Prop :=
  ∀ token ∈ (tokens.filter Token.isSignificant).getLast?, token.kind = .newline

/-- The scan of a logical line that leaves no bracket open finds the end of a line last. -/
theorem Cursor.Scans.newline_last {cursor : Cursor} {depth : Nat} {scanned : Scanned}
    (scans : cursor.Scans depth scanned) (terminated : ∀ line ∈ cursor.lines, line.Terminated)
    (inside : cursor.Inside) (flat : scanned.depth = 0) :
    ∃ front last, scanned.tokens = front ++ [last] ∧ last.kind = .newline := by
  induction scans with
  | @token cursor next depth deeper found scanned step later ih =>
    obtain ⟨onward, within⟩ := Cursor.step_inside terminated inside (by rw [step]; rfl)
    obtain ⟨front, last, same, kind⟩ :=
      ih (fun line member => terminated line (within.subset member)) onward flat
    exact ⟨found :: front, last, by rw [same, List.cons_append], kind⟩
  | @skip cursor next depth scanned step later ih =>
    obtain ⟨onward, within⟩ := Cursor.step_inside terminated inside (by rw [step]; rfl)
    exact ih (fun line member => terminated line (within.subset member)) onward flat
  | @last cursor depth found step =>
    obtain ⟨tail, -, rfl⟩ := Cursor.step_last step inside.nonempty
    exact ⟨[], _, rfl, if_pos flat⟩

namespace Scanner

/-- Behind lines that leave no bracket open the last token is the end of a line, if it is so before
them. -/
theorem Reads.endsWithNewline {before behind : Scanner} {earlier made : List Token}
    (reads : before.Reads made behind) (terminated : ∀ line ∈ before.below, line.Terminated)
    (ended : before.depth = 0 → EndsWithNewline earlier) (flat : behind.depth = 0) :
    EndsWithNewline (earlier ++ made) := by
  induction reads generalizing earlier with
  | stop =>
    rw [List.append_nil]
    exact ended flat
  | @line before scanned behind tokens going some_ scan later ih =>
    rw [← List.append_assoc]
    refine ih (fun line member => terminated line ((scanLine_progress terminated scan).2.1.subset
      member)) (fun outside => ?_) flat
    rcases scanLine_ok scan with ⟨bottom, -⟩ | ⟨line, below, lines, idles | logical⟩
    · contradiction
    · obtain ⟨idle, found, rfl⟩ := idles
      have ends := ended outside
      rw [EndsWithNewline] at ends ⊢
      rwa [List.filter_append, filter_idleTokens found, List.append_nil]
    · obtain ⟨-, marks, indents, found, -, scans, rfl⟩ := logical
      rw [lines] at terminated
      obtain ⟨front, last, same, kind⟩ := scans.newline_last terminated
        (behindIndent_inside (terminated line List.mem_cons_self)) outside
      have significant : last.isSignificant = true := by simp [Token.isSignificant, kind]
      rw [EndsWithNewline, same, ← List.append_assoc, ← List.append_assoc, List.filter_append,
        List.filter_singleton, significant, Bool.cond_true, List.getLast?_concat]
      rintro _ ⟨⟩
      exact kind

/-- A scan between two lines, with the lines of a text below. -/
def above (count : Nat) (indents : List Nat) (text : String) (file : Option String) : Scanner :=
  { (start (physicalLines text) file).embed count [] with indents, line := count }

section above

variable (count : Nat) (indents : List Nat) {blank lower : String} {gap : List Char}
  (line : BlankLine blank gap lower) (file : Option String)
include line

/-- Above a blank line the scan stands before it and the lines below it. -/
theorem above_blank : ∃ bare, (above count indents (blank ++ lower) file).below =
    ⟨count + 1, .ofList (gap ++ ['\n']), bare⟩ ::
      ((above count indents lower file).embed 1 []).below := by
  obtain ⟨bare, lines⟩ := line.read
  have order (lines : List Line) : (lines.map (Line.lower 1)).map (Line.lower count) =
      (lines.map (Line.lower count)).map (Line.lower 1) := by
    simp [Line.lower, Nat.add_right_comm]
  refine ⟨bare, ?_⟩
  simp only [above, embed, start, embedLines, lines, List.map_cons, List.append_nil, order,
    Line.lower, Nat.add_comm 1]

/-- A blank line without anything behind a form feed is read as a soft break, and nothing is changed
for the lines below. -/
theorem reads_blank (late : '\x0c' ∉ gap.dropLast) :
    (above count indents (blank ++ lower) file).Reads
      [⟨.softBreak, "\n", count + 1, .ofList (gap ++ ['\n'])⟩]
      ((above count indents lower file).embed 1 []) := by
  obtain ⟨bare, lines⟩ := above_blank count indents line file
  have idles := idleTokens_of_blank ⟨count + 1, .ofList (gap ++ ['\n']), bare⟩
    ((above count indents lower file).embed 1 []).below line String.toList_ofList late
  have scan := scanLine_of_idle lines idles
  exact .line rfl (by rw [lines]; exact List.cons_ne_nil _ _) scan .stop

/-- A blank line with something behind a form feed is read, if it is, as marks of blocks and the end
of a line. -/
theorem reads_blank_early (early : '\x0c' ∈ gap.dropLast) {behind : Scanner} {made : List Token}
    (reads : (above count indents (blank ++ lower) file).Reads made behind)
    (bottom : behind.below = []) :
    ∃ marks ending later, made = marks ++ ending :: later ∧ ending.kind = .newline ∧
      ∀ token ∈ marks, token.kind = .indent ∨ token.kind = .dedent := by
  obtain ⟨bare, lines⟩ := above_blank count indents line file
  obtain ⟨logical, scans⟩ := logical_of_blank ⟨count + 1, .ofList (gap ++ ['\n']), bare⟩
    ((above count indents lower file).embed 1 []).below line String.toList_ofList early
  cases reads with
  | stop =>
    rw [lines] at bottom
    contradiction
  | @line _ scanned _ tokens _ some_ scan later =>
    rcases scanLine_ok scan with ⟨none_, -⟩ | ⟨found, below, same, idles | spelled⟩
    · contradiction
    · obtain ⟨rfl, rfl⟩ := List.cons.inj (lines.symm.trans same)
      obtain ⟨idle, idles, -⟩ := idles
      rw [logical] at idles
      contradiction
    · obtain ⟨rfl, rfl⟩ := List.cons.inj (lines.symm.trans same)
      obtain ⟨-, marks, kept, found, tracked, ends, rfl⟩ := spelled
      obtain rfl := Except.ok.inj (scans.scanTokens.symm.trans ends.scanTokens)
      exact ⟨marks, _, tokens, List.append_assoc _ _ _, rfl, Spot.track_isMark tracked⟩

end above

end Scanner

namespace EndsLogicalLine

variable {upper : String} {file : Option String} {first : List Token}

/-- The lines of a text behind which a logical line may start are read in the same way whatever
stands below them. -/
theorem reads (upper_ : EndsLogicalLine upper file first) : ∃ made indents,
    first = made ++ Spot.closing indents (physicalLines upper).length ∧ EndsWithNewline made ∧
      (∀ token ∈ made, token.line ≤ (physicalLines upper).length) ∧
      ∀ back, (Scanner.start (physicalLines (upper ++ back)) file).Reads made
        (.above (physicalLines upper).length indents back file) := by
  obtain ⟨made, point, reads, bottom, rfl⟩ := tokenize_ok_iff.1 upper_.scanned
  obtain ⟨-, going, -⟩ := reads.going rfl rfl
  have kept : Scanner.Keeps made point := reads.keeps (Scanner.start_keeps _ _)
  have outside : point.depth = 0 := by
    have flat := upper_.flat
    rw [Scanner.bracketsBehind_finish] at flat
    exact (kept.going going).1.symm.trans flat
  have way := Spot.comes_of_reads reads
  have sound := Spot.start_sound upper
  have numbered := Spot.start_numbered upper
  have number : point.line = (physicalLines upper).length := by
    have last := (way.numbered sound numbered).1
    rwa [bottom] at last
  have ended : EndsWithNewline ([] ++ made) :=
    reads.endsWithNewline (Line.read_terminated _) (fun _ => by simp [EndsWithNewline]) outside
  refine ⟨made, point.indents, by rw [← number]; rfl, ended, ?_, fun back => ?_⟩
  · intro token member
    obtain ⟨line, within, place, -⟩ := way.reads sound numbered token member
    rw [place]
    exact (numbered.2.le_last line within).1
  · have onward := reads.append back upper_.ends bottom outside
    rwa [number] at onward

end EndsLogicalLine

section tokens

variable {upper blank lower : String} {gap : List Char} {file : Option String}
  {first : List Token} (boundary : EndsLogicalLine upper file first)
  (line : BlankLine blank gap lower)
include boundary line

/-- A blank line without anything behind a form feed adds a soft break to the tokens of a text. The
tokens above it are the same, and those below it are one line further down. -/
theorem tokenize_blank {whole : List Token} (late : '\x0c' ∉ gap.dropLast)
    (scanned : tokenize (upper ++ lower) file = .ok whole) :
    ∃ made indents later, first = made ++ Spot.closing indents (physicalLines upper).length ∧
      whole = made ++ later ∧
      tokenize (upper ++ (blank ++ lower)) file = .ok
        (made ++ ⟨.softBreak, "\n", (physicalLines upper).length + 1, .ofList (gap ++ ['\n'])⟩ ::
          later.map (Token.lower 1)) ∧
      (∀ token ∈ made, token.line ≤ (physicalLines upper).length) ∧
      ∀ token ∈ later, (physicalLines upper).length < token.line ∨ token.value = "" := by
  obtain ⟨made, indents, same, -, above_, reads⟩ := boundary.reads
  obtain ⟨all, last, whole_, bottom, rfl⟩ := tokenize_ok_iff.1 scanned
  obtain ⟨below, rfl, later⟩ := (reads lower).split whole_ bottom
  have lines : (last.embed 1 []).below = [] := by simp [Scanner.embed, embedLines, bottom]
  have onward := (reads (blank ++ lower)).trans
    ((Scanner.reads_blank _ _ line file late).trans (later.embed 1 []))
  refine ⟨made, indents, below ++ last.finish.pending, same, List.append_assoc _ _ _, ?_, above_,
    ?_⟩
  · refine tokenize_ok_iff.2 ⟨_, last.embed 1 [], onward, lines, ?_⟩
    rw [Scanner.finish_embed, List.map_append]
    simp
  · have front := Spot.comes_of_reads (reads lower)
    have sound := Spot.start_sound (upper ++ lower)
    have numbered := Spot.start_numbered (upper ++ lower)
    have middle := front.numbered sound numbered
    intro token member
    rcases List.mem_append.1 member with member | member
    · obtain ⟨line, within, place, -⟩ :=
        (Spot.comes_of_reads later).reads (front.sound sound) middle token member
      have low := (middle.2.le_last line within).2
      have total : (physicalLines upper).length + _ = _ := middle.1
      exact .inl (by omega)
    · right
      rcases List.mem_append.1 member with member | member
      · obtain ⟨-, -, rfl⟩ := List.mem_map.1 member
        rfl
      · obtain rfl := List.mem_singleton.1 member
        rfl

/-- Where a blank line with something behind a form feed is scanned, the end of a line is found behind
the end of a line or at the start of the text, with nothing but marks of blocks between them. -/
theorem tokenize_blank_early {whole : List Token} (early : '\x0c' ∈ gap.dropLast)
    (scanned : tokenize (upper ++ (blank ++ lower)) file = .ok whole) :
    ∃ made marks ending later, whole = made ++ (marks ++ ending :: later) ∧ EndsWithNewline made ∧
      (∀ token ∈ marks, token.kind = .indent ∨ token.kind = .dedent) ∧ ending.kind = .newline := by
  obtain ⟨made, indents, -, ended, -, reads⟩ := boundary.reads
  obtain ⟨all, last, whole_, bottom, rfl⟩ := tokenize_ok_iff.1 scanned
  obtain ⟨below, rfl, later⟩ := (reads (blank ++ lower)).split whole_ bottom
  obtain ⟨marks, ending, rest, rfl, kind, kinds⟩ :=
    Scanner.reads_blank_early _ _ line file early later bottom
  exact ⟨made, marks, ending, rest ++ last.finish.pending, by simp, ended, kinds, kind⟩

end tokens

end Offside
