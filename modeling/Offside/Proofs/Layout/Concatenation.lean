import Offside.Proofs.Grammar.Mirror
import Offside.Proofs.Layout.Discipline

/-!
# Texts one behind the other

A scan reads lines one after the other (`Scanner.Reads`). What it reads does not depend on the
lines below, and it is the same some lines further down (`Scanner.Reads.embed`). Blocks that are
still open where a text starts close before its first logical line, or at its end
(`Scanner.Reads.dedent`). So the tokens of two texts one behind the other are those of the first
one and those of the second one, without the end mark between them (`tokenize_append`).
-/
namespace Offside

open Text Lexeme

/-- A text that is empty or ends in a line feed: another one behind it starts a line. -/
def EndsLine (text : List Char) : Prop :=
  text = [] ∨ text.getLast? = some '\n'

/-- What follows the first character of such a text is such a text, unless it is empty. -/
theorem EndsLine.tail {c : Char} {rest : List Char} (ends : EndsLine (c :: rest)) :
    EndsLine rest ∧ (c ≠ '\n' → rest ≠ []) := by
  have last := ends.resolve_left (List.cons_ne_nil _ _)
  cases rest with
  | nil => exact ⟨.inl rfl, fun other => absurd (by simpa using last) other⟩
  | cons d rest =>
    rw [List.getLast?_cons_cons] at last
    exact ⟨.inr last, fun _ => List.cons_ne_nil _ _⟩

/-- Behind the end of a line, the lines of a text are those that it has alone. -/
theorem splitLines_append {front : List Char} (ends : EndsLine front) (back : List Char) :
    splitLines (front ++ back) = splitLines front ++ splitLines back := by
  induction front with
  | nil => rfl
  | cons c rest ih =>
    obtain ⟨later, some_⟩ := ends.tail
    rw [List.cons_append, splitLines, splitLines, ih later]
    by_cases breaks : c = '\n'
    · rw [if_pos breaks, if_pos breaks, List.cons_append]
    · rw [if_neg breaks, if_neg breaks]
      cases lines : splitLines rest with
      | nil =>
        have whole := flatten_splitLines rest
        rw [lines] at whole
        exact absurd whole.symm (some_ breaks)
      | cons line below => rfl

/-- All lines of a text that ends a line end in a line feed. -/
theorem getLast_of_mem_splitLines {text : List Char} (ends : EndsLine text) :
    ∀ line ∈ splitLines text, line.getLast? = some '\n' := by
  induction text with
  | nil => exact fun line member => absurd member List.not_mem_nil
  | cons c rest ih =>
    obtain ⟨later, some_⟩ := ends.tail
    have all := ih later
    rw [splitLines]
    by_cases breaks : c = '\n'
    · rw [if_pos breaks]
      exact List.forall_mem_cons.2 ⟨by simp [breaks], all⟩
    · rw [if_neg breaks]
      cases lines : splitLines rest with
      | nil =>
        have whole := flatten_splitLines rest
        rw [lines] at whole
        exact absurd whole.symm (some_ breaks)
      | cons line below =>
        rw [lines] at all
        obtain ⟨here, lower⟩ := List.forall_mem_cons.1 all
        refine List.forall_mem_cons.2 ⟨?_, lower⟩
        rw [List.getLast?_cons, here]
        rfl

/-- A line that ends in a line feed has a terminator. -/
theorem normalizeLine_terminated {text : List Char} (last : text.getLast? = some '\n') :
    (normalizeLine text).2 = true := by
  rw [List.getLast?_eq_head?_reverse] at last
  unfold normalizeLine
  split
  · rfl
  · rfl
  · rename_i other
    cases back : text.reverse with
    | nil => simp [back] at last
    | cons c rest =>
      rw [back, List.head?_cons, Option.some.injEq] at last
      exact absurd (last ▸ back) (other rest)

/-- A line some lines further down. -/
def Line.lower (count : Nat) (line : Line) : Line :=
  { line with number := line.number + count }

/-- A token some lines further down. -/
def Token.lower (count : Nat) (token : Token) : Token :=
  { token with line := token.line + count }

/-- The lines of a text stand some lines further down if more lines come before them. -/
theorem Line.follow_lower (count more : Nat) (bare : Bool) (raws : List String) :
    follow (count + more) bare raws = (follow count bare raws).map (Line.lower more) := by
  induction raws generalizing count bare with
  | nil => rfl
  | cons raw later ih =>
    rw [follow, follow]
    split
    · rfl
    · have further : count + more + 1 = count + 1 + more := by omega
      dsimp only
      rw [further, ih, List.map_cons, Line.lower]

/-- Lines behind lines that are terminated. -/
theorem Line.follow_append {front : List String}
    (ends : ∀ raw ∈ front, raw.toList.getLast? = some '\n') (count : Nat) (bare : Bool)
    (back : List String) :
    follow count bare (front ++ back) =
      follow count bare front ++ follow (count + front.length) bare back := by
  induction front generalizing count with
  | nil => rfl
  | cons raw later ih =>
    obtain ⟨here, below⟩ := List.forall_mem_cons.1 ends
    have some_ : raw ≠ "" := by
      rintro rfl
      simp at here
    have kept : (bare || !(normalizeLine raw.toList).2) = bare := by
      rw [normalizeLine_terminated here, Bool.not_true, Bool.or_false]
    have further : count + (later.length + 1) = count + 1 + later.length := by omega
    rw [List.cons_append, follow, follow, if_neg some_, if_neg some_]
    dsimp only
    rw [kept, ih below, List.length_cons, further, List.cons_append]

/-- The lines of two texts one behind the other. -/
theorem read_physicalLines_append {front back : String} (ends : EndsLine front.toList) :
    Line.read (physicalLines (front ++ back)) = Line.read (physicalLines front) ++
      (Line.read (physicalLines back)).map (Line.lower (physicalLines front).length) := by
  have broken : ∀ raw ∈ physicalLines front, raw.toList.getLast? = some '\n' := by
    intro raw member
    obtain ⟨line, within, rfl⟩ := List.mem_map.1 member
    rw [String.toList_ofList]
    exact getLast_of_mem_splitLines ends line within
  have whole : physicalLines (front ++ back) = physicalLines front ++ physicalLines back := by
    rw [physicalLines, String.toList_append, splitLines_append ends, List.map_append]
    rfl
  rw [whole, Line.read, Line.follow_append broken, Line.follow_lower]
  rfl

section embed

variable (count : Nat) (more : List Line)

/-- Lines with some lines above them and more below. -/
def embedLines (lines : List Line) : List Line :=
  lines.map (Line.lower count) ++ more

/-- A place with some lines above its lines and more below. -/
def Cursor.embed (cursor : Cursor) : Cursor :=
  ⟨cursor.line.lower count, cursor.rest, embedLines count more cursor.below⟩

/-- What is left of the line is the same. -/
@[simp] theorem Cursor.embed_rest (cursor : Cursor) :
    (cursor.embed count more).rest = cursor.rest := rfl

/-- A step between some lines and more. -/
def Step.embed : Step → Step
  | .token found next depth => .token (found.lower count) (next.embed count more) depth
  | .skip next => .skip (next.embed count more)
  | .last found => .last (found.map (Token.lower count))
  | .fault cause place => .fault cause (place.embed count more)

/-- The tokens of a line between some lines and more. -/
def Scanned.embed (scanned : Scanned) : Scanned :=
  ⟨scanned.tokens.map (Token.lower count), scanned.line + count,
    embedLines count more scanned.below, scanned.depth⟩

/-- A scan between some lines and more. -/
def Scanner.embed (scanner : Scanner) : Scanner :=
  { scanner with
    below := embedLines count more scanner.below
    line := scanner.line + count
    pending := scanner.pending.map (Token.lower count) }

/-- The parts of a string literal that ends do not depend on what is below. -/
theorem ClosesString.embed {part : List Char → StringPart} {below : List Line} {line : Line}
    {rest taken : List Char} {next : Cursor}
    (closes : ClosesString part below line rest taken next) :
    ClosesString part (embedLines count more below) (line.lower count) rest taken
      (next.embed count more) := by
  induction closes with
  | here found => exact .here found
  | later found _ ih => exact .later found ih

/-- A string literal that ends does so whatever is below. -/
theorem ScansString.embed {cursor next : Cursor} {literal : List Char}
    (scans : ScansString cursor literal next) :
    ScansString (cursor.embed count more) literal (next.embed count more) := by
  cases scans with
  | triple front closes => exact .triple front (closes.embed count more)
  | single front other closes => exact .single front other (closes.embed count more)

/-- The step for a string literal that ends does not depend on what is below. -/
theorem stringStep_embed {start opening : Cursor} {marks : List Char} {depth : Nat}
    (sound : ∀ cause place, stringStep start marks opening depth ≠ .fault cause place) :
    stringStep (start.embed count more) marks (opening.embed count more) depth =
      (stringStep start marks opening depth).embed count more := by
  cases found : scanString opening with
  | error place =>
    refine absurd ?_ (sound .unterminatedString place)
    rw [stringStep, found]
  | ok literal =>
    obtain ⟨text, next⟩ := literal
    have scans := (scanString_eq_ok_iff.1 found).embed count more
    rw [stringStep, stringStep, found, scanString_eq_ok_iff.2 scans]
    rfl

/-- A step without a fault does not depend on what is below. -/
theorem Cursor.step_embed {cursor : Cursor} {depth : Nat}
    (sound : ∀ cause place, cursor.step depth ≠ .fault cause place) :
    (cursor.embed count more).step depth = (cursor.step depth).embed count more := by
  obtain ⟨line, rest, below⟩ := cursor
  cases rest with
  | nil => rfl
  | cons c tail =>
    cases Lead.of c tail with
    | number starts =>
      rw [embed, step_number starts rfl, step_number starts rfl]
      rfl
    | marked starts opens known =>
      rw [step_letters starts rfl opens known] at sound ⊢
      rw [embed, step_letters starts rfl opens known]
      exact stringStep_embed count more sound
    | name starts unmarked =>
      rw [embed, step_word starts rfl unmarked, step_word starts rfl unmarked]
      rfl
    | continued =>
      cases below with
      | nil => exact absurd rfl (sound .unexpectedEnd _)
      | cons next below => rfl
    | feed => rfl
    | blank member =>
      rw [embed, step_blank member, step_blank member]
      rfl
    | quote mark =>
      rw [step_quote mark] at sound ⊢
      rw [embed, step_quote mark]
      exact stringStep_embed count more sound
    | comment => rfl
    | operator starts =>
      rw [embed, step_operator starts rfl, step_operator starts rfl]
      rfl

/-- A scan inside a line does not depend on what is below. -/
theorem Cursor.Scans.embed {cursor : Cursor} {depth : Nat} {scanned : Scanned}
    (scans : cursor.Scans depth scanned) :
    (cursor.embed count more).Scans depth (scanned.embed count more) := by
  induction scans with
  | token step later ih =>
    refine .token ?_ ih
    rw [Cursor.step_embed count more (by simp [step]), step]
    rfl
  | skip step later ih =>
    refine .skip ?_ ih
    rw [Cursor.step_embed count more (by simp [step]), step]
    rfl
  | @last cursor depth found step =>
    have last : (cursor.embed count more).step depth = .last (found.map (Token.lower count)) := by
      rw [Cursor.step_embed count more (by simp [step]), step]
      rfl
    have scans := Cursor.Scans.last last
    cases found <;> exact scans

end embed

section steps

variable {cursor next : Cursor} {depth deeper : Nat}

/-- A token is scanned in front of what is behind it. -/
theorem scanTokens_of_token {found : Token} (step : cursor.step depth = .token found next deeper) :
    scanTokens cursor depth = consToken found (scanTokens next deeper) := by
  rw [scanTokens]
  split <;> simp_all

/-- What is skipped makes no token. -/
theorem scanTokens_of_skip (step : cursor.step depth = .skip next) :
    scanTokens cursor depth = scanTokens next depth := by
  rw [scanTokens]
  split <;> simp_all

/-- The scan of a line ends where the line does. -/
theorem scanTokens_of_last {found : Option Token} (step : cursor.step depth = .last found) :
    scanTokens cursor depth = .ok ⟨found.toList, cursor.line.number, cursor.below, depth⟩ := by
  rw [scanTokens]
  split <;> simp_all

/-- A fault ends the scan of a line. -/
theorem scanTokens_of_fault {cause : Cause} {place : Cursor}
    (step : cursor.step depth = .fault cause place) :
    scanTokens cursor depth =
      .error ⟨cause, cursor.line.number, ⟨[], place.line.number, place.below, depth⟩⟩ := by
  rw [scanTokens]
  split <;> simp_all

end steps

/-- What is found step by step is what is scanned at once. -/
theorem Cursor.Scans.scanTokens {cursor : Cursor} {depth : Nat} {scanned : Scanned}
    (scans : cursor.Scans depth scanned) : Offside.scanTokens cursor depth = .ok scanned := by
  induction scans with
  | token step later ih =>
    rw [scanTokens_of_token step, ih]
    rfl
  | skip step later ih => rw [scanTokens_of_skip step, ih]
  | last step => exact scanTokens_of_last step

namespace Scanner

/-- The scan of a line without statements. -/
theorem scanLine_of_idle {scanner : Scanner} {line : Line} {below : List Line}
    {tokens : List Token} (lines : scanner.below = line :: below)
    (idles : idleTokens? (behindIndent line below) = some tokens) :
    scanner.scanLine = .ok { scanner with below, line := line.number, pending := tokens } := by
  rw [behindIndent] at idles
  rw [scanLine, lines]
  dsimp only
  rw [idles]

/-- The scan of a logical line. -/
theorem scanLine_of_logical {scanner : Scanner} {line : Line} {below : List Line}
    {marks : List Token} {indents : List Nat} {found : Scanned}
    (lines : scanner.below = line :: below)
    (logical : idleTokens? (behindIndent line below) = none)
    (tracked : scanner.track line below = .ok (marks, indents))
    (scans : (behindIndent line below).Scans scanner.depth found) :
    scanner.scanLine = .ok { scanner with
      below := found.below, line := found.line, indents, depth := found.depth,
      pending := marks ++ found.tokens } := by
  have scanned := scans.scanTokens
  rw [track] at tracked
  rw [behindIndent] at logical tracked scanned
  rw [indentWidth] at tracked
  rw [scanLine, lines]
  dsimp only
  rw [logical]
  dsimp only
  rw [tracked]
  dsimp only
  rw [scanned]
  rfl

/-- Lines are read one after the other, up to a point before the end of the input. -/
inductive Reads : Scanner → List Token → Scanner → Prop where
  /-- No line is read. -/
  | stop {point : Scanner} : Reads point [] point
  /-- A line, and more of them. -/
  | line {before scanned behind : Scanner} {tokens : List Token}
      (going : before.finished = false) (some_ : before.below ≠ [])
      (scan : before.scanLine = .ok scanned) (later : Reads scanned.idle tokens behind) :
      Reads before (scanned.pending ++ tokens) behind

variable {before behind : Scanner} {made : List Token}

/-- A line is not the end of the input, and it is in the same file. -/
theorem scanLine_going {scanner scanned : Scanner} (some_ : scanner.below ≠ [])
    (scan : scanner.scanLine = .ok scanned) :
    scanned.finished = scanner.finished ∧ scanned.file = scanner.file := by
  rcases scanLine_ok scan with ⟨bottom, -⟩ | ⟨line, below, -, idles | logical⟩
  · contradiction
  · obtain ⟨tokens, -, rfl⟩ := idles
    exact ⟨rfl, rfl⟩
  · obtain ⟨-, marks, indents, found, -, -, rfl⟩ := logical
    exact ⟨rfl, rfl⟩

/-- Behind lines that are read no token is ready, and the scan of the file goes on. -/
theorem Reads.going (reads : before.Reads made behind) (ready : before.pending = [])
    (going : before.finished = false) :
    behind.pending = [] ∧ behind.finished = false ∧ behind.file = before.file := by
  induction reads with
  | stop => exact ⟨ready, going, rfl⟩
  | line going some_ scan later ih =>
    obtain ⟨onward, file⟩ := scanLine_going some_ scan
    obtain ⟨ready, ends, same⟩ := ih rfl (onward.trans going)
    exact ⟨ready, ends, same.trans file⟩

/-- Lines are read behind lines. -/
theorem Reads.trans {between : Scanner} {more : List Token} (front : before.Reads made between)
    (back : between.Reads more behind) : before.Reads (made ++ more) behind := by
  induction front with
  | stop => exact back
  | line going some_ scan later ih =>
    rw [List.append_assoc]
    exact .line going some_ scan (ih back)

/-- What holds of a scan holds behind the lines that are read. -/
theorem Reads.keeps {earlier : List Token} (reads : before.Reads made behind)
    (kept : Keeps earlier before) : Keeps (earlier ++ made) behind := by
  induction reads generalizing earlier with
  | stop => rwa [List.append_nil]
  | line going some_ scan later ih =>
    rw [← List.append_assoc]
    exact ih (kept.scanLine going scan)

section embed

variable (count : Nat) (more : List Line)

/-- The place behind the indentation of a line between other lines. -/
theorem behindIndent_embed (line : Line) (below : List Line) :
    behindIndent (line.lower count) (embedLines count more below) =
      (behindIndent line below).embed count more := rfl

/-- The indentation of a line further down. -/
@[simp] theorem indentWidth_lower (line : Line) : indentWidth (line.lower count) = indentWidth line :=
  rfl

/-- The same brackets are open between other lines. -/
@[simp] theorem embed_depth (scanner : Scanner) :
    (scanner.embed count more).depth = scanner.depth := rfl

/-- The same blocks are open between other lines. -/
@[simp] theorem embed_indents (scanner : Scanner) :
    (scanner.embed count more).indents = scanner.indents := rfl

/-- The tokens of a line without statements between other lines. -/
theorem idleTokens_embed (cursor : Cursor) :
    idleTokens? (cursor.embed count more) =
      (idleTokens? cursor).map (List.map (Token.lower count)) := by
  unfold idleTokens?
  rw [Cursor.embed_rest]
  dsimp only
  split
  · rfl
  · split <;> rfl

/-- The marks of an indentation between other lines. -/
theorem trackIndent_embed {indents kept : List Nat} {width : Nat} {cursor : Cursor}
    {marks : List Token} (tracked : trackIndent indents width cursor = .ok (marks, kept)) :
    trackIndent indents width (cursor.embed count more) =
      .ok (marks.map (Token.lower count), kept) := by
  rw [trackIndent_ok_iff] at tracked ⊢
  cases tracked with
  | opens wider => exact .opens wider
  | closes narrow fits =>
    rw [List.map_map]
    exact .closes narrow fits

/-- The marks at the start of a line between other lines. -/
theorem track_embed {scanner : Scanner} {line : Line} {below : List Line} {marks : List Token}
    {indents : List Nat} (tracked : scanner.track line below = .ok (marks, indents)) :
    (scanner.embed count more).track (line.lower count) (embedLines count more below) =
      .ok (marks.map (Token.lower count), indents) := by
  rw [track] at tracked
  rw [track, embed_depth, embed_indents, indentWidth_lower, behindIndent_embed]
  by_cases flat : scanner.depth = 0
  · rw [if_pos flat] at tracked ⊢
    exact trackIndent_embed count more tracked
  · rw [if_neg flat] at tracked ⊢
    obtain ⟨rfl, rfl⟩ := Prod.mk.inj (Except.ok.inj tracked)
    rfl

/-- The end of the input below other lines. -/
theorem finish_embed (scanner : Scanner) :
    (scanner.embed count more).finish.pending =
      scanner.finish.pending.map (Token.lower count) := by
  rw [Scanner.finish, Scanner.finish, List.map_append, List.map_map]
  rfl

/-- A line is scanned in the same way between other lines. -/
theorem scanLine_embed {scanner scanned : Scanner} (some_ : scanner.below ≠ [])
    (scan : scanner.scanLine = .ok scanned) :
    (scanner.embed count more).scanLine = .ok (scanned.embed count more) := by
  rcases scanLine_ok scan with ⟨bottom, -⟩ | ⟨line, below, lines, found⟩
  · contradiction
  have embedded : (scanner.embed count more).below =
      line.lower count :: embedLines count more below := by
    simp [Scanner.embed, embedLines, lines]
  rcases found with ⟨tokens, idles, rfl⟩ | ⟨logical, marks, indents, found, tracked, scans, rfl⟩
  · have idles : idleTokens? (behindIndent (line.lower count) (embedLines count more below)) =
        some (tokens.map (Token.lower count)) := by
      rw [behindIndent_embed, idleTokens_embed, idles]
      rfl
    exact scanLine_of_idle embedded idles
  · have logical : idleTokens? (behindIndent (line.lower count) (embedLines count more below)) =
        none := by
      rw [behindIndent_embed, idleTokens_embed, logical]
      rfl
    rw [scanLine_of_logical embedded logical (track_embed count more tracked)
      (scans.embed count more)]
    simp [Scanner.embed, Scanned.embed]

/-- Lines are read in the same way between other lines. -/
theorem Reads.embed (reads : before.Reads made behind) :
    (before.embed count more).Reads (made.map (Token.lower count)) (behind.embed count more) := by
  induction reads with
  | stop => exact .stop
  | @line before scanned behind tokens going some_ scan later ih =>
    have onward : (before.embed count more).finished = false := going
    rw [List.map_append]
    refine .line onward ?_ (scanLine_embed count more some_ scan) ih
    simp [Scanner.embed, embedLines, some_]

end embed

/-- A scan that has ended hands out the tokens that are ready. -/
theorem drain_of_finished {scanner : Scanner} (finished : scanner.finished = true) (bound : Nat) :
    (scanner.drain bound).1 = ⟨scanner.pending, none⟩ := by
  cases bound with
  | zero => rfl
  | succ bound => rw [drain, if_pos finished]

/-- What is drained without a fault is read line by line, and the end follows. -/
theorem reads_of_drain {scanner : Scanner} {bound : Nat} {tokens : List Token}
    (terminated : ∀ line ∈ scanner.below, line.Terminated) (going : scanner.finished = false)
    (enough : scanner.below.length + 1 < bound)
    (drained : (scanner.drain bound).1 = ⟨tokens, none⟩) :
    ∃ made point, scanner.idle.Reads made point ∧ point.below = [] ∧
      tokens = scanner.pending ++ (made ++ point.finish.pending) := by
  induction bound generalizing scanner tokens with
  | zero => contradiction
  | succ bound ih =>
    rw [drain, if_neg (by simp [going])] at drained
    dsimp only at drained
    split at drained
    · simp at drained
    · rename_i scanned scan
      replace scan : scanner.idle.scanLine = .ok scanned := scan
      obtain ⟨whole, failure⟩ := Stream.mk.inj drained
      by_cases bottom : scanner.below = []
      · -- The end of the input is scanned last.
        rcases scanLine_ok scan with ⟨-, rfl⟩ | ⟨line, below, lines, -⟩
        · rw [drain_of_finished rfl] at whole
          exact ⟨[], scanner.idle, .stop, bottom, whole.symm⟩
        · have lines : scanner.below = line :: below := lines
          rw [bottom] at lines
          contradiction
      · have progress := scanLine_progress terminated scan
        have onward := (scanLine_going bottom scan).1.trans going
        have shorter : scanned.below.length < scanner.below.length :=
          (progress.2.2.resolve_right (by simp [onward])).2
        obtain ⟨made, point, reads, end_, same⟩ :=
          @ih scanned (scanned.drain bound).1.tokens
            (fun line member => terminated line (progress.2.1.subset member)) onward (by omega)
            (by rw [← failure])
        refine ⟨scanned.pending ++ made, point, .line going bottom scan reads, end_, ?_⟩
        rw [← whole, same]
        simp

/-- Lines that are read up to the end of the input are drained without a fault. -/
theorem Reads.drain {scanner point : Scanner} {bound : Nat}
    (reads : scanner.idle.Reads made point) (bottom : point.below = [])
    (terminated : ∀ line ∈ scanner.below, line.Terminated) (going : scanner.finished = false)
    (enough : scanner.below.length + 1 < bound) :
    (scanner.drain bound).1 = ⟨scanner.pending ++ (made ++ point.finish.pending), none⟩ := by
  induction bound generalizing scanner made with
  | zero => contradiction
  | succ bound ih =>
    rw [Scanner.drain, if_neg (by simp [going])]
    dsimp only
    rw [← idle]
    cases reads with
    | stop =>
      have scan : scanner.idle.scanLine = .ok scanner.idle.finish := by
        rw [scanLine, bottom]
      rw [scan]
      dsimp only
      rw [drain_of_finished rfl]
      rfl
    | @line _ scanned _ tokens _ some_ scan later =>
      have progress := scanLine_progress terminated scan
      have onward := (scanLine_going some_ scan).1.trans going
      have shorter : scanned.below.length < scanner.below.length :=
        (progress.2.2.resolve_right (by simp [onward])).2
      rw [scan]
      dsimp only
      rw [ih later (fun line member => terminated line (progress.2.1.subset member)) onward
        (by omega)]
      simp

/-- The marks with which blocks close. -/
def dedents (indents : List Nat) (line : Nat) (raw : String) : List Token :=
  indents.map fun _ => ⟨.dedent, "", line, raw⟩

/-- The grammar looks at the marks with which blocks close. -/
theorem filter_dedents (indents : List Nat) (line : Nat) (raw : String) :
    (dedents indents line raw).filter Token.isSignificant = dedents indents line raw := by
  refine List.filter_eq_self.2 fun token member => ?_
  obtain ⟨-, -, rfl⟩ := List.mem_map.1 member
  rfl

/-- The end of the input closes the blocks. -/
theorem finish_pending (scanner : Scanner) :
    scanner.finish.pending =
      dedents scanner.indents scanner.line "" ++ [.endMarker scanner.line] := rfl

/-- A line without statements has no token that the grammar looks at. -/
theorem filter_idleTokens {cursor : Cursor} {tokens : List Token}
    (found : idleTokens? cursor = some tokens) : tokens.filter Token.isSignificant = [] := by
  refine List.filter_eq_nil_iff.2 fun token member => ?_
  rcases idleTokens_kind found token member with kind | kind <;> simp [Token.isSignificant, kind]

/-- A line outside all blocks that opens no block closes the blocks that are open. -/
theorem track_dedents {scanner : Scanner} {line : Line} {below : List Line} {marks : List Token}
    {indents kept : List Nat} (flat : scanner.depth = 0) (outside : scanner.indents = [])
    (tracked : scanner.track line below = .ok (marks, kept))
    (flush : ∀ token ∈ marks.head?, token.kind ≠ .indent) (ordered : Ordered indents)
    (number : Nat) :
    marks = [] ∧ kept = [] ∧
      ({ scanner with indents, line := number } : Scanner).track line below =
        .ok (dedents indents line.number line.text, []) := by
  rw [track, if_pos flat, outside, trackIndent] at tracked
  split at tracked
  · obtain ⟨rfl, -⟩ := Prod.mk.inj (Except.ok.inj tracked)
    exact absurd rfl (flush _ rfl)
  · rename_i narrow
    have zero : indentWidth line = 0 := Nat.eq_zero_of_not_pos narrow
    simp only [List.takeWhile_nil, List.dropWhile_nil, List.headD_nil, zero, if_true] at tracked
    obtain ⟨rfl, rfl⟩ := Prod.mk.inj (Except.ok.inj tracked)
    refine ⟨rfl, rfl, ?_⟩
    have all : ∀ width ∈ indents, decide (indentWidth line < width) = true := by
      intro width member
      rw [zero]
      exact decide_eq_true (ordered.2 width member)
    rw [track, if_pos flat, trackIndent, if_neg (by omega)]
    dsimp only
    rw [List.takeWhile_eq_self_iff.2 all, List.dropWhile_eq_nil_iff.2 all, List.headD_nil,
      if_pos zero.symm]
    rfl

/-- Where blocks are open before lines that stand outside of them, they close before the first
logical line or at the end of the input, and nothing else is different. -/
theorem Reads.dedent {indents : List Nat} (ordered : Ordered indents) (number : Nat)
    (reads : before.Reads made behind) (bottom : behind.below = []) (outside : before.indents = [])
    (flat : before.depth = 0)
    (flush : ∀ token ∈ (made.filter Token.isSignificant).head?, token.kind ≠ .indent) :
    ∃ more point line raw rest,
      ({ before with indents, line := number } : Scanner).Reads more point ∧ point.below = [] ∧
      (more ++ point.finish.pending).filter Token.isSignificant =
        dedents indents line raw ++ rest ∧
      List.Forall₂ (Token.Alike id)
        ((made ++ behind.finish.pending).filter Token.isSignificant) rest := by
  induction reads generalizing number with
  | @stop point =>
    refine ⟨[], _, number, "", [.endMarker number], .stop, bottom, ?_, ?_⟩
    · rw [List.nil_append, finish_pending, List.filter_append, filter_dedents]
      rfl
    · rw [List.nil_append, finish_pending, outside]
      exact .cons (.mk fun wrong => absurd wrong (by decide)) .nil
  | @line before scanned behind tokens going some_ scan later ih =>
    rcases scanLine_ok scan with ⟨bottom, -⟩ | ⟨line, below, lines, found⟩
    · contradiction
    rcases found with ⟨idle, idles, rfl⟩ | ⟨logical, marks, kept, found, tracked, scans, rfl⟩
    · have unread : idle.filter Token.isSignificant = [] := filter_idleTokens idles
      rw [List.filter_append, unread, List.nil_append] at flush
      obtain ⟨more, point, place, raw, rest, reads, end_, same, alike⟩ :=
        ih line.number bottom outside flat flush
      refine ⟨idle ++ more, point, place, raw, rest, ?_, end_, ?_, ?_⟩
      · have scan := @scanLine_of_idle { before with indents, line := number } line below idle
          lines idles
        exact @Reads.line { before with indents, line := number } _ _ _ going some_ scan reads
      · rw [List.append_assoc, List.filter_append, unread]
        exact same
      · rw [List.append_assoc, List.filter_append, unread]
        exact alike
    · have kinds := (track_ok (outside ▸ ⟨.nil, by simp⟩) tracked).1.kinds
      have looks : marks.filter Token.isSignificant = marks := by
        refine List.filter_eq_self.2 fun token member => ?_
        rcases kinds token member with kind | kind <;> simp [Token.isSignificant, kind]
      have first : ∀ token ∈ marks.head?, token.kind ≠ .indent := by
        intro token member
        refine flush token ?_
        rw [List.append_assoc, List.filter_append, looks, List.head?_append,
          Option.mem_def.1 member]
        rfl
      obtain ⟨rfl, rfl, closes⟩ := track_dedents flat outside tracked first ordered number
      have scan := @scanLine_of_logical { before with indents, line := number } line below _ _ _
        lines logical closes scans
      have reads := @Reads.line { before with indents, line := number } _ _ _ going some_ scan later
      refine ⟨_, behind, line.number, line.text, _, reads, bottom, ?_,
        List.forall₂_same.2 fun token _ => token.alike_move id⟩
      simp [filter_dedents]

end Scanner

/-- The tokens of a source text are those of its lines and of its end. -/
theorem tokenize_ok_iff {source : String} {file : Option String} {tokens : List Token} :
    tokenize source file = .ok tokens ↔ ∃ made point,
      (Scanner.start (physicalLines source) file).Reads made point ∧ point.below = [] ∧
        tokens = made ++ point.finish.pending := by
  have terminated := Line.read_terminated (physicalLines source)
  have enough : (Scanner.start (physicalLines source) file).below.length + 1 <
      (Scanner.start (physicalLines source) file).below.length + 2 := Nat.lt_succ_self _
  rw [tokenize, Stream.ofSource, Stream.ofLines, Scanner.run]
  constructor
  · intro scanned
    generalize drained : ((Scanner.start (physicalLines source) file).drain _).1 = stream at scanned
    obtain ⟨found, failure⟩ := stream
    cases failure with
    | some fault => contradiction
    | none =>
      obtain rfl := Except.ok.inj scanned
      exact Scanner.reads_of_drain terminated rfl enough drained
  · rintro ⟨made, point, reads, bottom, rfl⟩
    have drained := @Scanner.Reads.drain made (Scanner.start (physicalLines source) file) point _
      reads bottom terminated rfl enough
    rw [drained]
    rfl

/-- The grammar looks at the same tokens some lines further down. -/
theorem filter_lower (count : Nat) (tokens : List Token) :
    (tokens.map (Token.lower count)).filter Token.isSignificant =
      (tokens.filter Token.isSignificant).map (Token.lower count) :=
  List.filter_map

/-- A token that is the same as one some lines further down. -/
theorem Token.Alike.of_lower {count : Nat} {token found : Token}
    (alike : (token.lower count).Alike id found) : token.Alike (· + count) found := by
  obtain ⟨kind, value, line, raw⟩ := token
  obtain ⟨moved⟩ := alike
  exact .mk moved

/-- The tokens of a text, as the grammar looks at them, are those of two texts one behind the other:
the end mark of the first one is left out, and the second one is some lines further down. -/
def Joins (count : Nat) (first second whole : List Token) : Prop :=
  ∃ left last moved rest, first = left ++ [last] ∧ last.kind = .endMarker ∧
    whole = moved ++ rest ∧ List.Forall₂ (Token.Alike id) left moved ∧
    List.Forall₂ (Token.Alike (· + count)) second rest

/-- The whole has no fewer tokens than each of the parts, unless the second one is empty. -/
theorem Joins.length_le {count : Nat} {first second whole : List Token}
    (joins : Joins count first second whole) (some_ : second ≠ []) :
    first.length ≤ whole.length ∧ second.length ≤ whole.length := by
  obtain ⟨left, last, moved, rest, rfl, -, rfl, same, lower⟩ := joins
  have positive := List.length_pos_iff.2 some_
  rw [List.length_append, List.length_append, ← same.length_eq, ← lower.length_eq,
    List.length_singleton]
  omega

/-- The tokens at the end of the input open no brackets. -/
theorem Scanner.bracketsBehind_finish (made : List Token) (point : Scanner) :
    bracketsBehind (made ++ point.finish.pending) = bracketsBehind made := by
  rw [bracketsBehind, List.foldl_append, depthBehind_of_plain, ← bracketsBehind]
  intro token member
  rcases List.mem_append.1 member with member | member
  · obtain ⟨-, -, rfl⟩ := List.mem_map.1 member
    simp
  · obtain rfl := List.mem_singleton.1 member
    simp [Token.endMarker]

/-- The lines of a text that leaves no bracket open are read in the same way if another text is
behind it, whose lines wait below. -/
theorem Scanner.Reads.append {front : String} {file : Option String} {made : List Token}
    {point : Scanner} (back : String) (ends : EndsLine front.toList)
    (reads : (Scanner.start (physicalLines front) file).Reads made point)
    (bottom : point.below = []) (outside : point.depth = 0) :
    (Scanner.start (physicalLines (front ++ back)) file).Reads made
      { (Scanner.start (physicalLines back) file).embed (physicalLines front).length [] with
        indents := point.indents, line := point.line } := by
  obtain ⟨ready, going, named⟩ := reads.going rfl rfl
  have embedded := reads.embed 0
    ((Line.read (physicalLines back)).map (Line.lower (physicalLines front).length))
  have here (tokens : List Token) : tokens.map (Token.lower 0) = tokens := List.map_id tokens
  have lines (lines : List Line) : lines.map (Line.lower 0) = lines := List.map_id lines
  rw [here] at embedded
  convert embedded using 1
  · rw [Scanner.start, read_physicalLines_append ends]
    simp [Scanner.start, Scanner.embed, embedLines, lines]
  · simp [Scanner.start, Scanner.embed, embedLines, bottom, ready, going, outside, named]

/-- The tokens of two texts one behind the other, if the first one leaves no bracket open and the
second one does not start inside a block. -/
theorem tokenize_append {front back : String} {file : Option String} {first second : List Token}
    (ends : EndsLine front.toList) (head : tokenize front file = .ok first)
    (tail : tokenize back file = .ok second) (flat : bracketsBehind first = 0)
    (flush : ∀ token ∈ (second.filter Token.isSignificant).head?, token.kind ≠ .indent) :
    ∃ whole, tokenize (front ++ back) file = .ok whole ∧
      Joins (physicalLines front).length (first.filter Token.isSignificant)
        (second.filter Token.isSignificant) (whole.filter Token.isSignificant) := by
  obtain ⟨made, point, reads, bottom, rfl⟩ := tokenize_ok_iff.1 head
  obtain ⟨later, last, readsBack, bottomBack, rfl⟩ := tokenize_ok_iff.1 tail
  obtain ⟨-, going, -⟩ := reads.going rfl rfl
  have kept : Scanner.Keeps made point := reads.keeps (Scanner.start_keeps _ _)
  have outside : point.depth = 0 := by
    rw [Scanner.bracketsBehind_finish] at flat
    exact (kept.going going).1.symm.trans flat
  have upper := reads.append back ends bottom outside
  have first : ∀ token ∈ ((later.map (Token.lower (physicalLines front).length)).filter
      Token.isSignificant).head?, token.kind ≠ .indent := by
    intro token member
    rw [filter_lower, List.head?_map] at member
    obtain ⟨found, head, rfl⟩ := Option.map_eq_some_iff.1 member
    refine flush found ?_
    rw [List.filter_append, List.head?_append, head]
    rfl
  obtain ⟨more, lowest, line, raw, rest, lower, end_, whole, alike⟩ :=
    (readsBack.embed (physicalLines front).length []).dedent kept.ordered point.line
      (by simp [Scanner.embed, embedLines, bottomBack]) rfl rfl first
  refine ⟨made ++ more ++ lowest.finish.pending,
    tokenize_ok_iff.2 ⟨_, lowest, upper.trans lower, end_, rfl⟩, ?_⟩
  refine ⟨made.filter Token.isSignificant ++ Scanner.dedents point.indents point.line "",
    .endMarker point.line,
    made.filter Token.isSignificant ++ Scanner.dedents point.indents line raw, rest, ?_, rfl, ?_,
    ?_, ?_⟩
  · rw [Scanner.finish_pending, List.filter_append, List.filter_append, Scanner.filter_dedents,
      List.append_assoc]
    rfl
  · rw [List.append_assoc, List.filter_append, whole, List.append_assoc]
  · refine List.rel_append (List.forall₂_same.2 fun token _ => token.alike_move id) ?_
    rw [Scanner.dedents, Scanner.dedents, List.forall₂_map_left_iff, List.forall₂_map_right_iff]
    exact List.forall₂_same.2 fun _ _ => .mk fun wrong => absurd wrong (by decide)
  · rw [Scanner.finish_embed, ← List.map_append, filter_lower, List.forall₂_map_left_iff] at alike
    exact alike.imp fun _ _ => Token.Alike.of_lower

end Offside
