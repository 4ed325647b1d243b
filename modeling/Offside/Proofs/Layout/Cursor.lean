import Mathlib.Data.List.Basic
import Mathlib.Data.List.TakeWhile
import Offside.Proofs.Layout.Leads

/-!
# Places in lines

A scan stays inside the lines that it was given. Every step leaves a place whose line is one of
the lines in front, with a part of that line behind it that is not empty
(`Cursor.step_inside`). So a scan of a line always meets the line feed at its end, and no lexeme
takes it unless it goes on in the next line.
-/
namespace Offside

open Text Lexeme

namespace Munch

/-- A scanner that never takes a line feed. -/
def AvoidsBreak (munch : Munch) : Prop :=
  ∀ text, '\n' ∉ (munch text).1

/-- Characters of a class without the line feed are taken without one. -/
theorem many_avoidsBreak {admits : Char → Bool} (refused : admits '\n' = false) :
    (many admits).AvoidsBreak := by
  intro text found
  have admitted := List.mem_takeWhile_imp found
  rw [refused] at admitted
  contradiction

/-- A character of a class without the line feed is no line feed. -/
theorem one_avoidsBreak {admits : Char → Bool} (refused : admits '\n' = false) :
    (one admits).AvoidsBreak := by
  intro text
  cases text with
  | nil => simp [one]
  | cons c rest =>
    by_cases admitted : admits c
    · have differs : c ≠ '\n' := by
        rintro rfl
        simp [refused] at admitted
      simpa [one, admitted] using differs.symm
    · simp [one, admitted]

/-- Two scanners in order avoid the line feed if both do. -/
theorem andThen_avoidsBreak {first second : Munch} (head : first.AvoidsBreak)
    (tail : second.AvoidsBreak) : (first.andThen second).AvoidsBreak := by
  intro text found
  rcases List.mem_append.1 found with found | found
  · exact head _ found
  · exact tail _ found

/-- A scanner behind a guard avoids the line feed if both do. -/
theorem guardedBy_avoidsBreak {first second : Munch} (head : first.AvoidsBreak)
    (tail : second.AvoidsBreak) : (first.guardedBy second).AvoidsBreak := by
  intro text
  unfold guardedBy
  split
  · simp
  · exact andThen_avoidsBreak head tail text

end Munch

namespace Lexeme

open Munch

/-- The mark of a radix holds no line feed. -/
theorem radixMark_avoidsBreak {letters : List Char} (refused : '\n' ∉ letters) :
    (radixMark letters).AvoidsBreak := by
  intro text
  unfold radixMark
  split
  · split
    · rename_i c _ admitted
      have differs : c ≠ '\n' := by
        rintro rfl
        exact refused (List.contains_iff_mem.1 admitted)
      simpa using differs.symm
    · simp
  · simp

/-- A fraction holds no line feed. -/
theorem fraction_avoidsBreak {isPart : Char → Bool} (refused : isPart '\n' = false) :
    (fraction isPart).AvoidsBreak :=
  guardedBy_avoidsBreak (one_avoidsBreak (by decide)) (many_avoidsBreak refused)

/-- An exponent holds no line feed. -/
theorem exponent_avoidsBreak : exponent.AvoidsBreak :=
  guardedBy_avoidsBreak (one_avoidsBreak (by decide))
    (andThen_avoidsBreak (one_avoidsBreak (by decide)) (many_avoidsBreak (by decide)))

/-- A number literal holds no line feed. -/
theorem number_avoidsBreak : number.AvoidsBreak := by
  have hex : hexNumber.AvoidsBreak :=
    guardedBy_avoidsBreak (radixMark_avoidsBreak (by decide))
      (andThen_avoidsBreak (many_avoidsBreak (by decide)) (fraction_avoidsBreak (by decide)))
  have plain : plainNumber.AvoidsBreak :=
    andThen_avoidsBreak (radixMark_avoidsBreak (by decide))
      (andThen_avoidsBreak (many_avoidsBreak (by decide))
        (andThen_avoidsBreak (fraction_avoidsBreak (by decide)) exponent_avoidsBreak))
  intro text
  unfold number
  split
  · exact andThen_avoidsBreak plain (one_avoidsBreak (by decide)) text
  · exact andThen_avoidsBreak hex (one_avoidsBreak (by decide)) text

/-- A name holds no line feed. -/
theorem name_avoidsBreak : name.AvoidsBreak :=
  many_avoidsBreak (by decide)

/-- An operator that starts with another character holds no line feed. -/
theorem operator_avoidsBreak {c : Char} {rest : List Char} (differs : c ≠ '\n') :
    '\n' ∉ (operator (c :: rest)).1 := by
  unfold operator
  split
  · rename_i found search
    have none_of_them : ∀ text ∈ longOperators, '\n' ∉ text := by decide
    exact none_of_them found (List.mem_of_find?_eq_some search)
  · simpa using differs.symm

/-- A literal between single marks ends in its mark. -/
theorem shortPart_getLast {quote : Char} {text taken rest : List Char}
    (closed : shortPart quote text = .closed taken rest) : taken.getLast? = some quote := by
  fun_induction shortPart quote text generalizing taken with
  | case1 => simp at closed
  | case2 => simp at closed
  | case3 => simp at closed
  | case4 c tail _ ih =>
    obtain ⟨later, found, rfl⟩ := StringPart.after_eq_closed closed
    simp [List.getLast?_cons, ih found]
  | case5 =>
    obtain ⟨rfl, rfl⟩ := StringPart.closed.inj closed
    rfl
  | case6 c tail => simp at closed
  | case7 c tail _ _ _ _ _ ih =>
    obtain ⟨later, found, rfl⟩ := StringPart.after_eq_closed closed
    simp [List.getLast?_cons, ih found]

/-- A literal between triple marks ends in its mark. -/
theorem longPart_getLast {quote : Char} {escaped : Bool} {text taken rest : List Char}
    (closed : longPart quote escaped text = .closed taken rest) :
    taken.getLast? = some quote := by
  induction text generalizing escaped taken with
  | nil => simp [longPart] at closed
  | cons c tail ih =>
    rw [longPart] at closed
    split at closed
    · obtain ⟨rfl, rfl⟩ := StringPart.closed.inj closed
      rfl
    · obtain ⟨later, found, rfl⟩ := StringPart.after_eq_closed closed
      simp [List.getLast?_cons, ih found]

end Lexeme

/-- A line whose text ends in a line feed. -/
def Line.Terminated (line : Line) : Prop :=
  line.text.toList.getLast? = some '\n'

/-- A line that has been read ends in a line feed. -/
theorem normalizeLine_getLast (text : List Char) :
    (normalizeLine text).1.getLast? = some '\n' := by
  unfold normalizeLine
  split
  · simp
  · rename_i front
    rw [List.getLast?_eq_head?_reverse, front]
    rfl
  · simp

/-- All lines that are read end in line feeds. -/
theorem Line.read_terminated (lines : List String) :
    ∀ line ∈ Line.read lines, line.Terminated := by
  suffices all : ∀ count bare, ∀ line ∈ Line.follow count bare lines, line.Terminated from
    all 0 false
  induction lines with
  | nil => simp [Line.follow]
  | cons raw later ih =>
    intro count bare line found
    rw [Line.follow] at found
    split at found
    · simp at found
    · rcases List.mem_cons.1 found with rfl | found
      · rw [Line.Terminated, String.toList_ofList]
        exact normalizeLine_getLast raw.toList
      · exact ih _ _ line found

/-- The lines at a place and below it. -/
def Cursor.lines (cursor : Cursor) : List Line := cursor.line :: cursor.below

/-- Where no line has been passed over above the line of a place, none has been below it. -/
theorem Cursor.below_suffix {upper lower : Cursor} (suffix : lower.lines <:+ upper.lines) :
    lower.below <:+ upper.below := by
  rcases List.suffix_cons_iff.1 suffix with same | within
  · exact (List.cons.inj same).2 ▸ List.suffix_refl _
  · exact (List.suffix_cons _ _).trans within

/-- A place inside its line: some of the line is left. -/
structure Cursor.Inside (cursor : Cursor) : Prop where
  /-- What is left is an end of the line. -/
  suffix : cursor.rest <:+ cursor.line.text.toList
  /-- Something is left. -/
  nonempty : cursor.rest ≠ []

/-- The start of a line that is terminated is inside it. -/
theorem Cursor.start_inside {line : Line} {below : List Line} (terminated : line.Terminated) :
    (Cursor.start line below).Inside := by
  refine ⟨List.suffix_refl _, ?_⟩
  intro empty
  rw [Line.Terminated, show line.text.toList = [] from empty] at terminated
  simp at terminated

/-- What is left of a terminated line ends in its line feed. -/
theorem Cursor.Inside.getLast {cursor : Cursor} (inside : cursor.Inside)
    (terminated : cursor.line.Terminated) : cursor.rest.getLast? = some '\n' := by
  obtain ⟨before, whole⟩ := inside.suffix
  obtain ⟨front, c, same⟩ := (List.eq_nil_or_concat' cursor.rest).resolve_left
    inside.nonempty
  rw [Line.Terminated, ← whole, same, ← List.append_assoc, List.getLast?_concat] at terminated
  rw [same, List.getLast?_concat, terminated]

/-- A place is still inside its line behind characters that do not end in a line feed. -/
theorem Cursor.Inside.behind {cursor : Cursor} (inside : cursor.Inside)
    (terminated : cursor.line.Terminated) (taken : List Char) {rest : List Char}
    (front : taken ++ rest = cursor.rest) (stops : taken.getLast? ≠ some '\n') :
    ({ cursor with rest } : Cursor).Inside := by
  refine ⟨(front ▸ List.suffix_append taken rest).trans inside.suffix, ?_⟩
  rintro rfl
  rw [List.append_nil] at front
  exact stops (front ▸ inside.getLast terminated)

/-- Characters without a line feed do not end in one. -/
theorem getLast?_ne_break {taken : List Char} (avoids : '\n' ∉ taken) :
    taken.getLast? ≠ some '\n' :=
  fun last => avoids (List.mem_of_getLast? last)

/-- Behind the letters that mark a string literal a place is still inside its line. -/
theorem Cursor.Inside.behind_letters {cursor : Cursor} (inside : cursor.Inside)
    (terminated : cursor.line.Terminated) {letters rest : List Char}
    (front : letters ++ rest = cursor.rest)
    (lettered : letters = [] ∨ stringMarks.contains letters = true) :
    ({ cursor with rest } : Cursor).Inside := by
  refine inside.behind terminated letters front (getLast?_ne_break ?_)
  rcases lettered with rfl | lettered
  · simp
  · have none_of_them : ∀ letters ∈ stringMarks, '\n' ∉ letters := by decide
    exact none_of_them letters (List.contains_iff_mem.1 lettered)

/-- A string literal ends inside a line, if its parts end in a mark that is no line feed. -/
theorem ClosesString.inside {part : List Char → StringPart} {quote : Char} (differs : quote ≠ '\n')
    (splits : ∀ text taken rest, part text = .closed taken rest → taken ++ rest = text)
    (marked : ∀ text taken rest, part text = .closed taken rest → taken.getLast? = some quote)
    {below : List Line} {line : Line} {rest taken : List Char} {next : Cursor}
    (closes : ClosesString part below line rest taken next)
    (terminated : ∀ found ∈ line :: below, found.Terminated)
    (inside : (⟨line, rest, below⟩ : Cursor).Inside) :
    next.Inside ∧ next.lines <:+ line :: below := by
  induction closes with
  | here found =>
    have stops := marked _ _ _ found
    refine ⟨inside.behind (terminated _ List.mem_cons_self) _ (splits _ _ _ found) ?_,
      List.suffix_refl _⟩
    simpa [stops] using differs
  | @later below line first text taken more place found closes ih =>
    have lower : ∀ found ∈ first :: below, found.Terminated := fun found member =>
      terminated found (List.mem_cons_of_mem _ member)
    obtain ⟨within, suffix⟩ := ih lower (Cursor.start_inside (lower first List.mem_cons_self))
    exact ⟨within, suffix.trans (List.suffix_cons _ _)⟩

/-- A quotation mark is no line feed. -/
theorem ne_break_of_isQuote {c : Char} (quotes : isQuote c = true) : c ≠ '\n' := by
  rintro rfl
  simp [isQuote] at quotes

/-- Behind a string literal a scan is inside a line. -/
theorem ScansString.inside {cursor next : Cursor} {literal : List Char}
    (scans : ScansString cursor literal next)
    (terminated : ∀ line ∈ cursor.lines, line.Terminated) (inside : cursor.Inside)
    (opens : cursor.rest.head?.any isQuote = true) :
    next.Inside ∧ next.lines <:+ cursor.lines := by
  have ends := terminated cursor.line List.mem_cons_self
  cases scans with
  | @triple quote rest taken next front closes =>
    have differs := ne_break_of_isQuote (by simpa [front] using opens : isQuote quote = true)
    have within : ({ cursor with rest } : Cursor).Inside :=
      inside.behind ends [quote, quote, quote] front.symm (by simpa using differs)
    exact closes.inside differs (fun _ _ _ => longPart_closed) (fun _ _ _ => longPart_getLast)
      terminated within
  | @single quote rest taken next front other closes =>
    have differs := ne_break_of_isQuote (by simpa [front] using opens : isQuote quote = true)
    have within : ({ cursor with rest } : Cursor).Inside :=
      inside.behind ends [quote] front.symm (by simpa using differs)
    exact closes.inside differs (fun _ _ _ => shortPart_closed) (fun _ _ _ => shortPart_getLast)
      terminated within

/-- What a step can find at a place. -/
inductive Cursor.Finds (cursor : Cursor) (depth : Nat) : Step → Prop where
  /-- Nothing is left. -/
  | nothing (front : cursor.rest = []) : Finds cursor depth (.last none)
  /-- A number. -/
  | number (starts : startsNumber cursor.rest = true) :
      Finds cursor depth (.token (cursor.token .number (Lexeme.number cursor.rest).1)
        { cursor with rest := (Lexeme.number cursor.rest).2 } depth)
  /-- A name. -/
  | name (starts : cursor.rest.head?.any isNameStart = true) :
      Finds cursor depth (.token (cursor.token .name (Lexeme.name cursor.rest).1)
        { cursor with rest := (Lexeme.name cursor.rest).2 } depth)
  /-- A string literal behind its marks. -/
  | literal {marks rest text : List Char} {next : Cursor} (front : marks ++ rest = cursor.rest)
      (marked : marks = [] ∨ stringMarks.contains marks = true)
      (opens : rest.head?.any isQuote = true)
      (scanned : scanString { cursor with rest } = .ok (text, next)) :
      Finds cursor depth (.token (cursor.token .string (marks ++ text)) next depth)
  /-- A string literal that does not end. -/
  | unterminated {place : Cursor} : Finds cursor depth (.fault .unterminatedString place)
  /-- A line that goes on in the next one. -/
  | continuation {line : Line} {below : List Line} (front : cursor.rest = ['\\', '\n'])
      (lines : cursor.below = line :: below) : Finds cursor depth (.skip (.start line below))
  /-- A last line that does not end. -/
  | unexpectedEnd (front : cursor.rest = ['\\', '\n']) (bottom : cursor.below = []) :
      Finds cursor depth (.fault .unexpectedEnd cursor)
  /-- The end of the line. -/
  | lineFeed {tail : List Char} (front : cursor.rest = '\n' :: tail) :
      Finds cursor depth (.last (some (cursor.token (if depth = 0 then .newline else .softBreak)
        (if cursor.line.bare then [] else ['\n']))))
  /-- White space. -/
  | white {c : Char} {tail : List Char} (front : cursor.rest = c :: tail) (differs : c ≠ '\n')
      (blank : isWhiteSpace c = true) : Finds cursor depth (.skip { cursor with rest := tail })
  /-- A comment. -/
  | comment {tail : List Char} (front : cursor.rest = '#' :: tail) :
      Finds cursor depth (.token (cursor.token .comment (trimEnd (· == '\n') cursor.rest))
        { cursor with rest := tail.drop (tail.length - 1) } depth)
  /-- An operator. -/
  | operator {c : Char} {tail : List Char} (front : cursor.rest = c :: tail)
      (differs : c ≠ '\n') :
      Finds cursor depth (.token (cursor.token .operator (Lexeme.operator cursor.rest).1)
        { cursor with rest := (Lexeme.operator cursor.rest).2 }
        (bracketDepth depth (Lexeme.operator cursor.rest).1))

/-- A string literal is found or does not end. -/
theorem stringStep_finds {cursor : Cursor} {depth : Nat} {marks rest : List Char}
    (front : marks ++ rest = cursor.rest) (marked : marks = [] ∨ stringMarks.contains marks = true)
    (opens : rest.head?.any isQuote = true) :
    cursor.Finds depth (stringStep cursor marks { cursor with rest } depth) := by
  unfold stringStep
  split
  · rename_i scanned
    exact .literal front marked opens scanned
  · exact .unterminated

/-- A step finds one of these. -/
theorem Cursor.step_finds (cursor : Cursor) (depth : Nat) :
    cursor.Finds depth (cursor.step depth) := by
  obtain ⟨line, rest, below⟩ := cursor
  cases rest with
  | nil => exact .nothing rfl
  | cons c tail =>
    cases Lead.of c tail with
    | number starts =>
      rw [step_number starts rfl]
      exact .number starts
    | marked starts opens known =>
      rw [step_letters starts rfl opens known]
      exact stringStep_finds List.takeWhile_append_dropWhile (.inr known) opens
    | name starts unmarked =>
      rw [step_word starts rfl unmarked]
      exact .name starts
    | continued =>
      cases below with
      | nil => exact .unexpectedEnd rfl rfl
      | cons next below => exact .continuation rfl rfl
    | feed => exact .lineFeed rfl
    | blank member =>
      rw [step_blank member]
      obtain ⟨white, -, differs⟩ := mem_blanks_iff.1 member
      exact .white rfl differs white
    | quote mark =>
      rw [step_quote mark]
      exact stringStep_finds rfl (.inl rfl) mark
    | comment => exact .comment rfl
    | operator starts =>
      rw [step_operator starts rfl]
      exact .operator rfl starts.feed

/-- A scanner that avoids the line feed and loses nothing stops inside the line. -/
theorem Cursor.Inside.munch {cursor : Cursor} (inside : cursor.Inside)
    (terminated : cursor.line.Terminated) {munch : Munch} (lossless : munch.Lossless)
    (avoids : '\n' ∉ (munch cursor.rest).1) :
    ({ cursor with rest := (munch cursor.rest).2 } : Cursor).Inside :=
  inside.behind terminated _ (lossless cursor.rest) (getLast?_ne_break avoids)

/-- Behind each step a scan is inside a line, and no line has been passed over that is above. -/
theorem Cursor.step_inside {cursor next : Cursor} {depth : Nat}
    (terminated : ∀ line ∈ cursor.lines, line.Terminated) (inside : cursor.Inside)
    (found : (cursor.step depth).next? = some next) :
    next.Inside ∧ next.lines <:+ cursor.lines := by
  have ends := terminated cursor.line List.mem_cons_self
  have finds := cursor.step_finds depth
  generalize cursor.step depth = step at found finds
  cases finds with
  | nothing | unterminated | unexpectedEnd | lineFeed => contradiction
  | number =>
    cases found
    exact ⟨inside.munch ends number_lossless (number_avoidsBreak _), List.suffix_refl _⟩
  | name =>
    cases found
    exact ⟨inside.munch ends (Munch.many_lossless _) (name_avoidsBreak _), List.suffix_refl _⟩
  | @literal marks rest text _ front marked opens scanned =>
    cases found
    have within := inside.behind_letters ends front marked
    exact (scanString_eq_ok_iff.1 scanned).inside terminated within opens
  | @continuation line below front lines =>
    cases found
    refine ⟨start_inside (terminated line ?_), ?_⟩
    · simp [Cursor.lines, lines]
    · simp [Cursor.lines, Cursor.start, lines]
  | @white c tail front differs =>
    cases found
    exact ⟨inside.behind ends [c] front.symm (by simpa using differs), List.suffix_refl _⟩
  | @comment tail front =>
    cases found
    have last := inside.getLast ends
    rw [front] at last
    have nonempty : tail ≠ [] := by
      rintro rfl
      simp at last
    have positive := List.length_pos_iff.2 nonempty
    refine ⟨⟨?_, ?_⟩, List.suffix_refl _⟩
    · have behind : '#' :: tail <:+ cursor.line.text.toList := front ▸ inside.suffix
      exact ((List.drop_suffix _ _).trans (List.suffix_cons '#' tail)).trans behind
    · intro empty
      have length := congrArg List.length empty
      rw [List.length_drop, List.length_nil] at length
      omega
  | @operator c tail front differs =>
    cases found
    refine ⟨inside.munch ends operator_lossless ?_, List.suffix_refl _⟩
    rw [front]
    exact operator_avoidsBreak differs

/-- A scan that meets no fault, step by step. -/
inductive Cursor.Scans : Cursor → Nat → Scanned → Prop where
  /-- A token, and the rest of the scan. -/
  | token {cursor next : Cursor} {depth deeper : Nat} {found : Token} {scanned : Scanned}
      (step : cursor.step depth = .token found next deeper) (later : Scans next deeper scanned) :
      Scans cursor depth { scanned with tokens := found :: scanned.tokens }
  /-- What is no token, and the rest of the scan. -/
  | skip {cursor next : Cursor} {depth : Nat} {scanned : Scanned}
      (step : cursor.step depth = .skip next) (later : Scans next depth scanned) :
      Scans cursor depth scanned
  /-- The end of the line. -/
  | last {cursor : Cursor} {depth : Nat} {found : Option Token}
      (step : cursor.step depth = .last found) :
      Scans cursor depth ⟨found.toList, cursor.line.number, cursor.below, depth⟩

/-- A scan up to a fault, step by step. -/
inductive Cursor.Breaks : Cursor → Nat → LineFault → Prop where
  /-- A token, and the rest of the scan. -/
  | token {cursor next : Cursor} {depth deeper : Nat} {found : Token} {fault : LineFault}
      (step : cursor.step depth = .token found next deeper) (later : Breaks next deeper fault) :
      Breaks cursor depth { fault with
        scanned := { fault.scanned with tokens := found :: fault.scanned.tokens } }
  /-- What is no token, and the rest of the scan. -/
  | skip {cursor next : Cursor} {depth : Nat} {fault : LineFault}
      (step : cursor.step depth = .skip next) (later : Breaks next depth fault) :
      Breaks cursor depth fault
  /-- The fault. -/
  | fault {cursor place : Cursor} {depth : Nat} {cause : Cause}
      (step : cursor.step depth = .fault cause place) :
      Breaks cursor depth
        ⟨cause, cursor.line.number, ⟨[], place.line.number, place.below, depth⟩⟩

/-- The tokens of a line are found step by step. -/
theorem scans_of_scanTokens {cursor : Cursor} {depth : Nat} {scanned : Scanned}
    (scan : scanTokens cursor depth = .ok scanned) : cursor.Scans depth scanned := by
  fun_induction scanTokens cursor depth generalizing scanned with
  | case1 cursor depth token next deeper step ih =>
    cases later : scanTokens next deeper with
    | error fault =>
      rw [later] at scan
      contradiction
    | ok found =>
      rw [later] at scan
      obtain rfl := Except.ok.inj scan
      exact .token step (ih later)
  | case2 cursor depth next step ih => exact .skip step (ih scan)
  | case3 cursor depth token step =>
    obtain rfl := Except.ok.inj scan
    exact .last step
  | case4 => contradiction

/-- A fault of a line is met step by step. -/
theorem breaks_of_scanTokens {cursor : Cursor} {depth : Nat} {fault : LineFault}
    (scan : scanTokens cursor depth = .error fault) : cursor.Breaks depth fault := by
  fun_induction scanTokens cursor depth generalizing fault with
  | case1 cursor depth token next deeper step ih =>
    cases later : scanTokens next deeper with
    | error lower =>
      rw [later] at scan
      obtain rfl := Except.error.inj scan
      exact .token step (ih later)
    | ok found =>
      rw [later] at scan
      contradiction
  | case2 cursor depth next step ih => exact .skip step (ih scan)
  | case3 => contradiction
  | case4 cursor depth cause place step =>
    obtain rfl := Except.error.inj scan
    exact .fault step

/-- A scan ends at a line feed, which becomes the last token. -/
theorem Cursor.step_last {cursor : Cursor} {depth : Nat} {found : Option Token}
    (step : cursor.step depth = .last found) (nonempty : cursor.rest ≠ []) :
    ∃ tail, cursor.rest = '\n' :: tail ∧
      found = some (cursor.token (if depth = 0 then .newline else .softBreak)
        (if cursor.line.bare then [] else ['\n'])) := by
  have finds := cursor.step_finds depth
  rw [step] at finds
  cases finds with
  | nothing front => contradiction
  | @lineFeed tail front => exact ⟨tail, front, rfl⟩

/-- A scan from inside a line finds a token, and reads on downwards only. -/
theorem Cursor.Scans.progress {cursor : Cursor} {depth : Nat} {scanned : Scanned}
    (scans : cursor.Scans depth scanned) (terminated : ∀ line ∈ cursor.lines, line.Terminated)
    (inside : cursor.Inside) : scanned.tokens ≠ [] ∧ scanned.below <:+ cursor.below := by
  induction scans with
  | @token cursor next depth deeper found scanned step later ih =>
    have behind := Cursor.step_inside terminated inside (by rw [step]; rfl)
    have lower := (ih (fun line member => terminated line (behind.2.subset member)) behind.1).2
    exact ⟨by simp, lower.trans (Cursor.below_suffix behind.2)⟩
  | @skip cursor next depth scanned step later ih =>
    have behind := Cursor.step_inside terminated inside (by rw [step]; rfl)
    have lower := ih (fun line member => terminated line (behind.2.subset member)) behind.1
    exact ⟨lower.1, lower.2.trans (Cursor.below_suffix behind.2)⟩
  | last step =>
    obtain ⟨tail, -, rfl⟩ := Cursor.step_last step inside.nonempty
    exact ⟨by simp, List.suffix_refl _⟩

end Offside
