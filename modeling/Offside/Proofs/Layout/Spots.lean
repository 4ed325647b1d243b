import Offside.Proofs.Layout.Blocks
import Offside.Proofs.Layout.Fronts
import Offside.Proofs.Layout.Tokens

/-!
# Places of a scan

A scan goes from place to place: from the start of a line over its indentation, from token to token
inside a line, and over the end of a line to the next one (`Spot.Step`). There is one way to go, so
what is found on the way to the end of a text starts with what is found on the way to any place in
it (`Spot.Comes.split`), and the tokens of a text are those on the way to its end
(`tokenize_iff_comes`).
-/
namespace Offside

open Text Lexeme

/-- A place of a scan, with the widths of the open blocks and the number of open brackets. -/
inductive Spot where
  /-- Before a line, behind the line of the given number. -/
  | line (below : List Line) (number : Nat) (indents : List Nat) (depth : Nat)
  /-- Inside a line. -/
  | inside (cursor : Cursor) (indents : List Nat) (depth : Nat)

namespace Spot

/-- The place before a text. -/
def start (source : String) : Spot :=
  .line (Line.read (physicalLines source)) 0 [] 0

/-- The text behind a place. -/
def text : Spot → List Char
  | .line below .. => linesText below
  | .inside cursor .. => cursor.text

/-- The number of open brackets. -/
def depth : Spot → Nat
  | .line _ _ _ depth => depth
  | .inside _ _ depth => depth

/-- The marks at the start of a line, and the blocks that are open in it. Inside brackets the
indentation does not count. -/
def track (indents : List Nat) (depth : Nat) (line : Line) (below : List Line) :
    Except (Cause × List Token × List Nat) (List Token × List Nat) :=
  if depth = 0 then
    Scanner.trackIndent indents (Scanner.indentWidth line) (Scanner.behindIndent line below)
  else .ok ([], indents)

/-- Inside brackets a line has no marks. -/
theorem track_ok_iff {indents kept : List Nat} {depth : Nat} {line : Line} {below : List Line}
    {marks : List Token} :
    track indents depth line below = .ok (marks, kept) ↔
      (depth = 0 ∧ Scanner.Tracks indents (Scanner.indentWidth line)
        (Scanner.behindIndent line below) marks kept) ∨
      (depth ≠ 0 ∧ marks = [] ∧ kept = indents) :=
  @Scanner.track_ok_iff ⟨"", below, 0, indents, depth, [], false⟩ line below marks kept

/-- Each mark at the start of a line stands behind its indentation. -/
theorem track_token {indents kept : List Nat} {depth : Nat} {line : Line} {below : List Line}
    {marks : List Token} (tracked : track indents depth line below = .ok (marks, kept)) :
    ∀ token ∈ marks, ∃ kind value, (kind = .indent ∨ kind = .dedent) ∧
      token = (Scanner.behindIndent line below).token kind value :=
  @Scanner.track_token ⟨"", below, 0, indents, depth, [], false⟩ line below marks kept tracked

/-- One step of a scan and the tokens that it finds. -/
inductive Step : Spot → List Token → Spot → Prop where
  /-- A line without statements. -/
  | idle {line : Line} {below : List Line} {number depth : Nat} {indents : List Nat}
      {tokens : List Token}
      (idles : Scanner.idleTokens? (Scanner.behindIndent line below) = some tokens) :
      Step (.line (line :: below) number indents depth) tokens
        (.line below line.number indents depth)
  /-- The indentation of a line with more in it. -/
  | enter {line : Line} {below : List Line} {number depth : Nat} {indents kept : List Nat}
      {marks : List Token}
      (logical : Scanner.idleTokens? (Scanner.behindIndent line below) = none)
      (tracked : track indents depth line below = .ok (marks, kept)) :
      Step (.line (line :: below) number indents depth) marks
        (.inside (Scanner.behindIndent line below) kept depth)
  /-- A token inside a line. -/
  | token {cursor next : Cursor} {depth deeper : Nat} {indents : List Nat} {found : Token}
      (step : cursor.step depth = .token found next deeper) :
      Step (.inside cursor indents depth) [found] (.inside next indents deeper)
  /-- What is no token inside a line. -/
  | skip {cursor next : Cursor} {depth : Nat} {indents : List Nat}
      (step : cursor.step depth = .skip next) :
      Step (.inside cursor indents depth) [] (.inside next indents depth)
  /-- The end of a line. -/
  | last {cursor : Cursor} {depth : Nat} {indents : List Nat} {found : Option Token}
      (step : cursor.step depth = .last found) :
      Step (.inside cursor indents depth) found.toList
        (.line cursor.below cursor.line.number indents depth)

/-- A scan comes from one place to another, and finds tokens on the way. -/
inductive Comes : Spot → List Token → Spot → Prop where
  /-- The same place. -/
  | stop {spot : Spot} : Comes spot [] spot
  /-- A step, and the rest of the way. -/
  | step {before between behind : Spot} {found tokens : List Token}
      (step : Step before found between) (later : Comes between tokens behind) :
      Comes before (found ++ tokens) behind

variable {before between behind : Spot} {found tokens : List Token}

/-- A step is a way. -/
theorem Step.comes (step : Step before found between) : Comes before found between := by
  have way := Comes.step step .stop
  rwa [List.append_nil] at way

/-- Two ways in order. -/
theorem Comes.trans {more : List Token} (front : Comes before found between)
    (back : Comes between more behind) : Comes before (found ++ more) behind := by
  induction front with
  | stop => exact back
  | step step _ ih =>
    rw [List.append_assoc]
    exact .step step (ih back)

/-- There is one step from a place. -/
theorem Step.unique {other : Spot} {more : List Token} (step : Step before found between)
    (second : Step before more other) : found = more ∧ between = other := by
  cases step with
  | idle idles =>
    cases second with
    | idle same =>
      obtain rfl := Option.some.inj (idles.symm.trans same)
      exact ⟨rfl, rfl⟩
    | enter logical =>
      rw [logical] at idles
      contradiction
  | enter logical tracked =>
    cases second with
    | idle idles =>
      rw [logical] at idles
      contradiction
    | enter _ same =>
      obtain ⟨rfl, rfl⟩ := Prod.mk.inj (Except.ok.inj (tracked.symm.trans same))
      exact ⟨rfl, rfl⟩
  | token step =>
    cases second with
    | token same =>
      obtain ⟨rfl, rfl, rfl⟩ := Offside.Step.token.inj (step.symm.trans same)
      exact ⟨rfl, rfl⟩
    | skip same | last same =>
      rw [step] at same
      contradiction
  | skip step =>
    cases second with
    | skip same =>
      obtain rfl := Offside.Step.skip.inj (step.symm.trans same)
      exact ⟨rfl, rfl⟩
    | token same | last same =>
      rw [step] at same
      contradiction
  | last step =>
    cases second with
    | last same =>
      obtain rfl := Offside.Step.last.inj (step.symm.trans same)
      exact ⟨rfl, rfl⟩
    | token same | skip same =>
      rw [step] at same
      contradiction

/-- The end of a text has no step. -/
theorem Step.not_bottom {number depth : Nat} {indents : List Nat}
    (step : Step (.line [] number indents depth) found between) : False := by
  cases step

/-- The way to the end of a text goes on from every place that is reached. -/
theorem Comes.split {number depth : Nat} {indents : List Nat} (front : Comes before found between)
    (whole : Comes before tokens (.line [] number indents depth)) :
    ∃ rest, tokens = found ++ rest ∧ Comes between rest (.line [] number indents depth) := by
  induction front generalizing tokens with
  | stop => exact ⟨tokens, rfl, whole⟩
  | step step _ ih =>
    cases whole with
    | stop => exact step.not_bottom.elim
    | step second later =>
      obtain ⟨rfl, rfl⟩ := step.unique second
      obtain ⟨rest, rfl, way⟩ := ih later
      exact ⟨rest, (List.append_assoc _ _ _).symm, way⟩

section depths

/-- An indentation marks no brackets. -/
theorem track_isMark {indents kept : List Nat} {depth : Nat} {line : Line} {below : List Line}
    {marks : List Token} (tracked : track indents depth line below = .ok (marks, kept)) :
    ∀ token ∈ marks, token.kind = .indent ∨ token.kind = .dedent := by
  intro token member
  obtain ⟨_, _, kind, rfl⟩ := track_token tracked token member
  exact kind

/-- The tokens of a step count the brackets. -/
theorem Step.depth (step : Step before found between) :
    found.foldl Token.depthBehind before.depth = between.depth := by
  cases step with
  | idle idles =>
    refine depthBehind_of_plain _ fun token member => ?_
    rcases Scanner.idleTokens_kind idles token member with kind | kind <;> simp [kind]
  | enter _ tracked =>
    refine depthBehind_of_plain _ fun token member => ?_
    rcases track_isMark tracked token member with kind | kind <;> simp [kind]
  | token step => exact (Cursor.step_token step).2.2
  | skip => rfl
  | last step => exact (Cursor.Scans.last step).brackets.2.2

/-- The tokens on a way count the brackets. -/
theorem Comes.depth (way : Comes before tokens behind) :
    tokens.foldl Token.depthBehind before.depth = behind.depth := by
  induction way with
  | stop => rfl
  | step step _ ih => rw [List.foldl_append, step.depth, ih]

end depths

section lines

/-- The place of a scan between two lines. -/
def ofScanner (scanner : Scanner) : Spot :=
  .line scanner.below scanner.line scanner.indents scanner.depth

/-- A line is scanned step by step. -/
theorem comes_of_scans {cursor : Cursor} {depth : Nat} {scanned : Scanned}
    (scans : cursor.Scans depth scanned) (indents : List Nat) :
    Comes (.inside cursor indents depth) scanned.tokens
      (.line scanned.below scanned.line indents scanned.depth) := by
  induction scans with
  | token step _ ih => exact .step (.token step) ih
  | skip step _ ih => exact .step (.skip step) ih
  | last step => exact (Step.last step).comes

/-- Lines are read step by step. -/
theorem comes_of_reads {scanner point : Scanner} (reads : scanner.Reads tokens point) :
    Comes (.ofScanner scanner) tokens (.ofScanner point) := by
  induction reads with
  | stop => exact .stop
  | @line scanner scanned point tokens _ some_ scan _ ih =>
    rcases Scanner.scanLine_ok scan with ⟨bottom, -⟩ | ⟨line, below, lines, idles | logical⟩
    · contradiction
    · obtain ⟨made, idles, rfl⟩ := idles
      have start : Spot.ofScanner scanner =
          .line (line :: below) scanner.line scanner.indents scanner.depth := by
        rw [ofScanner, lines]
      rw [start]
      exact .step (.idle idles) ih
    · obtain ⟨logical, marks, indents, made, tracked, scans, rfl⟩ := logical
      have start : Spot.ofScanner scanner =
          .line (line :: below) scanner.line scanner.indents scanner.depth := by
        rw [ofScanner, lines]
      rw [start, List.append_assoc]
      exact .step (.enter logical tracked) ((comes_of_scans scans indents).trans ih)

/-- A scan between two lines from which no token is ready. -/
def toScanner (file : String) (below : List Line) (number : Nat) (indents : List Nat)
    (depth : Nat) : Scanner :=
  ⟨file, below, number, indents, depth, [], false⟩

/-- What is found on the way to the end of a text: lines from the start of one, and from inside a
line the rest of it and then lines. -/
def Finds (file : String) (last : Scanner) : Spot → List Token → Prop
  | .line below number indents depth, tokens =>
    (toScanner file below number indents depth).Reads tokens last
  | .inside cursor indents depth, tokens => ∃ scanned rest, cursor.Scans depth scanned ∧
      tokens = scanned.tokens ++ rest ∧
      (toScanner file scanned.below scanned.line indents scanned.depth).Reads rest last

/-- What is found on the way to the end of a text is what reading its lines gives. -/
theorem Comes.finds {number depth : Nat} {indents : List Nat} (file : String)
    (way : Comes before tokens (.line [] number indents depth)) :
    Finds file (toScanner file [] number indents depth) before tokens := by
  generalize ends : Spot.line [] number indents depth = bottom at way
  induction way with
  | stop =>
    subst ends
    exact .stop
  | @step before between behind found tokens step _ ih =>
    have rest := ih ends
    cases step with
    | @idle line below above depth indents tokens idles =>
      have scan := @Scanner.scanLine_of_idle
        (toScanner file (line :: below) above indents depth) line below _ rfl idles
      exact .line rfl (List.cons_ne_nil _ _) scan rest
    | @enter line below above depth indents kept marks logical tracked =>
      obtain ⟨scanned, more, scans, rfl, later⟩ := rest
      have scan := @Scanner.scanLine_of_logical
        (toScanner file (line :: below) above indents depth) line below _ _ _ rfl logical tracked
        scans
      rw [← List.append_assoc]
      exact .line rfl (List.cons_ne_nil _ _) scan later
    | token step =>
      obtain ⟨scanned, more, scans, rfl, later⟩ := rest
      exact ⟨_, more, .token step scans, rfl, later⟩
    | skip step =>
      obtain ⟨scanned, more, scans, rfl, later⟩ := rest
      exact ⟨_, more, .skip step scans, rfl, later⟩
    | last step => exact ⟨_, tokens, .last step, rfl, rest⟩

end lines

/-- The tokens at the end of a text: the marks that close its blocks, and the end mark. -/
def closing (indents : List Nat) (number : Nat) : List Token :=
  Scanner.dedents indents number "" ++ [.endMarker number]

end Spot

/-- The tokens of a text are what is found on the way to its end, and the tokens at its end. -/
theorem tokenize_iff_comes {source : String} {file : Option String} {tokens : List Token} :
    tokenize source file = .ok tokens ↔ ∃ made number indents depth,
      (Spot.start source).Comes made (.line [] number indents depth) ∧
        tokens = made ++ Spot.closing indents number := by
  rw [tokenize_ok_iff]
  constructor
  · rintro ⟨made, point, reads, bottom, rfl⟩
    have way := Spot.comes_of_reads reads
    rw [Spot.ofScanner, Spot.ofScanner, bottom] at way
    exact ⟨made, _, _, _, way, rfl⟩
  · rintro ⟨made, number, indents, depth, way, rfl⟩
    exact ⟨made, _, way.finds (file.getD unknownFile), rfl, rfl⟩

section sound

/-- Lines as they are read: each ends in its only line feed, and the last one may have come without
it. -/
def SoundLines (bare : Bool) : List Line → Prop
  | [] => True
  | line :: below => (line.Terminated ∧ line.Unbroken ∧ line.bare = (below.isEmpty && bare)) ∧
    SoundLines bare below

variable {bare : Bool}

/-- Lines at the end of lines that are sound are sound. -/
theorem SoundLines.suffix {lines lower : List Line} (sound : SoundLines bare lines)
    (within : lower <:+ lines) : SoundLines bare lower := by
  induction lines with
  | nil =>
    obtain rfl := List.suffix_nil.1 within
    exact sound
  | cons line below ih =>
    rcases List.suffix_cons_iff.1 within with rfl | within
    · exact sound
    · exact ih sound.2 within

/-- Each line ends in its only line feed. -/
theorem SoundLines.whole {lines : List Line} (sound : SoundLines bare lines) :
    ∀ line ∈ lines, line.Terminated ∧ line.Unbroken := by
  intro line member
  induction lines with
  | nil => exact absurd member List.not_mem_nil
  | cons first below ih =>
    rcases List.mem_cons.1 member with rfl | later
    · exact ⟨sound.1.1, sound.1.2.1⟩
    · exact ih sound.2 later

/-- A line of which something is known to be left has a body in front of its line feed. -/
theorem SoundLines.body {line : Line} {below : List Line} (sound : SoundLines bare (line :: below)) :
    ∃ body, line.text.toList = body ++ ['\n'] ∧ '\n' ∉ body := by
  obtain ⟨⟨terminated, unbroken, -⟩, -⟩ := sound
  have inside : (Cursor.start line below).Inside := Cursor.start_inside terminated
  exact inside.body terminated unbroken

/-- Lines that are sound hold no text only if there are none. -/
theorem SoundLines.eq_nil {lines : List Line} (sound : SoundLines bare lines)
    (empty : linesText lines = []) : lines = [] := by
  cases lines with
  | nil => rfl
  | cons line below =>
    obtain ⟨body, text, -⟩ := sound.body
    rw [linesText_cons, text] at empty
    simp at empty

/-- Terminated lines before lines that are sound. -/
theorem SoundLines.append {front back : List Line} (some_ : back ≠ [])
    (upper : ∀ line ∈ front, (line.Terminated ∧ line.Unbroken) ∧ line.bare = false)
    (lower : SoundLines bare back) : SoundLines bare (front ++ back) := by
  induction front with
  | nil => exact lower
  | cons line below ih =>
    obtain ⟨⟨whole, ended⟩, rest⟩ := List.forall_mem_cons.1 upper
    refine ⟨⟨whole.1, whole.2, ?_⟩, ih rest⟩
    have more : (below ++ back).isEmpty = false := by simp [some_]
    show line.bare = ((below ++ back).isEmpty && bare)
    rw [ended, more, Bool.false_and]

/-- Lines that all came with their line feeds. -/
theorem SoundLines.of_ended {lines : List Line}
    (ended : ∀ line ∈ lines, (line.Terminated ∧ line.Unbroken) ∧ line.bare = false) :
    SoundLines false lines := by
  induction lines with
  | nil => trivial
  | cons line below ih =>
    obtain ⟨⟨whole, ended⟩, rest⟩ := List.forall_mem_cons.1 ended
    exact ⟨⟨whole.1, whole.2, by rw [ended, Bool.and_false]⟩, ih rest⟩

/-- Lines that end in line feeds come with them. -/
theorem Line.follow_ended {raws : List String}
    (ends : ∀ raw ∈ raws, raw.toList.getLast? = some '\n') (count : Nat) :
    ∀ line ∈ follow count false raws, line.bare = false := by
  induction raws generalizing count with
  | nil => exact fun line member => absurd member List.not_mem_nil
  | cons raw later ih =>
    obtain ⟨here, below⟩ := List.forall_mem_cons.1 ends
    have some_ : raw ≠ "" := by
      rintro rfl
      simp at here
    have kept : (false || !(normalizeLine raw.toList).2) = false := by
      rw [normalizeLine_terminated here]
      rfl
    rw [follow, if_neg some_]
    dsimp only
    rw [kept]
    exact List.forall_mem_cons.2 ⟨rfl, ih below (count + 1)⟩

/-- The last line of a text, up to its line feed if it ends in one. -/
theorem exists_last_line (text : List Char) :
    ∃ front last, text = front ++ last ∧ EndsLine front ∧ '\n' ∉ last := by
  induction text with
  | nil => exact ⟨[], [], rfl, .inl rfl, List.not_mem_nil⟩
  | cons c rest ih =>
    obtain ⟨front, last, rfl, ends, unbroken⟩ := ih
    rcases ends with rfl | ends
    · by_cases breaks : c = '\n'
      · exact ⟨[c], last, rfl, .inr (by rw [breaks]; rfl), unbroken⟩
      · refine ⟨[], c :: last, rfl, .inl rfl, fun member => ?_⟩
        rcases List.mem_cons.1 member with same | later
        · exact breaks same.symm
        · exact unbroken later
    · refine ⟨c :: front, last, rfl, .inr ?_, unbroken⟩
      rw [List.getLast?_cons, ends]
      rfl

/-- A text is divided in one way behind its first line. -/
theorem first_line_inj {line other below otherBelow : List Char} (unbroken : '\n' ∉ line)
    (otherUnbroken : '\n' ∉ other) (same : line ++ '\n' :: below = other ++ '\n' :: otherBelow) :
    line = other ∧ below = otherBelow := by
  have split {line : List Char} (below : List Char) (unbroken : '\n' ∉ line) :
      Munch.many (· != '\n') (line ++ '\n' :: below) = (line, '\n' :: below) := by
    refine Munch.many_append (fun c member => ?_) fun c first => ?_
    · rw [bne_iff_ne]
      rintro rfl
      exact unbroken member
    · obtain rfl := Option.some.inj first
      rfl
  have parts := split below unbroken
  rw [same, split otherBelow otherUnbroken] at parts
  obtain ⟨rfl, behind⟩ := Prod.mk.inj parts
  exact ⟨rfl, (List.cons.inj behind).2.symm⟩

end sound

namespace Spot

variable {before between behind : Spot} {found tokens : List Token} {bare : Bool}

/-- A place in lines as they are read. -/
def Sound (bare : Bool) : Spot → Prop
  | .line below .. => SoundLines bare below
  | .inside cursor .. => cursor.Inside ∧ SoundLines bare cursor.lines

/-- Behind a step a place is still in lines as they are read. -/
theorem Step.sound (step : Step before found behind) (sound : before.Sound bare) :
    behind.Sound bare := by
  cases step with
  | idle => exact sound.2
  | enter => exact ⟨Scanner.behindIndent_inside sound.1.1, sound⟩
  | token step | skip step =>
    obtain ⟨inside, sound⟩ := sound
    obtain ⟨further, within⟩ := Cursor.step_inside (fun line member => (sound.whole line member).1)
      inside (by rw [step]; rfl)
    exact ⟨further, sound.suffix within⟩
  | last => exact sound.2.2

/-- Behind a way a place is still in lines as they are read. -/
theorem Comes.sound (way : Comes before tokens behind) (sound : before.Sound bare) :
    behind.Sound bare := by
  induction way with
  | stop => exact sound
  | step step _ ih => exact ih (step.sound sound)

/-- The last line of a text comes without a line feed. -/
def endsBare (text : List Char) : Bool :=
  text.getLast?.any (· != '\n')

/-- A text starts before lines as they are read. -/
theorem start_sound (source : String) : (start source).Sound (endsBare source.toList) := by
  obtain ⟨front, last, rfl, ends, unbroken⟩ : ∃ front last : String, source = front ++ last ∧
      EndsLine front.toList ∧ '\n' ∉ last.toList := by
    obtain ⟨front, last, whole, ends, unbroken⟩ := exists_last_line source.toList
    refine ⟨.ofList front, .ofList last, ?_, ?_, ?_⟩
    · rw [← String.ofList_append, ← whole, String.ofList_toList]
    · rwa [String.toList_ofList]
    · rwa [String.toList_ofList]
  have upper : ∀ line ∈ Line.read (physicalLines front),
      (line.Terminated ∧ line.Unbroken) ∧ line.bare = false := by
    refine fun line member => ⟨⟨Line.read_terminated _ line member,
      Line.read_unbroken (physicalLines_unbroken _) line member⟩, ?_⟩
    refine Line.follow_ended (fun raw within => ?_) 0 line member
    obtain ⟨text, inside, rfl⟩ := List.mem_map.1 within
    rw [String.toList_ofList]
    exact getLast_of_mem_splitLines ends text inside
  rw [start, Sound, read_physicalLines_append ends]
  by_cases empty : last = ""
  · have ended : endsBare (front ++ last).toList = false := by
      rw [empty, String.append_empty, endsBare]
      rcases ends with ends | ends
      · rw [ends]
        rfl
      · rw [ends]
        rfl
    rw [ended, empty]
    exact .of_ended (by simpa [physicalLines, splitLines, Line.read, Line.follow] using upper)
  · obtain ⟨body, c, chars⟩ := (List.eq_nil_or_concat' last.toList).resolve_left
      fun none_ => empty (String.toList_eq_nil_iff.1 none_)
    have differs : c ≠ '\n' := by
      rintro rfl
      exact unbroken (by rw [chars]; exact List.mem_append_right body List.mem_cons_self)
    have ended : endsBare (front ++ last).toList = true := by
      rw [endsBare, String.toList_append, chars, ← List.append_assoc, List.getLast?_concat]
      simpa using differs
    rw [ended, Line.read_single empty unbroken]
    refine .append (by simp) upper ⟨⟨?_, ?_, rfl⟩, trivial⟩
    · simp [Line.Terminated, Line.lower, Line.single]
    · rw [Line.Unbroken, Line.lower, Line.single, String.toList_append]
      show '\n' ∉ (last.toList ++ ['\n']).dropLast
      rwa [List.dropLast_concat]

/-- The widths of the open blocks. -/
def indents : Spot → List Nat
  | .line _ _ indents _ => indents
  | .inside _ indents _ => indents

/-- Where no mark is found no block is opened or closed. -/
theorem track_indents {indents kept : List Nat} {depth : Nat} {line : Line} {below : List Line}
    (tracked : track indents depth line below = .ok ([], kept)) : kept = indents := by
  rcases track_ok_iff.1 tracked with ⟨-, tracks⟩ | ⟨-, -, same⟩
  · generalize none_ : ([] : List Token) = marks at tracks
    cases tracks with
    | opens => contradiction
    | closes =>
      have whole := List.takeWhile_append_dropWhile
        (p := (Scanner.indentWidth line < ·)) (l := indents)
      rwa [List.map_eq_nil_iff.1 none_.symm] at whole
  · exact same

/-- A step without marks of blocks opens and closes none. -/
theorem Step.indents (step : Step before found behind)
    (unmarked : ∀ token ∈ found, token.kind ≠ .indent ∧ token.kind ≠ .dedent) :
    behind.indents = before.indents := by
  cases step with
  | @enter line below number depth indents kept found logical tracked =>
    cases found with
    | nil => exact track_indents tracked
    | cons mark marks =>
      obtain ⟨opens, closes⟩ := unmarked mark List.mem_cons_self
      rcases track_isMark tracked mark List.mem_cons_self with kind | kind
      · exact absurd kind opens
      · exact absurd kind closes
  | idle | token | skip | last => rfl

/-- A way without marks of blocks opens and closes none. -/
theorem Comes.indents (way : Comes before tokens behind)
    (unmarked : ∀ token ∈ tokens, token.kind ≠ .indent ∧ token.kind ≠ .dedent) :
    behind.indents = before.indents := by
  induction way with
  | stop => rfl
  | step step later ih =>
    obtain ⟨here, below⟩ := List.forall_mem_append.1 unmarked
    exact (ih below).trans (step.indents here)

/-- The place is inside a line, or before one in brackets. -/
def Within : Spot → Prop
  | .line _ _ _ depth => 0 < depth
  | .inside .. => True

/-- A statement ends only at the end of a logical line. -/
theorem Comes.within (way : Comes before tokens behind) (sound : before.Sound bare)
    (unended : ∀ token ∈ tokens, token.kind ≠ .newline) (within : before.Within) :
    behind.Within := by
  induction way with
  | stop => exact within
  | step step later ih =>
    obtain ⟨here, below⟩ := List.forall_mem_append.1 unended
    refine ih (step.sound sound) below ?_
    cases step with
    | idle => exact within
    | enter | token | skip => exact trivial
    | @last cursor depth indents found step =>
      obtain ⟨tail, -, rfl⟩ := Cursor.step_last step sound.1.nonempty
      refine Nat.pos_of_ne_zero fun flat => here _ List.mem_cons_self ?_
      rw [flat]
      rfl

/-- A lexeme of a statement is found by a step inside a line. -/
theorem Step.of_lexeme {token : Token} (step : Step before found behind) (member : token ∈ found)
    (lexeme : token.kind.isAside = false) :
    ∃ cursor next indents depth deeper, before = .inside cursor indents depth ∧
      behind = .inside next indents deeper ∧ found = [token] ∧
      cursor.step depth = .token token next deeper := by
  cases step with
  | idle idles =>
    rcases Scanner.idleTokens_kind idles token member with kind | kind <;>
      · rw [kind] at lexeme
        contradiction
  | enter _ tracked =>
    rcases track_isMark tracked token member with kind | kind <;>
      · rw [kind] at lexeme
        contradiction
  | token step =>
    obtain rfl := List.mem_singleton.1 member
    exact ⟨_, _, _, _, _, rfl, rfl, rfl, step⟩
  | skip => exact absurd member List.not_mem_nil
  | @last cursor depth _ found step =>
    have finds := cursor.step_finds depth
    rw [step] at finds
    cases finds with
    | nothing => exact absurd member List.not_mem_nil
    | lineFeed =>
      obtain rfl := List.mem_singleton.1 member
      by_cases flat : depth = 0 <;>
        simp [Cursor.token, flat, Kind.isAside, Kind.isLexeme] at lexeme

/-- On a way that finds a lexeme of a statement there is a place at which a step finds it. -/
theorem Comes.at_token {upper rest : List Token} {token : Token}
    (way : Comes before (upper ++ token :: rest) behind) (lexeme : token.kind.isAside = false) :
    ∃ cursor next indents depth deeper, Comes before upper (.inside cursor indents depth) ∧
      cursor.step depth = .token token next deeper ∧
      Comes (.inside next indents deeper) rest behind := by
  generalize whole : upper ++ token :: rest = made at way
  induction way generalizing upper with
  | stop => exact absurd whole (by simp)
  | @step before between behind found tokens step later ih =>
    rcases List.append_eq_append_iff.1 whole.symm with ⟨more, rfl, left⟩ | ⟨more, taken, left⟩
    · obtain ⟨cursor, next, indents, depth, deeper, way, at_, onward⟩ := ih left.symm
      exact ⟨cursor, next, indents, depth, deeper, .step step way, at_, onward⟩
    · cases more with
      | nil =>
        have left : [] ++ token :: rest = tokens := left
        obtain ⟨cursor, next, indents, depth, deeper, way, at_, onward⟩ := ih left
        rw [List.append_nil] at taken
        have front := Comes.step step way
        rw [List.append_nil, taken] at front
        exact ⟨cursor, next, indents, depth, deeper, front, at_, onward⟩
      | cons first more =>
        obtain ⟨rfl, rfl⟩ : token = first ∧ rest = more ++ tokens := List.cons.inj left
        have member : token ∈ found := by
          rw [taken]
          exact List.mem_append_right upper List.mem_cons_self
        obtain ⟨cursor, next, indents, depth, deeper, rfl, rfl, rfl, at_⟩ :=
          step.of_lexeme member lexeme
        obtain ⟨rfl, rfl⟩ : upper = [] ∧ more = [] := by
          cases upper with
          | nil => simpa using taken
          | cons other upper => simp at taken
        exact ⟨cursor, next, indents, depth, deeper, .stop, at_, later⟩

end Spot

end Offside
