import Offside.Proofs.Layout.Run

/-!
# Nothing of a text is lost

The tokens of a text, each with the gap of white space and continuations before it, are the text
again, once its line ends are line feeds (`tokenize_lossless`). A step of a scan takes the text of
one token or a part of a gap (`Cursor.step_takes`); from there the law is carried through the scan
of a line (`Scanner.scanLine_text`) to all points of a run.
-/
namespace Offside

open Text Lexeme

/-- White space and continuations of lines, and nothing else. -/
def isGap : List Char → Bool
  | [] => true
  | '\\' :: '\n' :: rest => isGap rest
  | c :: rest => isWhiteSpace c && isGap rest

/-- The part of a text that a token stands for. -/
def Token.written (token : Token) : List Char :=
  match token.kind with
  | .newline | .softBreak => ['\n']
  | .indent | .dedent | .endMarker => []
  | _ => token.value.toList

/-- A text in which a line feed alone ends each line that ends in a carriage return and a line
feed. -/
def unifyBreaks : List Char → List Char
  | [] => []
  | '\r' :: '\n' :: rest => '\n' :: unifyBreaks rest
  | c :: rest => c :: unifyBreaks rest

/-- A text with unified line ends, in which the last line ends as well. -/
def normalizeText (text : List Char) : List Char :=
  if text = [] ∨ text.getLast? = some '\n' then unifyBreaks text else unifyBreaks text ++ ['\n']

/-- The text of lines. -/
def linesText (lines : List Line) : List Char :=
  lines.flatMap (·.text.toList)

/-- The text behind a place. -/
def Cursor.text (cursor : Cursor) : List Char :=
  cursor.rest ++ linesText cursor.below

/-- A text is written by tokens, each behind a gap. -/
inductive Spelled : List Token → List Char → Prop where
  /-- Nothing is written by no tokens. -/
  | nil : Spelled [] []
  /-- A gap, a token and what is written behind it. -/
  | cons (gap : List Char) (token : Token) {tokens : List Token} {text : List Char}
      (blank : isGap gap = true) (later : Spelled tokens text) :
      Spelled (token :: tokens) (gap ++ token.written ++ text)

/-- Two gaps in order are a gap. -/
theorem isGap_append {first second : List Char} (head : isGap first = true)
    (tail : isGap second = true) : isGap (first ++ second) = true := by
  fun_induction isGap first with
  | case1 => exact tail
  | case2 rest ih => simpa [isGap] using ih head
  | case3 c rest differs ih =>
    rw [Bool.and_eq_true] at head
    rw [List.cons_append, isGap]
    · simp [head.1, ih head.2]
    · rintro more rfl
      simp [isWhiteSpace, isWithin, whiteSpaceRanges] at head

/-- White space is a gap. -/
theorem isGap_of_all {text : List Char} (blank : ∀ c ∈ text, isWhiteSpace c = true) :
    isGap text = true := by
  fun_induction isGap text with
  | case1 => rfl
  | case2 rest ih =>
    have wrong := blank '\\' List.mem_cons_self
    simp [isWhiteSpace, isWithin, whiteSpaceRanges] at wrong
  | case3 c rest differs ih =>
    rw [Bool.and_eq_true]
    exact ⟨blank c List.mem_cons_self, ih fun d member => blank d (List.mem_cons_of_mem c member)⟩

/-- What is written by tokens in order is what the first ones write and then the others. -/
theorem Spelled.append {first second : List Token} {head tail : List Char}
    (front : Spelled first head) (back : Spelled second tail) :
    Spelled (first ++ second) (head ++ tail) := by
  induction front with
  | nil => exact back
  | cons gap token blank later ih =>
    rw [List.cons_append, List.append_assoc]
    exact .cons gap token blank ih

/-- A token behind one more gap. -/
theorem Spelled.behind {tokens : List Token} {text gap : List Char} (nonempty : tokens ≠ [])
    (blank : isGap gap = true) (spelled : Spelled tokens text) : Spelled tokens (gap ++ text) := by
  cases spelled with
  | nil => contradiction
  | cons first token head later =>
    rw [← List.append_assoc, ← List.append_assoc]
    exact .cons _ token (isGap_append blank head) later

/-- Marks of the layout write nothing. -/
theorem Spelled.marks {tokens : List Token} (bare : ∀ token ∈ tokens, token.written = []) :
    Spelled tokens [] := by
  induction tokens with
  | nil => exact .nil
  | cons token later ih =>
    have rest := ih fun found member => bare found (List.mem_cons_of_mem _ member)
    have spelled := Spelled.cons [] token rfl rest
    rwa [bare token List.mem_cons_self] at spelled

/-- A line in which no line feed stands before its end. -/
def Line.Unbroken (line : Line) : Prop :=
  '\n' ∉ line.text.toList.dropLast

/-- What is not the last character of an end of a text is not the last character of the text. -/
theorem mem_dropLast_of_suffix {c : Char} {rest text : List Char} (suffix : rest <:+ text)
    (found : c ∈ rest.dropLast) : c ∈ text.dropLast := by
  obtain ⟨before, rfl⟩ := suffix
  have nonempty : rest ≠ [] := by
    rintro rfl
    simp at found
  rw [List.dropLast_append_of_ne_nil nonempty]
  exact List.mem_append_right _ found

/-- A line feed in an unbroken line is the last character. -/
theorem Cursor.Inside.break_last {cursor : Cursor} (inside : cursor.Inside)
    (unbroken : cursor.line.Unbroken) (before : List Char) {tail : List Char}
    (front : cursor.rest = before ++ '\n' :: tail) : tail = [] := by
  by_contra more
  refine unbroken (mem_dropLast_of_suffix inside.suffix ?_)
  rw [front, List.dropLast_append_of_ne_nil (by simp), List.dropLast_cons_of_ne_nil more]
  simp

/-- An unbroken line that is terminated is what stands before its line feed, and that. -/
theorem Cursor.Inside.body {cursor : Cursor} (inside : cursor.Inside)
    (terminated : cursor.line.Terminated) (unbroken : cursor.line.Unbroken) :
    ∃ body, cursor.rest = body ++ ['\n'] ∧ '\n' ∉ body := by
  obtain ⟨body, last, same⟩ := (List.eq_nil_or_concat' cursor.rest).resolve_left inside.nonempty
  have ends := inside.getLast terminated
  rw [same, List.getLast?_concat, Option.some.injEq] at ends
  subst ends
  refine ⟨body, same, fun found => ?_⟩
  obtain ⟨before, behind, rfl⟩ := List.append_of_mem found
  have empty := inside.break_last unbroken before
    (by rw [same, List.append_assoc, List.cons_append])
  simp at empty

/-- A text without its line feed at the end. -/
theorem trimEnd_break {body : List Char} (avoids : '\n' ∉ body) :
    trimEnd (· == '\n') (body ++ ['\n']) = body := by
  rw [trimEnd, List.reverse_append, List.reverse_singleton, List.singleton_append,
    List.dropWhile_cons_of_pos (by decide)]
  have kept : body.reverse.dropWhile (· == '\n') = body.reverse := by
    cases back : body.reverse with
    | nil => rfl
    | cons c rest =>
      have member : c ∈ body := by
        rw [← List.mem_reverse, back]
        exact List.mem_cons_self
      rw [List.dropWhile_cons_of_neg]
      rintro same
      exact avoids (eq_of_beq same ▸ member)
  rw [kept, List.reverse_reverse]

namespace Lexeme

/-- A part with more before it goes on exactly where the part does. -/
theorem StringPart.after_eq_continued {part : StringPart} {more taken : List Char}
    (continued : part.after more = .continued taken) :
    ∃ later, part = .continued later ∧ taken = more ++ later := by
  cases part <;> simp_all [StringPart.after]

/-- A literal between single marks that goes on in the next line takes all of an unbroken
line. -/
theorem shortPart_continued {quote : Char} {text taken : List Char}
    (unbroken : '\n' ∉ text.dropLast) (continued : shortPart quote text = .continued taken) :
    taken = text := by
  have lower {c : Char} {rest : List Char} (unbroken : '\n' ∉ (c :: rest).dropLast) :
      '\n' ∉ rest.dropLast := fun found =>
    unbroken (mem_dropLast_of_suffix (List.suffix_cons c rest) found)
  fun_induction shortPart quote text generalizing taken with
  | case1 => simp at continued
  | case2 => simp at continued
  | case3 rest =>
    obtain rfl := StringPart.continued.inj continued
    cases rest with
    | nil => rfl
    | cons c rest => simp at unbroken
  | case4 c tail _ ih =>
    obtain ⟨later, found, rfl⟩ := StringPart.after_eq_continued continued
    simp [ih (lower (lower unbroken)) found]
  | case5 => simp at continued
  | case6 c tail => simp at continued
  | case7 c tail _ _ _ _ _ ih =>
    obtain ⟨later, found, rfl⟩ := StringPart.after_eq_continued continued
    simp [ih (lower unbroken) found]

/-- A literal between triple marks that goes on in the next line takes all of the line. -/
theorem longPart_continued {quote : Char} {escaped : Bool} {text taken : List Char}
    (continued : longPart quote escaped text = .continued taken) : taken = text := by
  induction text generalizing escaped taken with
  | nil => exact (StringPart.continued.inj continued).symm
  | cons c tail ih =>
    rw [longPart] at continued
    split at continued
    · simp at continued
    · obtain ⟨later, found, rfl⟩ := StringPart.after_eq_continued continued
      simp [ih found]

end Lexeme

/-- The text behind a line and the lines below it. -/
theorem linesText_cons (line : Line) (below : List Line) :
    linesText (line :: below) = line.text.toList ++ linesText below :=
  rfl

/-- A string literal and what is behind it are the text, if that holds of its parts in lines. -/
theorem ClosesString.text {part : List Char → StringPart}
    (splits : ∀ text taken rest, part text = .closed taken rest → taken ++ rest = text)
    (goesOn : ∀ text taken, '\n' ∉ text.dropLast → part text = .continued taken → taken = text)
    {below : List Line} {line : Line} {rest taken : List Char} {next : Cursor}
    (closes : ClosesString part below line rest taken next) (whole : '\n' ∉ rest.dropLast)
    (unbroken : ∀ line ∈ below, line.Unbroken) : rest ++ linesText below = taken ++ next.text := by
  induction closes with
  | here found => rw [Cursor.text, ← List.append_assoc, splits _ _ _ found]
  | @later below line first text taken more place found closes ih =>
    have behind := ih (unbroken first List.mem_cons_self)
      fun line member => unbroken line (List.mem_cons_of_mem _ member)
    rw [linesText_cons, behind, goesOn _ _ whole found, List.append_assoc]

/-- A string literal and what is behind it are the text. -/
theorem ScansString.text {cursor next : Cursor} {literal : List Char}
    (scans : ScansString cursor literal next) (unbroken : ∀ line ∈ cursor.lines, line.Unbroken)
    (suffix : cursor.rest <:+ cursor.line.text.toList) : cursor.text = literal ++ next.text := by
  have within {rest : List Char} (behind : rest <:+ cursor.rest) : '\n' ∉ rest.dropLast :=
    fun member => unbroken cursor.line List.mem_cons_self
      (mem_dropLast_of_suffix (behind.trans suffix) member)
  have lower : ∀ line ∈ cursor.below, line.Unbroken := fun line member =>
    unbroken line (List.mem_cons_of_mem _ member)
  cases scans with
  | triple front closes =>
    have behind := closes.text (fun _ _ _ => longPart_closed) (fun _ _ _ => longPart_continued)
      (within (front ▸ List.suffix_append _ _)) lower
    rw [Cursor.text, front, List.append_assoc, behind, List.append_assoc]
  | single front other closes =>
    have behind := closes.text (fun _ _ _ => shortPart_closed) (fun _ _ => shortPart_continued)
      (within (front ▸ List.suffix_cons _ _)) lower
    rw [Cursor.text, front, List.cons_append, List.cons_append, behind]

/-- A kind of token that stands for its value. -/
def Kind.isLexeme (kind : Kind) : Bool :=
  kind = .name || kind = .number || kind = .string || kind = .operator || kind = .comment

/-- A lexeme is written as its value. -/
theorem Token.written_of_isLexeme {token : Token} (lexeme : token.kind.isLexeme = true) :
    token.written = token.value.toList := by
  unfold written
  split <;> simp_all [Kind.isLexeme]

/-- A token that starts at a place is written as its text, if it is a lexeme. -/
theorem Cursor.written_token {cursor : Cursor} {kind : Kind} (value : List Char)
    (lexeme : kind.isLexeme = true) : (cursor.token kind value).written = value := by
  rw [Token.written_of_isLexeme lexeme, Cursor.token, String.toList_ofList]

/-- A step takes the text of a token or a part of a gap, and leaves the rest. -/
def Step.Takes (cursor : Cursor) : Step → Prop
  | .token found next _ => cursor.text = found.written ++ next.text
  | .skip next => ∃ gap, isGap gap = true ∧ cursor.text = gap ++ next.text
  | .last found =>
    ∃ token, found = some token ∧ cursor.text = token.written ++ linesText cursor.below
  | .fault _ _ => True

/-- What each step takes of the text. -/
theorem Cursor.step_takes {cursor : Cursor} (depth : Nat)
    (terminated : ∀ line ∈ cursor.lines, line.Terminated)
    (unbroken : ∀ line ∈ cursor.lines, line.Unbroken) (inside : cursor.Inside) :
    (cursor.step depth).Takes cursor := by
  have ends := terminated cursor.line List.mem_cons_self
  have whole := unbroken cursor.line List.mem_cons_self
  have here {taken rest : List Char} (front : taken ++ rest = cursor.rest) :
      cursor.text = taken ++ ({ cursor with rest } : Cursor).text := by
    rw [Cursor.text, Cursor.text, ← front, List.append_assoc]
  have finds := cursor.step_finds depth
  generalize cursor.step depth = step at finds
  cases finds with
  | nothing front => exact absurd front inside.nonempty
  | unterminated | unexpectedEnd => trivial
  | number =>
    rw [Step.Takes, written_token _ rfl]
    exact here (number_lossless cursor.rest)
  | name =>
    rw [Step.Takes, written_token _ rfl]
    exact here (Munch.many_lossless _ cursor.rest)
  | @literal marks rest text next front _ _ scanned =>
    have suffix : rest <:+ cursor.line.text.toList :=
      (front ▸ List.suffix_append marks rest).trans inside.suffix
    rw [Step.Takes, written_token _ rfl, here front, List.append_assoc,
      (scanString_eq_ok_iff.1 scanned).text unbroken suffix]
  | @continuation line below front lines =>
    refine ⟨['\\', '\n'], rfl, ?_⟩
    rw [Cursor.text, front, lines]
    rfl
  | @lineFeed tail front =>
    obtain rfl := inside.break_last whole [] front
    refine ⟨_, rfl, ?_⟩
    have written : (cursor.token (if depth = 0 then .newline else .softBreak)
        (if cursor.line.bare then [] else ['\n'])).written = ['\n'] := by
      by_cases flat : depth = 0 <;> simp [Cursor.token, Token.written, flat]
    rw [written, Cursor.text, front]
  | @white c tail front _ blank =>
    exact ⟨[c], isGap_of_all (by simpa using blank), here front.symm⟩
  | @comment tail front =>
    obtain ⟨body, same, avoids⟩ := inside.body ends whole
    rw [Step.Takes, written_token _ rfl, same, trimEnd_break avoids, Cursor.text, Cursor.text,
      same, List.append_assoc]
    cases body with
    | nil => simp [front] at same
    | cons mark body =>
      obtain ⟨-, rfl⟩ := List.cons.inj (front.symm.trans same)
      simp
  | @operator c tail front =>
    rw [Step.Takes, written_token _ rfl]
    exact here (operator_lossless cursor.rest)

/-- The tokens of a line write its text, up to the lines that have not been read. -/
theorem Cursor.Scans.text {cursor : Cursor} {depth : Nat} {scanned : Scanned}
    (scans : cursor.Scans depth scanned) (terminated : ∀ line ∈ cursor.lines, line.Terminated)
    (unbroken : ∀ line ∈ cursor.lines, line.Unbroken) (inside : cursor.Inside) :
    ∃ text, Spelled scanned.tokens text ∧ cursor.text = text ++ linesText scanned.below := by
  induction scans with
  | @token cursor next depth deeper found scanned step later ih =>
    have takes := cursor.step_takes depth terminated unbroken inside
    have behind := Cursor.step_inside terminated inside (by rw [step]; rfl)
    obtain ⟨text, spelled, rest⟩ :=
      ih (fun line member => terminated line (behind.2.subset member))
        (fun line member => unbroken line (behind.2.subset member)) behind.1
    rw [step, Step.Takes, rest, ← List.append_assoc] at takes
    exact ⟨_, .cons [] found rfl spelled, takes⟩
  | @skip cursor next depth scanned step later ih =>
    have takes := cursor.step_takes depth terminated unbroken inside
    have behind := Cursor.step_inside terminated inside (by rw [step]; rfl)
    have lower : ∀ line ∈ next.lines, line.Terminated := fun line member =>
      terminated line (behind.2.subset member)
    obtain ⟨text, spelled, rest⟩ :=
      ih lower (fun line member => unbroken line (behind.2.subset member)) behind.1
    rw [step] at takes
    obtain ⟨gap, blank, whole⟩ := takes
    rw [rest, ← List.append_assoc] at whole
    exact ⟨_, spelled.behind (later.progress lower behind.1).1 blank, whole⟩
  | @last cursor depth found step =>
    have takes := cursor.step_takes depth terminated unbroken inside
    rw [step] at takes
    obtain ⟨token, rfl, whole⟩ := takes
    refine ⟨token.written, ?_, whole⟩
    simpa using Spelled.cons [] token rfl .nil

/-- Indentation is white space. -/
theorem isWhiteSpace_of_isIndent {c : Char} (indents : isIndent c = true) :
    isWhiteSpace c = true := by
  simp only [isIndent, Bool.or_eq_true, beq_iff_eq] at indents
  rcases indents with rfl | rfl <;> decide

/-- A line is its indentation and what is behind it. -/
theorem Scanner.line_text (line : Line) (below : List Line) :
    ∃ gap, isGap gap = true ∧
      linesText (line :: below) = gap ++ (behindIndent line below).text := by
  refine ⟨line.text.toList.takeWhile isIndent, ?_, ?_⟩
  · exact isGap_of_all fun c member => isWhiteSpace_of_isIndent (List.mem_takeWhile_imp member)
  · rw [Cursor.text, behindIndent, ← List.append_assoc, List.takeWhile_append_dropWhile,
      linesText_cons]

/-- The tokens of a line without statements write its text. -/
theorem Scanner.idleTokens_text {cursor : Cursor} {tokens : List Token}
    (terminated : cursor.line.Terminated) (unbroken : cursor.line.Unbroken)
    (inside : cursor.Inside) (found : idleTokens? cursor = some tokens) :
    ∃ text, Spelled tokens text ∧ cursor.text = text ++ linesText cursor.below := by
  cases idles_of_idleTokens? found with
  | blank front =>
    rcases front with front | front
    · exact ⟨_, .cons [] _ rfl .nil, by rw [Cursor.text, front]; rfl⟩
    · exact ⟨_, .cons ['\x0c'] _ rfl .nil, by rw [Cursor.text, front]; rfl⟩
  | comment =>
    obtain ⟨body, front, avoids⟩ := inside.body terminated unbroken
    refine ⟨_, .cons [] _ rfl (.cons [] _ rfl .nil), ?_⟩
    rw [Cursor.written_token _ rfl, front, trimEnd_break avoids, Cursor.text, front]
    simp [Cursor.token, Token.written]

/-- The marks of the indentation write nothing. -/
theorem Scanner.track_text {scanner : Scanner} {line : Line} {below : List Line}
    {marks : List Token} {indents : List Nat}
    (tracked : scanner.track line below = .ok (marks, indents)) : Spelled marks [] := by
  refine Spelled.marks fun token member => ?_
  obtain ⟨_, _, rfl | rfl, rfl⟩ := track_token tracked token member <;> rfl

/-- The tokens of a line write its text, and the lines that it runs on into. -/
theorem Scanner.scanLine_text {scanner scanned : Scanner}
    (terminated : ∀ line ∈ scanner.below, line.Terminated)
    (unbroken : ∀ line ∈ scanner.below, line.Unbroken)
    (scan : scanner.scanLine = .ok scanned) :
    ∃ text, Spelled scanned.pending text ∧
      linesText scanner.below = text ++ linesText scanned.below := by
  rcases scanLine_ok scan with ⟨bottom, rfl⟩ | ⟨line, below, lines, idles | logical⟩
  · refine ⟨[], .marks fun token member => ?_, by simp [finish]⟩
    rcases List.mem_append.1 member with closed | last
    · obtain ⟨-, -, rfl⟩ := List.mem_map.1 closed
      rfl
    · rw [List.mem_singleton.1 last]
      rfl
  · obtain ⟨tokens, found, rfl⟩ := idles
    rw [lines] at terminated unbroken
    have ends := terminated line List.mem_cons_self
    obtain ⟨gap, blank, front⟩ := line_text line below
    obtain ⟨text, spelled, rest⟩ := idleTokens_text ends (unbroken line List.mem_cons_self)
      (behindIndent_inside ends) found
    have nonempty : tokens ≠ [] := (scanLine_progress (lines ▸ terminated) scan).1
    refine ⟨gap ++ text, spelled.behind nonempty blank, ?_⟩
    rw [lines, front, rest, List.append_assoc]
    rfl
  · obtain ⟨-, marks, indents, found, tracked, scans, rfl⟩ := logical
    rw [lines] at terminated unbroken
    have inside : (behindIndent line below).Inside :=
      behindIndent_inside (terminated line List.mem_cons_self)
    obtain ⟨gap, blank, front⟩ := line_text line below
    obtain ⟨text, spelled, rest⟩ := scans.text terminated unbroken inside
    have nonempty := (scans.progress terminated inside).1
    refine ⟨[] ++ (gap ++ text), (track_text tracked).append (spelled.behind nonempty blank), ?_⟩
    rw [lines, front, rest, List.nil_append, List.append_assoc]

/-- What has been handed out and is ready writes the text of the lines that have been read. -/
theorem Scanner.Run.text {start : Scanner} (ready : start.pending = [])
    (terminated : ∀ line ∈ start.below, line.Terminated)
    (unbroken : ∀ line ∈ start.below, line.Unbroken) {tokens : List Token} {point : Scanner}
    (run : Run start ⟨tokens, none⟩ point) :
    ∃ text, Spelled (tokens ++ point.pending) text ∧
      linesText start.below = text ++ linesText point.below := by
  have kept := run.invariant
    (fun made scanner => scanner.below <:+ start.below ∧
      ∃ text, Spelled made text ∧ linesText start.below = text ++ linesText scanner.below)
    ⟨List.suffix_refl _, [], by rw [ready]; exact .nil, rfl⟩ ?_
  · exact kept.2
  · rintro made before behind - - ⟨suffix, text, spelled, whole⟩ scan
    have ends : ∀ line ∈ before.below, line.Terminated := fun line member =>
      terminated line (suffix.subset member)
    obtain ⟨more, later, rest⟩ :=
      scanLine_text ends (fun line member => unbroken line (suffix.subset member)) scan
    refine ⟨(scanLine_progress ends scan).2.1.trans suffix, text ++ more, spelled.append later, ?_⟩
    rw [whole, rest, List.append_assoc]
    rfl

/-- A run that has ended without a fault has read all lines. -/
theorem Scanner.Run.bottom {start : Scanner} (going : start.finished = false) {tokens : List Token}
    {point : Scanner} (run : Run start ⟨tokens, none⟩ point) (finished : point.finished = true) :
    point.below = [] := by
  refine run.invariant (fun _ scanner => scanner.finished = true → scanner.below = []) ?_ ?_
    finished
  · intro ended
    rw [show start.finished = true from ended] at going
    contradiction
  · intro made before behind _ open_ _ scan ended
    rcases scanLine_ok scan with ⟨bottom, rfl⟩ | ⟨line, below, _, idles | logical⟩
    · exact bottom
    · obtain ⟨tokens, _, rfl⟩ := idles
      exact absurd (show before.finished = true from ended) (by simp [open_])
    · obtain ⟨_, _, _, _, _, _, rfl⟩ := logical
      exact absurd (show before.finished = true from ended) (by simp [open_])

/-- The lines of a text are not empty and hold no line feed before their ends. -/
theorem splitLines_shape (text : List Char) :
    ∀ line ∈ splitLines text, line ≠ [] ∧ '\n' ∉ line.dropLast := by
  induction text with
  | nil => simp [splitLines]
  | cons c rest ih =>
    rw [splitLines]
    split
    · simpa using ih
    · rename_i differs
      split
      · simp
      · rename_i line lines found
        rw [found, List.forall_mem_cons] at ih
        refine List.forall_mem_cons.2 ⟨⟨by simp, ?_⟩, ih.2⟩
        rw [List.dropLast_cons_of_ne_nil ih.1.1, List.mem_cons, not_or]
        exact ⟨Ne.symm differs, ih.1.2⟩

/-- A line without line feeds before its end has none before its end once it is terminated. -/
theorem normalizeLine_unbroken {text : List Char} (unbroken : '\n' ∉ text.dropLast) :
    '\n' ∉ (normalizeLine text).1.dropLast := by
  unfold normalizeLine
  split
  · rename_i rest back
    obtain rfl : text = rest.reverse ++ ['\r'] ++ ['\n'] := by
      rw [← List.reverse_reverse text, back]
      simp
    rw [List.dropLast_concat, List.mem_append, not_or] at unbroken
    rw [List.dropLast_concat]
    exact unbroken.1
  · exact unbroken
  · rename_i differs
    rw [List.dropLast_concat]
    intro found
    obtain ⟨front, last, rfl⟩ :=
      (List.eq_nil_or_concat' text).resolve_left (List.ne_nil_of_mem found)
    rw [List.dropLast_concat] at unbroken
    rcases List.mem_append.1 found with found | found
    · exact unbroken found
    · obtain rfl := List.mem_singleton.1 found
      exact differs front.reverse (by simp)

/-- A line behind one more character. A carriage return is dropped before the line feed. -/
theorem normalizeLine_cons (c : Char) {line : List Char} (nonempty : line ≠ []) :
    (normalizeLine (c :: line)).1 =
      if c = '\r' ∧ line = ['\n'] then ['\n'] else c :: (normalizeLine line).1 := by
  obtain ⟨front, last, rfl⟩ := (List.eq_nil_or_concat' line).resolve_left nonempty
  obtain ⟨reversed, rfl⟩ : ∃ reversed : List Char, front = reversed.reverse :=
    ⟨front.reverse, by simp⟩
  by_cases broken : last = '\n'
  · subst broken
    cases reversed with
    | nil => by_cases returns : c = '\r' <;> simp [normalizeLine, returns]
    | cons d reversed =>
      have longer : reversed.reverse ++ [d, '\n'] ≠ ['\n'] := by
        intro same
        have length := congrArg List.length same
        simp at length
      by_cases returns : d = '\r' <;> simp_all [normalizeLine]
  · have other : reversed.reverse ++ [last] ≠ ['\n'] := by
      intro same
      have ends := congrArg List.getLast? same
      simp [broken] at ends
    simp [normalizeLine, broken, other]

/-- A text behind one more character. A carriage return is dropped before a line feed. -/
theorem unifyBreaks_cons (c : Char) (rest : List Char) :
    unifyBreaks (c :: rest) =
      if c = '\r' ∧ rest.head? = some '\n' then unifyBreaks rest else c :: unifyBreaks rest := by
  by_cases returns : c = '\r' ∧ rest.head? = some '\n'
  · obtain ⟨rfl, front⟩ := returns
    obtain ⟨more, rfl⟩ := List.head?_eq_some_iff.1 front
    simp [unifyBreaks]
  · rw [if_neg returns, unifyBreaks]
    rintro more rfl rfl
    exact returns ⟨rfl, rfl⟩

/-- A text that is not empty behind one more character. -/
theorem normalizeText_cons (c : Char) {rest : List Char} (nonempty : rest ≠ []) :
    normalizeText (c :: rest) =
      if c = '\r' ∧ rest.head? = some '\n' then normalizeText rest
      else c :: normalizeText rest := by
  have last : (c :: rest).getLast? = rest.getLast? := by
    rw [List.getLast?_cons_of_ne_nil nonempty]
  rw [normalizeText, normalizeText, last, unifyBreaks_cons]
  by_cases returns : c = '\r' ∧ rest.head? = some '\n' <;>
    by_cases ends : rest.getLast? = some '\n' <;> simp [returns, ends, nonempty]

/-- Lines that are terminated one by one are the text with unified line ends. -/
theorem flatMap_normalizeLine (text : List Char) :
    (splitLines text).flatMap (fun line => (normalizeLine line).1) = normalizeText text := by
  induction text with
  | nil => rfl
  | cons c rest ih =>
    have shape := splitLines_shape rest
    have whole := flatten_splitLines rest
    rw [splitLines]
    by_cases same : c = '\n'
    · subst same
      rw [if_pos rfl, List.flatMap_cons, ih]
      cases rest with
      | nil => rfl
      | cons d more =>
        rw [normalizeText_cons '\n' (by simp), if_neg (by simp)]
        rfl
    · rw [if_neg same]
      split
      · rename_i empty
        rw [empty] at whole
        subst whole
        simp [normalizeText, normalizeLine, unifyBreaks, same]
      · rename_i line lines found
        rw [found] at ih shape whole
        obtain ⟨nonempty, unbroken⟩ := shape line List.mem_cons_self
        have behind : rest ≠ [] := by
          rintro rfl
          exact nonempty (List.flatten_eq_nil_iff.1 whole line List.mem_cons_self)
        have front : line = ['\n'] ↔ rest.head? = some '\n' := by
          rw [← whole]
          cases line with
          | nil => contradiction
          | cons d more =>
            cases more with
            | nil => simp
            | cons e more =>
              have differs : d ≠ '\n' := by
                rintro rfl
                simp at unbroken
              simp [differs]
        rw [normalizeText_cons c behind, List.flatMap_cons, normalizeLine_cons c nonempty, ← ih,
          List.flatMap_cons]
        simp only [front]
        split
        · rename_i returns
          rw [front.2 returns.2]
          rfl
        · rfl

/-- The text of lines that are read is the text of the lines, terminated one by one. -/
theorem linesText_read {lines : List String} (nonempty : ∀ line ∈ lines, line ≠ "") :
    linesText (Line.read lines) = lines.flatMap fun line => (normalizeLine line.toList).1 := by
  suffices all : ∀ count bare, linesText (Line.follow count bare lines) =
      lines.flatMap fun line => (normalizeLine line.toList).1 from all 0 false
  induction lines with
  | nil => exact fun _ _ => rfl
  | cons raw later ih =>
    intro count bare
    rw [Line.follow, if_neg (nonempty raw List.mem_cons_self), linesText_cons,
      ih (fun line member => nonempty line (List.mem_cons_of_mem raw member)),
      String.toList_ofList, List.flatMap_cons]

/-- Lines that are read hold line feeds only at their ends, if they did before. -/
theorem Line.read_unbroken {lines : List String}
    (unbroken : ∀ line ∈ lines, '\n' ∉ line.toList.dropLast) :
    ∀ line ∈ Line.read lines, line.Unbroken := by
  suffices all : ∀ count bare, ∀ line ∈ Line.follow count bare lines, line.Unbroken from
    all 0 false
  induction lines with
  | nil => simp [Line.follow]
  | cons raw later ih =>
    intro count bare line found
    rw [Line.follow] at found
    split at found
    · simp at found
    · rcases List.mem_cons.1 found with rfl | found
      · rw [Line.Unbroken, String.toList_ofList]
        exact normalizeLine_unbroken (unbroken raw List.mem_cons_self)
      · exact ih (fun line member => unbroken line (List.mem_cons_of_mem raw member)) _ _ line found

/-- A line of a source text is not empty. -/
theorem physicalLines_filled (source : String) : ∀ raw ∈ physicalLines source, raw ≠ "" := by
  intro raw member
  obtain ⟨text, found, rfl⟩ := List.mem_map.1 member
  intro empty
  apply (splitLines_shape _ text found).1
  rw [← String.toList_ofList (l := text), empty]
  rfl

/-- The lines of a source text are its text with unified line ends. -/
theorem linesText_physicalLines (source : String) :
    linesText (Line.read (physicalLines source)) = normalizeText source.toList := by
  rw [linesText_read, ← flatMap_normalizeLine, physicalLines, List.flatMap_map]
  · simp only [String.toList_ofList]
  · exact physicalLines_filled source

/-- The lines of a source text hold line feeds only at their ends. -/
theorem physicalLines_unbroken (source : String) :
    ∀ line ∈ physicalLines source, '\n' ∉ line.toList.dropLast := by
  intro line member
  obtain ⟨text, found, rfl⟩ := List.mem_map.1 member
  rw [String.toList_ofList]
  exact (splitLines_shape _ text found).2

/-- The gaps of a text that is written by tokens. -/
theorem Spelled.gaps {tokens : List Token} {text : List Char} (spelled : Spelled tokens text) :
    ∃ gaps : List (List Char), gaps.length = tokens.length ∧ (∀ gap ∈ gaps, isGap gap = true) ∧
      text = (List.zipWith (fun gap token => gap ++ token.written) gaps tokens).flatten := by
  induction spelled with
  | nil => exact ⟨[], rfl, by simp, rfl⟩
  | cons gap token blank later ih =>
    obtain ⟨gaps, length, blanks, same⟩ := ih
    refine ⟨gap :: gaps, by simp [length], List.forall_mem_cons.2 ⟨blank, blanks⟩, ?_⟩
    rw [List.zipWith_cons_cons, List.flatten_cons, ← same]

/-- A source text with unified line ends is its tokens in order, each behind a gap of white space
and continuations. -/
theorem tokenize_lossless {source : String} {file : Option String} {tokens : List Token}
    (found : tokenize source file = .ok tokens) :
    ∃ gaps : List (List Char), gaps.length = tokens.length ∧ (∀ gap ∈ gaps, isGap gap = true) ∧
      normalizeText source.toList =
        (List.zipWith (fun gap token => gap ++ token.written) gaps tokens).flatten := by
  obtain ⟨point, run, ready, finished⟩ := Scanner.run_of_tokenize found
  obtain ⟨text, spelled, whole⟩ := run.text rfl (Line.read_terminated _)
    (Line.read_unbroken (physicalLines_unbroken source))
  rw [ready, List.append_nil] at spelled
  have bottom : linesText point.below = [] := by rw [run.bottom rfl finished]; rfl
  have same : normalizeText source.toList = text := by
    rw [← linesText_physicalLines, ← List.append_nil text, ← bottom]
    exact whole
  rw [same]
  exact spelled.gaps

/-- A text with a carriage return, a continuation, a block and no line feed at its end. -/
theorem tokenize_lossless_of_block :
    ∃ tokens, tokenize "if a:\r\n  b = \\\n'c' # d" none = .ok tokens ∧
      tokens.map Token.written = ["if", "a", ":", "\n", "", "b", "=", "'c'", "# d", "\n", "",
        ""].map String.toList ∧
      ∃ gaps : List (List Char), gaps.length = tokens.length ∧ (∀ gap ∈ gaps, isGap gap = true) ∧
        "if a:\n  b = \\\n'c' # d\n".toList =
          (List.zipWith (fun gap token => gap ++ token.written) gaps tokens).flatten := by
  have scanned : (tokenize "if a:\r\n  b = \\\n'c' # d" none).toOption.map
      (·.map Token.written) = some (["if", "a", ":", "\n", "", "b", "=", "'c'", "# d", "\n", "",
        ""].map String.toList) := by
    decide +kernel
  have unified : normalizeText "if a:\r\n  b = \\\n'c' # d".toList =
      "if a:\n  b = \\\n'c' # d\n".toList := by
    decide +kernel
  cases found : tokenize "if a:\r\n  b = \\\n'c' # d" none with
  | error fault =>
    rw [found] at scanned
    contradiction
  | ok tokens =>
    rw [found] at scanned
    exact ⟨tokens, rfl, Option.some.inj scanned, unified ▸ tokenize_lossless found⟩

end Offside
