import Offside.Proofs.Expression.Written
import Offside.Proofs.Layout.Fronts

/-!
# Outlines

The block structure of a text: words on lines of their own, and headers with blocks below them
(`Outline`). An outline is rendered with one line for each node. The lines of a block start at one
width, which exceeds the width of its header, and idle lines may stand anywhere between them
(`Outline.Renders`). The tokens of such lines spell the outline: a block opens behind its header and
closes behind its last node, also where several blocks close before one line
(`Outline.Renders.spells`).
-/
namespace Offside

open Text Lexeme

/-- A statement of one word. -/
inductive Outline.Leaf where
  /-- The word pass. -/
  | pass
  /-- The word break. -/
  | breakLoop
  /-- The word continue. -/
  | continueLoop
  deriving DecidableEq

namespace Outline.Leaf

/-- The word. -/
def text : Leaf → String
  | .pass => "pass"
  | .breakLoop => "break"
  | .continueLoop => "continue"

/-- The statement. -/
def stmt : Leaf → Stmt
  | .pass => .pass
  | .breakLoop => .breakLoop
  | .continueLoop => .continueLoop

end Outline.Leaf

/-- A word with which a block under a condition starts. -/
inductive Outline.Header where
  /-- The word if. -/
  | ifElse
  /-- The word while. -/
  | whileLoop
  deriving DecidableEq

namespace Outline.Header

/-- The word. -/
def text : Header → String
  | .ifElse => "if"
  | .whileLoop => "while"

/-- The statement with a condition and a body. -/
def stmt (header : Header) (test : Expr) (body : List Stmt) : Stmt :=
  match header with
  | .ifElse => .ifElse test body []
  | .whileLoop => .whileLoop test body []

/-- What a header line with a name holds behind its indentation. -/
def line (header : Header) (name : String) : List Char :=
  header.text.toList ++ ' ' :: (name.toList ++ [':'])

end Outline.Header

/-- A name that is no reserved word. -/
abbrev Outline.Identifier := { name : String // isIdentifier name = true }

/-- A node of the block structure. A block is never empty. -/
inductive Outline where
  /-- A statement of one word. -/
  | leaf (word : Outline.Leaf)
  /-- A header whose condition is a name, and the nodes of its block. -/
  | block (header : Outline.Header) (name : Outline.Identifier) (first : Outline)
      (rest : List Outline)

namespace Outline

mutual

/-- The statement that a node stands for. -/
def stmt : Outline → Stmt
  | .leaf word => word.stmt
  | .block header name first rest =>
    header.stmt (.name name.1 .load) (first.stmt :: stmts rest)

/-- The statements that nodes stand for. -/
def stmts : List Outline → List Stmt
  | [] => []
  | node :: nodes => node.stmt :: stmts nodes

end

/-- Indentation of a width. -/
def IsIndentation (width : Nat) (indent : List Char) : Prop :=
  indent.length = width ∧ indent.all isIndent = true

/-- A line that holds no statement: behind its indentation there is nothing or a comment. -/
def isIdle (line : List Char) : Bool :=
  (line.dropWhile isIndent).head?.all (· == '#')

/-- The lines with which nodes are rendered at a width, without their ends. -/
inductive Renders : Nat → List Outline → List (List Char) → Prop where
  /-- No node is left. -/
  | nil {width : Nat} : Renders width [] []
  /-- An idle line, of any indentation. -/
  | idle {width : Nat} {nodes : List Outline} {line : List Char} {lines : List (List Char)}
      (empty : isIdle line = true) (later : Renders width nodes lines) :
      Renders width nodes (line :: lines)
  /-- The line of a word. -/
  | leaf {width : Nat} {word : Leaf} {nodes : List Outline} {indent : List Char}
      {lines : List (List Char)} (indented : IsIndentation width indent)
      (later : Renders width nodes lines) :
      Renders width (.leaf word :: nodes) ((indent ++ word.text.toList) :: lines)
  /-- The line of a header, and the lines of its block at a greater width. -/
  | block {width inner : Nat} {header : Header} {name : Identifier} {first : Outline}
      {rest nodes : List Outline} {indent : List Char} {inside lines : List (List Char)}
      (indented : IsIndentation width indent) (wider : width < inner)
      (body : Renders inner (first :: rest) inside) (later : Renders width nodes lines) :
      Renders width (.block header name first rest :: nodes)
        ((indent ++ header.line name.1) :: (inside ++ lines))

end Outline

/-- The lines of a text, without their ends. A line ends in a line feed, which a carriage return may
stand before; the last line may lack its end. -/
inductive HasLines : List Char → List (List Char) → Prop where
  /-- No line is left. -/
  | nil : HasLines [] []
  /-- A last line without an end. -/
  | last {line : List Char} (some_ : line ≠ []) (unbroken : '\n' ∉ line) : HasLines line [line]
  /-- A line with its end. -/
  | line {line ending text : List Char} {lines : List (List Char)} (unbroken : '\n' ∉ line)
      (ends : ending = ['\n'] ∨ ending = ['\r', '\n']) (later : HasLines text lines) :
      HasLines (line ++ ending ++ text) (line :: lines)

/-- Lines that each have a line feed behind them. -/
theorem HasLines.of_feeds {text : List Char} {lines : List (List Char)}
    (unbroken : ∀ line ∈ lines, '\n' ∉ line) (joined : text = lines.flatMap (· ++ ['\n'])) :
    HasLines text lines := by
  subst joined
  induction lines with
  | nil => exact .nil
  | cons line lines ih =>
    obtain ⟨here, below⟩ := List.forall_mem_cons.1 unbroken
    rw [List.flatMap_cons]
    exact .line here (.inl rfl) (ih below)

/-- A line that is read holds a line of the text. A carriage return at the end may be taken for a
part of the line end. -/
def Line.Holds (line : Line) (content : List Char) : Prop :=
  ∃ kept, line.text.toList = kept ++ ['\n'] ∧ (content = kept ∨ content = kept ++ ['\r'])

/-- A line without a line feed, and one behind it, is one line. -/
theorem splitLines_terminated {line : List Char} (unbroken : '\n' ∉ line) :
    splitLines (line ++ ['\n']) = [line ++ ['\n']] := by
  induction line with
  | nil => rfl
  | cons c rest ih =>
    rw [List.mem_cons, not_or] at unbroken
    rw [List.cons_append, splitLines, if_neg (Ne.symm unbroken.1), ih unbroken.2]

/-- The line that is read from a line with a line feed behind it, and that it is terminated. -/
theorem normalizeLine_feed (content : List Char) :
    ∃ kept, normalizeLine (content ++ ['\n']) = (kept ++ ['\n'], true) ∧
      (content = kept ∨ content = kept ++ ['\r']) := by
  rcases List.eq_nil_or_concat content with rfl | ⟨front, last, rfl⟩
  · exact ⟨[], rfl, .inl rfl⟩
  · rw [List.concat_eq_append]
    by_cases returns : last = '\r'
    · subst returns
      refine ⟨front, ?_, .inr rfl⟩
      simp [normalizeLine]
    · refine ⟨front ++ [last], ?_, .inl rfl⟩
      simp [normalizeLine, returns]

/-- The lines of a text are read one for one. -/
theorem HasLines.read {text : List Char} {lines : List (List Char)} (has : HasLines text lines) :
    ∀ count bare, List.Forall₂ Line.Holds
      (Line.follow count bare ((splitLines text).map String.ofList)) lines := by
  induction has with
  | nil => exact fun _ _ => .nil
  | @last line some_ unbroken =>
    intro count bare
    have other : String.ofList line ≠ "" := by simpa using some_
    rw [splitLines_of_not_mem some_ unbroken, List.map_singleton, Line.follow, if_neg other,
      String.toList_ofList, normalizeLine_of_not_mem unbroken]
    exact .cons ⟨line, by simp, .inl rfl⟩ .nil
  | @line line ending text lines unbroken ends later ih =>
    intro count bare
    obtain ⟨content, kept, same, plain, normal, holds⟩ : ∃ content kept,
        line ++ ending = content ++ ['\n'] ∧ '\n' ∉ content ∧
        normalizeLine (content ++ ['\n']) = (kept ++ ['\n'], true) ∧
        (line = kept ∨ line = kept ++ ['\r']) := by
      rcases ends with rfl | rfl
      · obtain ⟨kept, normal, holds⟩ := normalizeLine_feed line
        exact ⟨line, kept, rfl, unbroken, normal, holds⟩
      · exact ⟨line ++ ['\r'], line, by simp, by simpa using unbroken, by simp [normalizeLine],
          .inl rfl⟩
    have whole : EndsLine (content ++ ['\n']) := .inr (by simp)
    have some_ : String.ofList (content ++ ['\n']) ≠ "" := by simp
    rw [same, splitLines_append whole, splitLines_terminated plain, List.map_append,
      List.map_singleton, List.singleton_append, Line.follow, if_neg some_, String.toList_ofList,
      normal]
    exact .cons ⟨kept, by simp, holds⟩ (ih _ _)

/-- The tokens that the grammar looks at, without their places. -/
def seen (tokens : List Token) : List Token :=
  (tokens.filter Token.isSignificant).map Token.bare

/-- What is seen of tokens one behind the other. -/
@[simp] theorem seen_append (front back : List Token) :
    seen (front ++ back) = seen front ++ seen back := by
  rw [seen, List.filter_append, List.map_append, ← seen, ← seen]

namespace Token

/-- The end of a logical line, without its place. -/
def lineEnd (text : String) : Token := ⟨.newline, text, 0, ""⟩

/-- The mark where a block opens, without its place. -/
def opening (text : String) : Token := ⟨.indent, text, 0, ""⟩

/-- The mark where a block closes, without its place. -/
def closing : Token := ⟨.dedent, "", 0, ""⟩

end Token

namespace Outline

/-- The tokens of a header line. -/
def Header.tokens (header : Header) (name ending : String) : List Token :=
  [.word header.text, .word name, .mark ":", .lineEnd ending]

/-- The tokens that spell nodes, without their places. The texts of line ends and indentations are
arbitrary. -/
inductive Spells : List Outline → List Token → Prop where
  /-- No node is left. -/
  | nil : Spells [] []
  /-- A word and the end of its line. -/
  | leaf {word : Leaf} {nodes : List Outline} {tokens : List Token} (ending : String)
      (later : Spells nodes tokens) :
      Spells (.leaf word :: nodes) (.word word.text :: .lineEnd ending :: tokens)
  /-- A header line, and the block between its marks. -/
  | block {header : Header} {name : Identifier} {first : Outline} {rest nodes : List Outline}
      {inside behind : List Token} (ending indent : String)
      (body : Spells (first :: rest) inside) (later : Spells nodes behind) :
      Spells (.block header name first rest :: nodes)
        (header.tokens name.1 ending ++ .opening indent :: (inside ++ .closing :: behind))

end Outline

section Lines

variable {line : Line} {below : List Line} {indent body content : List Char}

/-- What follows the indentation of a text that another one is behind. -/
theorem dropWhile_indent_append (front back : List Char) :
    (front.dropWhile isIndent = [] ∧ (front ++ back).dropWhile isIndent = back.dropWhile isIndent) ∨
      ∃ c rest, front.dropWhile isIndent = c :: rest ∧
        (front ++ back).dropWhile isIndent = c :: (rest ++ back) := by
  rw [List.dropWhile_append]
  cases kept : front.dropWhile isIndent with
  | nil => exact .inl ⟨rfl, rfl⟩
  | cons c rest => exact .inr ⟨c, rest, rfl, rfl⟩

/-- An idle line is read as a line without statements. -/
theorem Line.Holds.idle (holds : line.Holds content) (empty : Outline.isIdle content = true) :
    ∃ tokens, Scanner.idleTokens? (Scanner.behindIndent line below) = some tokens := by
  obtain ⟨kept, text, same⟩ := holds
  have keptEmpty : Outline.isIdle kept = true := by
    rcases same with rfl | rfl
    · exact empty
    · rw [Outline.isIdle] at empty ⊢
      rcases dropWhile_indent_append kept ['\r'] with ⟨blank, -⟩ | ⟨c, rest, front, behind⟩
      · rw [blank]
        rfl
      · rw [behind] at empty
        rw [front]
        exact empty
  rw [Outline.isIdle] at keptEmpty
  rw [Scanner.behindIndent, text]
  rcases dropWhile_indent_append kept ['\n'] with ⟨-, behind⟩ | ⟨c, rest, front, behind⟩
  · rw [behind]
    exact ⟨_, rfl⟩
  · rw [front] at keptEmpty
    obtain rfl : c = '#' := by simpa using keptEmpty
    rw [behind]
    exact ⟨_, rfl⟩

/-- A line that does not end in a carriage return is read as it is. -/
theorem Line.Holds.text (holds : line.Holds content) (last : content.getLast? ≠ some '\r') :
    line.text.toList = content ++ ['\n'] := by
  obtain ⟨kept, text, rfl | rfl⟩ := holds
  · exact text
  · exact absurd (by simp) last

/-- The place behind the indentation of a line that starts as a logical line does. -/
theorem Line.Holds.logical {width : Nat} (holds : line.Holds (indent ++ body)) (below : List Line)
    (indented : Outline.IsIndentation width indent) (starts : body.head?.any startsLogical = true)
    (last : body.getLast? ≠ some '\r') :
    Scanner.behindIndent line below = ⟨line, body ++ ['\n'], below⟩ ∧
      Scanner.indentWidth line = width ∧
      Scanner.idleTokens? (Scanner.behindIndent line below) = none := by
  have some_ : body ≠ [] := by
    rintro rfl
    exact absurd starts (by decide)
  have text : line.text.toList = indent ++ (body ++ ['\n']) := by
    rw [← List.append_assoc]
    refine holds.text ?_
    rwa [List.getLast?_append_of_ne_nil _ some_]
  have front : (body ++ ['\n']).head? = body.head? := List.head?_append_of_ne_nil _ some_
  have stops : ∀ c ∈ (body ++ ['\n']).head?, isIndent c = false := by
    intro c member
    rw [front] at member
    rw [Option.mem_def.1 member] at starts
    have first : startsLogical c = true := starts
    simp only [startsLogical, Bool.and_eq_true, Bool.not_eq_true'] at first
    exact first.1.1.1
  obtain ⟨place, wide⟩ := Scanner.behindIndent_eq below text (List.all_eq_true.1 indented.2) stops
  refine ⟨place, wide.trans indented.1, ?_⟩
  rw [place]
  exact Scanner.idleTokens?_eq_none below line (by rw [front]; exact starts)

/-- The rest of a line outside brackets is scanned up to its end, and these tokens are seen. -/
def Line.Shows (line : Line) (below : List Line) (rest : List Char) (tokens : List Token) : Prop :=
  ∃ found, (⟨line, rest, below⟩ : Cursor).Scans 0 ⟨found, line.number, below, 0⟩ ∧
    seen found = tokens

/-- The end of a line. -/
theorem Line.shows_end (line : Line) (below : List Line) :
    ∃ ending, line.Shows below ['\n'] [.lineEnd ending] :=
  ⟨_, _, .last Cursor.step_lineEnd, rfl⟩

/-- A name in front is seen. -/
theorem Line.Shows.name {word rest : List Char} {tokens : List Token}
    (later : line.Shows below rest tokens) (front : IsWord word rest)
    (unquoted : rest.head?.any isQuote = false) :
    line.Shows below (word ++ rest) (.word (String.ofList word) :: tokens) := by
  obtain ⟨found, scans, same⟩ := later
  refine ⟨_, .token (Cursor.step_name front unquoted) scans, ?_⟩
  rw [← same]
  rfl

/-- A space in front is passed over. -/
theorem Line.Shows.space {rest : List Char} {tokens : List Token}
    (later : line.Shows below rest tokens) : line.Shows below (' ' :: rest) tokens := by
  obtain ⟨found, scans, same⟩ := later
  exact ⟨found, .skip rfl scans, same⟩

/-- A colon before the end of the line is seen. -/
theorem Line.Shows.colon {tokens : List Token} (later : line.Shows below ['\n'] tokens) :
    line.Shows below [':', '\n'] (.mark ":" :: tokens) := by
  obtain ⟨found, scans, same⟩ := later
  refine ⟨_, .token (rfl : Cursor.step ⟨line, [':', '\n'], below⟩ 0 = .token _ _ 0) scans, ?_⟩
  rw [← same]
  rfl

/-- A word with the end of its line behind it. -/
theorem Outline.Leaf.shows (word : Leaf) (line : Line) (below : List Line) :
    ∃ ending, line.Shows below (word.text.toList ++ ['\n']) [.word word.text, .lineEnd ending] := by
  obtain ⟨ending, last⟩ := line.shows_end below
  have front : IsWord word.text.toList ['\n'] := by
    cases word <;> exact ⟨rfl, List.all_eq_true.1 rfl, by rintro _ ⟨⟩; rfl⟩
  have shown := last.name front (by decide)
  rw [String.ofList_toList] at shown
  exact ⟨ending, shown⟩

/-- A header line starts a logical line. -/
theorem Outline.Header.line_starts (header : Header) (name : String) :
    (header.line name).head?.any startsLogical = true := by
  cases header <;> rfl

/-- A header line ends in a colon. -/
theorem Outline.Header.line_last (header : Header) (name : String) :
    (header.line name).getLast? = some ':' := by
  have split : header.line name = header.text.toList ++ ' ' :: name.toList ++ [':'] := by
    rw [Outline.Header.line, List.append_assoc, List.cons_append]
  rw [split, List.getLast?_concat]

/-- The words of a header line with the end of the line behind them. -/
theorem Outline.Header.shows (header : Header) (name : Identifier) (line : Line)
    (below : List Line) :
    ∃ ending, line.Shows below (header.line name.1 ++ ['\n']) (header.tokens name.1 ending) := by
  obtain ⟨ending, last⟩ := line.shows_end below
  have identifier := name.2
  rw [isIdentifier, Bool.and_eq_true, Bool.and_eq_true, List.all_eq_true] at identifier
  obtain ⟨⟨starts, parts⟩, -⟩ := identifier
  have condition := last.colon.name ⟨starts, parts, by rintro _ ⟨⟩; rfl⟩ rfl
  have front : IsWord header.text.toList (' ' :: (name.1.toList ++ [':', '\n'])) := by
    cases header <;> exact ⟨rfl, List.all_eq_true.1 rfl, by rintro _ ⟨⟩; rfl⟩
  have shown := condition.space.name front rfl
  rw [String.ofList_toList, String.ofList_toList] at shown
  refine ⟨ending, ?_⟩
  rw [Outline.Header.line, Outline.Header.tokens]
  simpa using shown

end Lines

namespace Scanner

/-- A scan stands before lines, outside brackets and with blocks open, and it goes on. -/
structure Stands (scanner : Scanner) (indents : List Nat) (below : List Line) : Prop where
  /-- No bracket is open. -/
  outside : scanner.depth = 0
  /-- The scan goes on. -/
  going : scanner.finished = false
  /-- The widths of the open blocks. -/
  indents : scanner.indents = indents
  /-- The lines that have not been read. -/
  below : scanner.below = below

variable {scanner : Scanner} {line : Line} {below : List Line} {stack base : List Nat}

/-- An idle line is read, and nothing of it is seen. -/
theorem Stands.idle {tokens : List Token} (stands : scanner.Stands stack (line :: below))
    (idles : idleTokens? (behindIndent line below) = some tokens) :
    ∃ made point, scanner.Reads made point ∧ point.Stands stack below ∧ seen made = [] := by
  have scan := scanLine_of_idle stands.below idles
  have some_ : scanner.below ≠ [] := by simp [stands.below]
  refine ⟨_, _, .line stands.going some_ scan .stop, ⟨stands.outside, stands.going, stands.indents,
    rfl⟩, ?_⟩
  rw [List.append_nil, seen, filter_idleTokens idles]
  rfl

/-- A logical line is read: its marks are seen, and its tokens. -/
theorem Stands.logical {marks tokens : List Token} {rest : List Char}
    (stands : scanner.Stands stack (line :: below))
    (place : behindIndent line below = ⟨line, rest, below⟩)
    (logical : idleTokens? (behindIndent line below) = none)
    (tracked : trackIndent stack (indentWidth line) (behindIndent line below) = .ok (marks, base))
    (shown : line.Shows below rest tokens) :
    ∃ made point, scanner.Reads made point ∧ point.Stands base below ∧
      seen made = seen marks ++ tokens := by
  obtain ⟨found, scans, same⟩ := shown
  have open_ : scanner.track line below = .ok (marks, base) := by
    rw [track, if_pos stands.outside, stands.indents]
    exact tracked
  rw [← place, ← stands.outside] at scans
  have scan := scanLine_of_logical stands.below logical open_ scans
  have some_ : scanner.below ≠ [] := by simp [stands.below]
  refine ⟨_, _, .line stands.going some_ scan .stop, ⟨stands.outside, stands.going, rfl, rfl⟩, ?_⟩
  rw [List.append_nil, seen_append, same]

/-- The marks with which blocks close, without their places. -/
def closings (opened : List Nat) : List Token := opened.map fun _ => .closing

/-- Nodes at a width are entered where the blocks of a stack are open, and the blocks of a base are
open in them: either a block opens for the nodes, or open blocks that are wider close before them.
The marks depend on the text of the indentation. -/
inductive Enters (width : Nat) :
    List Outline → List Nat → List Nat → (String → List Token) → Prop where
  /-- A block opens. -/
  | opens {first : Outline} {nodes : List Outline} {stack : List Nat}
      (wider : stack.headD 0 < width) :
      Enters width (first :: nodes) stack (width :: stack) fun indent => [.opening indent]
  /-- Blocks close. -/
  | closes {nodes : List Outline} {opened base : List Nat} (wider : ∀ inner ∈ opened, width < inner)
      (same : base.headD 0 = width) :
      Enters width nodes (opened ++ base) base fun _ => closings opened

variable {width : Nat} {nodes : List Outline} {marks : String → List Token}

/-- The innermost block that is open in nodes is theirs. -/
theorem Enters.headD (enters : Enters width nodes stack base marks) : base.headD 0 = width := by
  cases enters with
  | opens wider => rfl
  | closes wider same => exact same

/-- The marks at the start of a line of the width. -/
theorem Enters.track (enters : Enters width nodes stack base marks) (cursor : Cursor) :
    ∃ found indent, trackIndent stack width cursor = .ok (found, base) ∧
      seen found = marks indent := by
  cases enters with
  | opens wider => exact ⟨_, _, if_pos wider, rfl⟩
  | @closes nodes opened base wider same =>
    have narrow : ¬(opened ++ base).headD 0 < width := by
      cases opened with
      | nil => exact Nat.not_lt.2 (Nat.le_of_eq same.symm)
      | cons inner opened => exact Nat.not_lt.2 (Nat.le_of_lt (wider inner List.mem_cons_self))
    have all : ∀ inner ∈ opened, decide (width < inner) = true := fun inner member =>
      decide_eq_true (wider inner member)
    have taken : base.takeWhile (fun inner => decide (width < inner)) = [] ∧
        base.dropWhile (fun inner => decide (width < inner)) = base := by
      cases base with
      | nil => exact ⟨rfl, rfl⟩
      | cons inner base =>
        obtain rfl : inner = width := same
        simp
    refine ⟨opened.map fun _ => cursor.token .dedent [], "", ?_, ?_⟩
    · rw [trackIndent, if_neg narrow]
      dsimp only
      rw [List.takeWhile_append_of_pos all, List.dropWhile_append_of_pos all, taken.1, taken.2,
        if_pos same, List.append_nil]
    · have kept := filter_dedents opened cursor.line.number cursor.line.text
      show ((dedents opened cursor.line.number cursor.line.text).filter _).map _ = _
      rw [kept, dedents, List.map_map]
      rfl

/-- The first line of nodes is read: the marks with which they are entered are seen, and its
tokens. -/
theorem Enters.read {indent body : List Char} {tokens : List Token}
    (enters : Enters width nodes stack base marks) (stands : scanner.Stands stack (line :: below))
    (holds : line.Holds (indent ++ body)) (indented : Outline.IsIndentation width indent)
    (starts : body.head?.any startsLogical = true) (last : body.getLast? ≠ some '\r')
    (shown : line.Shows below (body ++ ['\n']) tokens) :
    ∃ made point text, scanner.Reads made point ∧ point.Stands base below ∧
      seen made = marks text ++ tokens := by
  obtain ⟨place, wide, logical⟩ := holds.logical below indented starts last
  obtain ⟨found, text, tracked, same⟩ := enters.track (behindIndent line below)
  rw [← wide] at tracked
  obtain ⟨made, point, reads, behind, whole⟩ := stands.logical place logical tracked shown
  exact ⟨made, point, text, reads, behind, by rw [whole, same]⟩

/-- Behind a line of their width, nodes are entered without marks. -/
theorem Enters.next (enters : Enters width nodes stack base marks) (later : List Outline) :
    Enters width later base base fun _ => [] := by
  have closes : Enters width later ([] ++ base) base fun _ => closings [] :=
    .closes (fun _ member => absurd member List.not_mem_nil) enters.headD
  exact closes

/-- A block of a greater width opens behind a line of the width. -/
theorem Enters.inBlock {inner : Nat} (enters : Enters width nodes stack base marks)
    (wide : width < inner) (first : Outline) (rest : List Outline) :
    Enters inner (first :: rest) base (inner :: base) fun indent => [.opening indent] :=
  .opens (by rwa [enters.headD])

/-- Behind a block of a greater width, nodes are entered where it closes, and the blocks inside it
that are still open. -/
theorem Enters.behindBlock {inner : Nat} {opened : List Nat}
    (enters : Enters width nodes stack base marks) (wide : width < inner)
    (wider : ∀ other ∈ opened, inner < other) (later : List Outline) :
    Enters width later (opened ++ inner :: base) base fun _ => closings opened ++ [.closing] := by
  have all : ∀ other ∈ opened ++ [inner], width < other := by
    intro other member
    rcases List.mem_append.1 member with nested | same
    · exact wide.trans (wider other nested)
    · rwa [List.mem_singleton.1 same]
  have closes : Enters width later (opened ++ [inner] ++ base) base
      fun _ => closings (opened ++ [inner]) := .closes all enters.headD
  have marks : closings (opened ++ [inner]) = closings opened ++ [.closing] := List.map_append
  rwa [List.append_assoc, marks] at closes

end Scanner

open Scanner

/-- The lines with which nodes are rendered are read, and what is seen spells the nodes: the marks
with which they are entered come first, and the marks of the blocks that are still open behind them
are to come. -/
theorem Outline.Renders.spells {width : Nat} {nodes : List Outline} {lines : List (List Char)}
    (renders : Renders width nodes lines) :
    ∀ {scanner : Scanner} {stack base : List Nat} {marks : String → List Token}
      {held more : List Line}, scanner.Stands stack (held ++ more) →
      List.Forall₂ Line.Holds held lines → Enters width nodes stack base marks →
      ∃ made point opened indent spelled, scanner.Reads made point ∧
        point.Stands (opened ++ base) more ∧ (∀ inner ∈ opened, width < inner) ∧
        Spells nodes spelled ∧ seen made ++ closings opened = marks indent ++ spelled := by
  induction renders with
  | nil =>
    rintro scanner stack base marks held more stands ⟨⟩ ⟨⟩
    rename_i opened wider same
    exact ⟨[], scanner, opened, "", [], .stop, stands, wider, .nil, by simp [seen]⟩
  | idle empty later ih =>
    rintro scanner stack base marks held more stands (_ | ⟨holds, below⟩) enters
    obtain ⟨tokens, idles⟩ := holds.idle empty
    obtain ⟨made, point, reads, behind, unseen⟩ := stands.idle idles
    obtain ⟨makes, last, opened, indent, spelled, more, place, wider, spells, same⟩ :=
      ih behind below enters
    refine ⟨made ++ makes, last, opened, indent, spelled, reads.trans more, place, wider, spells,
      ?_⟩
    rw [seen_append, unseen]
    exact same
  | @leaf width word nodes indent lines indented later ih =>
    rintro scanner stack base marks held more stands (_ | ⟨holds, below⟩) enters
    obtain ⟨ending, shown⟩ := word.shows _ _
    obtain ⟨made, point, text, reads, behind, front⟩ := enters.read stands holds indented
      (by cases word <;> decide) (by cases word <;> decide) shown
    obtain ⟨makes, last, opened, _, spelled, more, place, wider, spells, same⟩ :=
      ih behind below (enters.next nodes)
    refine ⟨made ++ makes, last, opened, text, _, reads.trans more, place, wider,
      .leaf ending spells, ?_⟩
    rw [seen_append, front, List.append_assoc, same]
    simp
  | @block width inner header name first rest nodes indent inside lines indented wide body later
      ihBody ih =>
    rintro scanner stack base marks held more stands (_ | ⟨holds, below⟩) enters
    rename_i line held
    rw [List.cons_append] at stands
    -- The lines of the block come first, and then those behind it.
    have inBlock := List.forall₂_take_append held inside lines below
    have behindBlock := List.forall₂_drop_append held inside lines below
    have split : held ++ more = held.take inside.length ++ (held.drop inside.length ++ more) := by
      rw [← List.append_assoc, List.take_append_drop]
    obtain ⟨ending, shown⟩ := header.shows name line (held ++ more)
    obtain ⟨made, point, text, reads, stands, front⟩ := enters.read stands holds indented
      (header.line_starts name.1) (by rw [header.line_last]; decide) shown
    rw [split] at stands
    obtain ⟨madeIn, _, openedIn, indent, spelledIn, readsIn, stands, wider, spellsIn, sameIn⟩ :=
      ihBody stands inBlock (enters.inBlock wide first rest)
    -- The block is still open behind its lines, and so may blocks inside it be.
    obtain ⟨makes, last, opened, _, spelled, readsBehind, place, wider, spells, same⟩ :=
      ih stands behindBlock (enters.behindBlock wide wider nodes)
    refine ⟨made ++ (madeIn ++ makes), last, opened, text, _,
      reads.trans (readsIn.trans readsBehind), place, wider, .block ending indent spellsIn spells,
      ?_⟩
    calc seen (made ++ (madeIn ++ makes)) ++ closings opened
        = seen made ++ (seen madeIn ++ (seen makes ++ closings opened)) := by simp
      _ = seen made ++ (seen madeIn ++ closings openedIn ++ .closing :: spelled) := by
        rw [same]
        simp
      _ = marks text ++ (header.tokens name.1 ending ++
          .opening indent :: (spelledIn ++ .closing :: spelled)) := by
        rw [sameIn, front]
        simp

/-- The tokens of a text whose lines render nodes outside all blocks are seen to spell the nodes up
to the end mark. -/
theorem Outline.Renders.tokenize {nodes : List Outline} {lines : List (List Char)}
    {source : String} (renders : Renders 0 nodes lines) (text : HasLines source.toList lines)
    (file : Option String) :
    ∃ tokens spelled, Offside.tokenize source file = .ok tokens ∧ Spells nodes spelled ∧
      seen tokens = spelled ++ [.endMarker 0] := by
  have start : (Scanner.start (physicalLines source) file).Stands []
      (Line.read (physicalLines source) ++ []) := ⟨rfl, rfl, rfl, (List.append_nil _).symm⟩
  have outside : Enters 0 nodes ([] ++ []) [] fun _ => closings [] :=
    .closes (fun _ member => absurd member List.not_mem_nil) rfl
  obtain ⟨made, point, opened, _, spelled, reads, stands, -, spells, same⟩ :=
    renders.spells start (text.read 0 false) outside
  refine ⟨_, spelled, tokenize_ok_iff.2 ⟨made, point, reads, stands.below, rfl⟩, spells, ?_⟩
  have closed : seen (dedents point.indents point.line "") = closings opened := by
    rw [seen, filter_dedents, stands.indents, List.append_nil, dedents, List.map_map]
    rfl
  rw [finish_pending, seen_append, seen_append, closed, ← List.append_assoc, same]
  rfl

end Offside
