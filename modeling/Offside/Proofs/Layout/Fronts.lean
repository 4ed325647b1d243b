import Offside.Proofs.Layout.Concatenation

/-!
# What stands in front

The step that a scan takes in front of a name or of the letters of a string literal that are taken
whole (`IsWord`), and in front of the end of the line. A text of one lexeme has that lexeme as its
only token but for the end of its line and the end mark (`tokenize_lexeme`).
-/
namespace Offside

open Text Lexeme

/-- All characters of a class are taken up to one that is not in it. -/
theorem Munch.many_append {admits : Char → Bool} {taken rest : List Char}
    (all : ∀ c ∈ taken, admits c = true) (stops : ∀ c ∈ rest.head?, admits c = false) :
    Munch.many admits (taken ++ rest) = (taken, rest) := by
  rw [Munch.many, List.takeWhile_append_of_pos all, List.dropWhile_append_of_pos all]
  cases rest with
  | nil => simp
  | cons c rest =>
    have stop := stops c rfl
    rw [List.takeWhile_cons_of_neg (by simp [stop]), List.dropWhile_cons_of_neg (by simp [stop]),
      List.append_nil]

section Steps

variable {line : Line} {below : List Line} {depth : Nat}

/-- The characters of a name, and the first one behind them is none of a name. -/
structure IsWord (word rest : List Char) : Prop where
  /-- The first character may start a name. -/
  starts : word.head?.any isNameStart = true
  /-- All characters may stand in a name. -/
  parts : ∀ c ∈ word, isNamePart c = true
  /-- The name ends. -/
  stops : ∀ c ∈ rest.head?, isNamePart c = false

/-- A name is taken whole. -/
theorem IsWord.name {word rest : List Char} (front : IsWord word rest) :
    Lexeme.name (word ++ rest) = (word, rest) :=
  Munch.many_append front.parts front.stops

/-- It starts with a character that may start one. -/
theorem IsWord.cons {word rest : List Char} (front : IsWord word rest) :
    ∃ c tail, word = c :: tail ∧ isNameStart c = true := by
  cases word with
  | nil => exact absurd front.starts (by decide)
  | cons c tail => exact ⟨c, tail, rfl, by simpa using front.starts⟩

/-- A name in front that no quotation mark follows is a token. -/
theorem Cursor.step_name {word rest : List Char} (front : IsWord word rest)
    (unquoted : rest.head?.any isQuote = false) :
    Cursor.step ⟨line, word ++ rest, below⟩ depth =
      .token (Cursor.token ⟨line, word ++ rest, below⟩ .name word) ⟨line, rest, below⟩ depth := by
  have taken := front.name
  obtain ⟨c, tail, rfl, starts⟩ := front.cons
  exact step_word starts taken (by rw [unquoted, Bool.false_and])

/-- The letters of a literal in front of a quotation mark belong to the literal. -/
theorem Cursor.step_marked {marks rest text : List Char} {next : Cursor} (front : IsWord marks rest)
    (quoted : rest.head?.any isQuote = true) (known : stringMarks.contains marks = true)
    (scanned : scanString ⟨line, rest, below⟩ = .ok (text, next)) :
    Cursor.step ⟨line, marks ++ rest, below⟩ depth =
      .token (Cursor.token ⟨line, marks ++ rest, below⟩ .string (marks ++ text)) next depth := by
  have taken := front.name
  obtain ⟨c, tail, rfl, starts⟩ := front.cons
  rw [List.cons_append] at taken ⊢
  rw [step_letters starts taken quoted known, stringStep, scanned]

/-- A literal without letters stands behind its quotation mark. -/
theorem Cursor.step_quoted {quote : Char} {tail text : List Char} {next : Cursor}
    (mark : isQuote quote = true)
    (scanned : scanString ⟨line, quote :: tail, below⟩ = .ok (text, next)) :
    Cursor.step ⟨line, quote :: tail, below⟩ depth =
      .token (Cursor.token ⟨line, quote :: tail, below⟩ .string text) next depth := by
  rw [step_quote mark, stringStep, scanned]
  rfl

/-- The end of the line. -/
theorem Cursor.step_lineEnd : Cursor.step ⟨line, ['\n'], below⟩ 0 =
    .last (some (Cursor.token ⟨line, ['\n'], below⟩ .newline
      (if line.bare then [] else ['\n']))) := rfl

end Steps

/-- A text without a line feed is one line. -/
theorem splitLines_of_not_mem {text : List Char} (some_ : text ≠ []) (unbroken : '\n' ∉ text) :
    splitLines text = [text] := by
  induction text with
  | nil => contradiction
  | cons c rest ih =>
    rw [List.mem_cons, not_or] at unbroken
    rw [splitLines, if_neg (Ne.symm unbroken.1)]
    cases rest with
    | nil => rfl
    | cons d rest => rw [ih (List.cons_ne_nil d rest) unbroken.2]

/-- A line without a line feed gets one. -/
theorem normalizeLine_of_not_mem {text : List Char} (unbroken : '\n' ∉ text) :
    normalizeLine text = (text ++ ['\n'], false) := by
  have reversed : '\n' ∉ text.reverse := fun member => unbroken (List.mem_reverse.1 member)
  unfold normalizeLine
  split
  · rename_i found
    exact absurd (found ▸ List.mem_cons_self) reversed
  · rename_i found
    exact absurd (found ▸ List.mem_cons_self) reversed
  · rfl

/-- The line of a text without a line feed. -/
def Line.single (text : String) : Line := ⟨1, text ++ "\n", true⟩

/-- The lines of a text without a line feed. -/
theorem Line.read_single {text : String} (some_ : text ≠ "") (unbroken : '\n' ∉ text.toList) :
    Line.read (physicalLines text) = [Line.single text] := by
  have some_chars : text.toList ≠ [] := fun empty => some_ (String.toList_eq_nil_iff.1 empty)
  have whole : String.ofList text.toList = text := String.ofList_toList
  rw [physicalLines, splitLines_of_not_mem some_chars unbroken, Line.read, List.map_singleton,
    whole, Line.follow, if_neg some_, normalizeLine_of_not_mem unbroken]
  show [(⟨1, String.ofList (text.toList ++ ['\n']), true⟩ : Line)] = _
  rw [Line.single, ← whole, ← String.ofList_append]
  simp

/-- A character with which a logical line starts behind its indentation: it is none of indentation,
and no line without statements starts with it. -/
def startsLogical (c : Char) : Bool :=
  !isIndent c && c != '\n' && c != '\x0c' && c != '#'

/-- A character of a class starts a logical line if no other one is in the class. -/
theorem startsLogical_of_class {admits : Char → Bool} {c : Char} (member : admits c = true)
    (others : ∀ other ∈ [' ', '\t', '\n', '\x0c', '#'], admits other = false) :
    startsLogical c = true := by
  have apart : ∀ other ∈ [' ', '\t', '\n', '\x0c', '#'], c ≠ other := by
    rintro other inside rfl
    rw [others c inside] at member
    contradiction
  simp only [List.mem_cons, List.not_mem_nil, or_false, forall_eq_or_imp, forall_eq] at apart
  obtain ⟨space, tab, feed, form, hash⟩ := apart
  simp [startsLogical, isIndent, space, tab, feed, form, hash]

namespace Scanner

variable {line : Line} (below : List Line) {indent body : List Char}

/-- The place behind the indentation of a line, and its width. -/
theorem behindIndent_eq (text : line.text.toList = indent ++ body)
    (blank : ∀ c ∈ indent, isIndent c = true) (stops : ∀ c ∈ body.head?, isIndent c = false) :
    behindIndent line below = ⟨line, body, below⟩ ∧ indentWidth line = indent.length := by
  have split := Munch.many_append blank stops
  rw [Munch.many, Prod.mk.injEq] at split
  rw [behindIndent, indentWidth, text, split.1, split.2]
  exact ⟨rfl, rfl⟩

/-- A line is logical behind the indentation of which a logical line starts. -/
theorem idleTokens?_eq_none (line : Line) (starts : body.head?.any startsLogical = true) :
    idleTokens? ⟨line, body, below⟩ = none := by
  cases body with
  | nil => simp at starts
  | cons c rest =>
    have first : startsLogical c = true := by simpa using starts
    simp only [startsLogical, Bool.and_eq_true, bne_iff_ne] at first
    obtain ⟨⟨⟨-, feed⟩, form⟩, hash⟩ := first
    simp [idleTokens?, feed, form, hash]

end Scanner

/-- The text is one lexeme of a kind: it starts as a logical line does, and the scan of a line that
holds nothing else finds it as a token. -/
structure IsLexeme (kind : Kind) (text : String) : Prop where
  /-- It has no line feed. -/
  unbroken : '\n' ∉ text.toList
  /-- It starts a logical line. -/
  starts : text.toList.head?.any startsLogical = true
  /-- It is found. -/
  found (line : Line) : Cursor.step ⟨line, text.toList ++ ['\n'], []⟩ 0 =
    .token (Cursor.token ⟨line, text.toList ++ ['\n'], []⟩ kind text.toList) ⟨line, ['\n'], []⟩ 0

/-- The tokens of a text of one lexeme: the lexeme, the end of its line and the end mark. -/
theorem tokenize_lexeme {kind : Kind} {text : String} (lexeme : IsLexeme kind text)
    (file : Option String) :
    tokenize text file = .ok [⟨kind, text, 1, text ++ "\n"⟩, ⟨.newline, "", 1, text ++ "\n"⟩,
      .endMarker 1] := by
  have some_ : text ≠ "" := by
    rintro rfl
    exact absurd lexeme.starts (by decide)
  have starts : (text.toList ++ ['\n']).head?.any startsLogical = true := by
    have first := lexeme.starts
    rw [Option.any_eq_true] at first ⊢
    obtain ⟨c, front, begins⟩ := first
    exact ⟨c, by rw [List.head?_append, front]; rfl, begins⟩
  have stops : ∀ c ∈ (text.toList ++ ['\n']).head?, isIndent c = false := by
    intro c front
    rw [Option.mem_def.1 front] at starts
    have first : startsLogical c = true := by simpa using starts
    simp only [startsLogical, Bool.and_eq_true, Bool.not_eq_true'] at first
    exact first.1.1.1
  have chars : (Line.single text).text.toList = [] ++ (text.toList ++ ['\n']) := by
    rw [Line.single, String.toList_append]
    rfl
  obtain ⟨place, width⟩ := Scanner.behindIndent_eq [] chars (by simp) stops
  have logical := Scanner.idleTokens?_eq_none [] (Line.single text) starts
  have scans := Cursor.Scans.token (lexeme.found (Line.single text)) (.last Cursor.step_lineEnd)
  rw [← place] at logical scans
  have lines : (Scanner.start (physicalLines text) file).below = [Line.single text] :=
    Line.read_single some_ lexeme.unbroken
  have flat : (Scanner.start (physicalLines text) file).depth = 0 := rfl
  have tracked : (Scanner.start (physicalLines text) file).track (Line.single text) [] =
      .ok ([], []) := by
    rw [Scanner.track, if_pos flat, width]
    rfl
  have scan := Scanner.scanLine_of_logical lines logical tracked scans
  have some_lines : (Scanner.start (physicalLines text) file).below ≠ [] := by
    rw [lines]
    exact List.cons_ne_nil _ _
  rw [tokenize_ok_iff]
  refine ⟨_, _, .line rfl some_lines scan .stop, rfl, ?_⟩
  show _ = [(⟨kind, String.ofList text.toList, 1, text ++ "\n"⟩ : Token),
    ⟨.newline, "", 1, text ++ "\n"⟩, .endMarker 1]
  rw [String.ofList_toList]

end Offside
