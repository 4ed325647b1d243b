import Mathlib.Data.List.Basic
import Offside.Tree.Dump

/-!
# Line breaks in a written tree

A written tree is broken into lines behind each opening bracket and each comma and before each
closing bracket. The text is told by what stands in quoted text (`Quoting`) and by the brackets that
are open (`Nesting`). What the breaks do to a text character by character is one relation
(`Spreads`), and what a reader sees of it are its consequences (`IsSpread`).
-/
namespace Offside

open Text

/-- Where a character of a written tree stands. -/
inductive Quoting where
  /-- Outside quoted text. -/
  | outside
  /-- In text behind the given mark. -/
  | inside (mark : Char)
  /-- Behind a backslash in such text. -/
  | escaped (mark : Char)
  deriving DecidableEq

/-- Where the character behind the given one stands. -/
def Quoting.after : Quoting → Char → Quoting
  | .outside, c => if isQuote c then .inside c else .outside
  | .inside mark, c =>
    if c = '\\' then .escaped mark else if c = mark then .outside else .inside mark
  | .escaped mark, _ => .inside mark

/-- A bracket that opens. -/
def isOpening (c : Char) : Bool := c == '(' || c == '['

/-- A bracket that closes. -/
def isClosing (c : Char) : Bool := c == ')' || c == ']'

/-- A place in a written tree. -/
structure Nesting where
  /-- Whether it is in quoted text. -/
  place : Quoting
  /-- The number of brackets outside quoted text that are open there. -/
  depth : Int

/-- The place behind a character. -/
def Nesting.after (nesting : Nesting) (c : Char) : Nesting where
  place := nesting.place.after c
  depth :=
    if nesting.place ≠ .outside then nesting.depth
    else if isOpening c then nesting.depth + 1
    else if isClosing c then nesting.depth - 1
    else nesting.depth

/-- The place behind a text. -/
def nestingBehind (text : List Char) : Nesting :=
  text.foldl Nesting.after ⟨.outside, 0⟩

/-- A text in which the space behind each comma outside quoted text is left out. -/
def tighten : Quoting → List Char → List Char
  | _, [] => []
  | .outside, ',' :: ' ' :: rest => ',' :: tighten .outside rest
  | place, c :: rest => c :: tighten (place.after c) rest

/-- The number of spaces with which a text starts. -/
def indentation (text : List Char) : Nat :=
  (text.takeWhile (· == ' ')).length

/-- Behind its first spaces a text starts with a closing bracket. -/
def startsClosed (text : List Char) : Bool :=
  (text.dropWhile (· == ' ')).head?.any isClosing

/-- A text is shown on lines that hold all of it and tell its brackets. -/
structure IsSpread (text shown : List Char) : Prop where
  /-- The lines without the spaces at their starts, one behind the other, are the text without the
  spaces behind commas. -/
  joined : (shown.splitOn '\n').flatMap (List.dropWhile (· == ' ')) = tighten .outside text
  /-- A line is indented by two spaces for each bracket that is open before it, but for one that is
  closed at its start. -/
  indented : ∀ above below, shown = above ++ below → above = [] ∨ above.getLast? = some '\n' →
    (indentation below : Int) =
      2 * ((nestingBehind above).depth - if startsClosed below then 1 else 0)
  /-- No bracket is closed that is not open. -/
  nested : ∀ above, above <+: shown → 0 ≤ (nestingBehind above).depth
  /-- All brackets are closed, and no quoted text is open. -/
  closed : nestingBehind shown = ⟨.outside, 0⟩

/-- A text is shown with line breaks, from a place on at which brackets are open. -/
inductive Spreads : Quoting → Nat → List Char → List Char → Prop where
  /-- The text has ended. -/
  | done : Spreads .outside 0 [] []
  /-- A character without a line break. -/
  | keep {place : Quoting} {depth : Nat} {c : Char} {text shown : List Char} (unbroken : c ≠ '\n')
    (plain : place = .outside →
      isOpening c = false ∧ isClosing c = false ∧ c ≠ ',' ∧ c ≠ ' ')
    (later : Spreads (place.after c) depth text shown) :
    Spreads place depth (c :: text) (c :: shown)
  /-- A bracket that opens, and a line break. -/
  | opening {depth : Nat} {c : Char} {text shown : List Char} (opens : isOpening c = true)
    (later : Spreads .outside (depth + 1) text shown) :
    Spreads .outside depth (c :: text) (c :: (lineBreak (depth + 1) ++ shown))
  /-- A line break, and a bracket that closes. -/
  | closing {depth : Nat} {c : Char} {text shown : List Char} (closes : isClosing c = true)
    (later : Spreads .outside depth text shown) :
    Spreads .outside (depth + 1) (c :: text) (lineBreak depth ++ c :: shown)
  /-- A comma, and a line break in place of the space. -/
  | comma {depth : Nat} {text shown : List Char} (later : Spreads .outside depth text shown) :
    Spreads .outside depth (',' :: ' ' :: text) (',' :: (lineBreak depth ++ shown))

/-- The state of breaking a text at a place. -/
def Quoting.breaking : Quoting → Nat → Breaking
  | .outside, depth => ⟨depth, none, false, false⟩
  | .inside mark, depth => ⟨depth, some mark, false, false⟩
  | .escaped mark, depth => ⟨depth, some mark, true, false⟩

namespace Spreads

variable {place : Quoting} {depth : Nat} {text shown : List Char}

/-- A character without a line break is written as it is. -/
theorem step_keep {c : Char} (plain : place = .outside →
      isOpening c = false ∧ isClosing c = false ∧ c ≠ ',' ∧ c ≠ ' ') :
    (place.breaking depth).step c = ([c], (place.after c).breaking depth) := by
  cases place with
  | outside =>
    obtain ⟨opens, closes, comma, space⟩ := plain rfl
    simp only [isOpening, isClosing, Bool.or_eq_false_iff, beq_eq_false_iff_ne] at opens closes
    by_cases quotes : isQuote c = true
    · simp [Quoting.breaking, Breaking.step, Quoting.after, quotes]
    · simp [Quoting.breaking, Breaking.step, Quoting.after, quotes, opens, closes, comma]
  | inside mark =>
    by_cases escapes : c = '\\'
    · simp [Quoting.breaking, Breaking.step, Quoting.after, escapes]
    by_cases ends : c = mark
    · subst ends
      simp [Quoting.breaking, Breaking.step, Quoting.after, escapes]
    · simp [Quoting.breaking, Breaking.step, Quoting.after, escapes, ends]
  | escaped mark => rfl

/-- A text is broken into lines as the relation says. -/
theorem run (spreads : Spreads place depth text shown) :
    (place.breaking depth).run text = shown := by
  induction spreads with
  | done => rfl
  | keep unbroken plain later ih =>
    rw [Breaking.run, step_keep plain]
    dsimp only
    rw [ih]
    rfl
  | @opening depth c text shown opens later ih =>
    have step : (Quoting.outside.breaking depth).step c =
        (c :: lineBreak (depth + 1), Quoting.outside.breaking (depth + 1)) := by
      simp only [isOpening, Bool.or_eq_true, beq_iff_eq] at opens
      rcases opens with rfl | rfl <;> rfl
    rw [Breaking.run, step]
    dsimp only
    rw [ih]
    rfl
  | @closing depth c text shown closes later ih =>
    have step : (Quoting.outside.breaking (depth + 1)).step c =
        (lineBreak depth ++ [c], Quoting.outside.breaking depth) := by
      simp only [isClosing, Bool.or_eq_true, beq_iff_eq] at closes
      rcases closes with rfl | rfl <;> rfl
    rw [Breaking.run, step]
    dsimp only
    rw [ih, List.append_assoc]
    rfl
  | @comma depth text shown later ih =>
    have step : (Quoting.outside.breaking depth).step ',' =
        (',' :: lineBreak depth, ⟨depth, none, false, true⟩) := rfl
    have space : (⟨depth, none, false, true⟩ : Breaking).step ' ' =
        ([], Quoting.outside.breaking depth) := rfl
    rw [Breaking.run, step]
    dsimp only
    rw [Breaking.run, space]
    dsimp only
    rw [ih]
    rfl

/-- Outside quoted text nothing that is shown starts with a space or a closing bracket. -/
theorem starts (spreads : Spreads .outside depth text shown) :
    ∀ c ∈ shown.head?, c ≠ ' ' ∧ isClosing c = false := by
  cases spreads with
  | done =>
    intro c first
    contradiction
  | keep unbroken plain later =>
    rintro c ⟨⟩
    exact ⟨(plain rfl).2.2.2, (plain rfl).2.1⟩
  | opening opens later =>
    rintro c ⟨⟩
    simp only [isOpening, Bool.or_eq_true, beq_iff_eq] at opens
    rcases opens with rfl | rfl <;> decide
  | closing closes later =>
    rintro c ⟨⟩
    decide
  | comma later =>
    rintro c ⟨⟩
    decide

/-- Outside quoted text nothing that is shown starts with a closing bracket. -/
theorem head_closing (spreads : Spreads .outside depth text shown) :
    shown.head?.any isClosing = false := by
  rw [Option.any_eq_false_iff_get]
  exact fun some_ => (spreads.starts _ (Option.get_mem some_)).2

end Spreads

section joined

/-- A text without line breaks and without the spaces at the starts of its lines. The first line
starts at the text or before it. -/
def joinLines : Bool → List Char → List Char
  | _, [] => []
  | fresh, c :: rest =>
    if c = '\n' then joinLines true rest
    else if fresh && c = ' ' then joinLines true rest
    else c :: joinLines false rest

/-- The lines of a text, one behind the other. -/
theorem exists_lines (text : List Char) :
    ∃ first rest, text.splitOn '\n' = first :: rest ∧
      joinLines true text = first.dropWhile (· == ' ') ++ rest.flatMap (List.dropWhile (· == ' ')) ∧
      joinLines false text = first ++ rest.flatMap (List.dropWhile (· == ' ')) := by
  induction text with
  | nil => exact ⟨[], [], List.splitOn_nil '\n', rfl, rfl⟩
  | cons c text ih =>
    obtain ⟨first, rest, lines, fresh, going⟩ := ih
    rw [List.splitOn] at lines ⊢
    rw [List.splitOnP_cons_eq_if_modifyHead, lines]
    by_cases breaks : c = '\n'
    · rw [if_pos (beq_iff_eq.2 breaks), joinLines, if_pos breaks, joinLines, if_pos breaks, fresh]
      exact ⟨[], first :: rest, rfl, rfl, rfl⟩
    rw [if_neg (by simpa using breaks)]
    refine ⟨c :: first, rest, rfl, ?_, ?_⟩
    · rw [joinLines, if_neg breaks]
      by_cases space : c = ' '
      · subst space
        exact fresh
      · rw [if_neg (by simpa using space), going, List.dropWhile_cons_of_neg (by simpa using space)]
        rfl
    · rw [joinLines, if_neg breaks, going]
      rfl

/-- Spaces at the start of a line are left out. -/
theorem joinLines_lineBreak (fresh : Bool) (depth : Nat) (rest : List Char) :
    joinLines fresh (lineBreak depth ++ rest) = joinLines true rest := by
  have spaces (count : Nat) : joinLines true (List.replicate count ' ' ++ rest) =
      joinLines true rest := by
    induction count with
    | zero => rfl
    | succ count ih =>
      rw [List.replicate_succ, List.cons_append, joinLines]
      exact ih
  rw [lineBreak, List.cons_append, joinLines, if_pos rfl, spaces]

/-- A character that is neither a line break nor a space at the start of a line is kept. -/
theorem joinLines_keep {fresh : Bool} {c : Char} (unbroken : c ≠ '\n')
    (solid : fresh = true → c ≠ ' ') (rest : List Char) :
    joinLines fresh (c :: rest) = c :: joinLines false rest := by
  have kept : ¬(fresh && c = ' ') = true := by simpa using solid
  rw [joinLines, if_neg unbroken, if_neg kept]

/-- A character that is no comma outside quoted text is kept. -/
theorem tighten_keep {place : Quoting} {c : Char} (plain : place = .outside → c ≠ ',')
    (rest : List Char) : tighten place (c :: rest) = c :: tighten (place.after c) rest := by
  rw [tighten]
  rintro more rfl rfl rfl
  exact plain rfl rfl

/-- Behind a bracket outside quoted text a text goes on outside. -/
theorem Quoting.after_opening {c : Char} (opens : isOpening c = true) :
    Quoting.outside.after c = .outside := by
  simp only [isOpening, Bool.or_eq_true, beq_iff_eq] at opens
  rcases opens with rfl | rfl <;> rfl

/-- Behind a bracket outside quoted text a text goes on outside. -/
theorem Quoting.after_closing {c : Char} (closes : isClosing c = true) :
    Quoting.outside.after c = .outside := by
  simp only [isClosing, Bool.or_eq_true, beq_iff_eq] at closes
  rcases closes with rfl | rfl <;> rfl

/-- An opening bracket is no other mark. -/
theorem apart_of_opening {c : Char} (opens : isOpening c = true) :
    c ≠ '\n' ∧ c ≠ ' ' ∧ c ≠ ',' ∧ isClosing c = false := by
  simp only [isOpening, Bool.or_eq_true, beq_iff_eq] at opens
  rcases opens with rfl | rfl <;> decide

/-- A closing bracket is no other mark. -/
theorem apart_of_closing {c : Char} (closes : isClosing c = true) :
    c ≠ '\n' ∧ c ≠ ' ' ∧ c ≠ ',' ∧ isOpening c = false := by
  simp only [isClosing, Bool.or_eq_true, beq_iff_eq] at closes
  rcases closes with rfl | rfl <;> decide

/-- The lines that are shown hold the text without the spaces behind commas. -/
theorem Spreads.joinLines {place : Quoting} {depth : Nat} {text shown : List Char}
    (spreads : Spreads place depth text shown) (fresh : Bool)
    (outside : fresh = true → place = .outside) :
    Offside.joinLines fresh shown = tighten place text := by
  induction spreads generalizing fresh with
  | done => cases fresh <;> rfl
  | keep unbroken plain later ih =>
    rw [joinLines_keep unbroken fun first => (plain (outside first)).2.2.2,
      tighten_keep fun out => (plain out).2.2.1, ih false fun first => by contradiction]
  | opening opens later ih =>
    have apart := apart_of_opening opens
    rw [joinLines_keep apart.1 fun _ => apart.2.1, tighten_keep fun _ => apart.2.2.1,
      joinLines_lineBreak, ih true fun _ => rfl, Quoting.after_opening opens]
  | closing closes later ih =>
    have apart := apart_of_closing closes
    rw [joinLines_lineBreak, joinLines_keep apart.1 fun _ => apart.2.1,
      tighten_keep fun _ => apart.2.2.1, ih false fun first => by contradiction,
      Quoting.after_closing closes]
  | comma later ih =>
    rw [joinLines_keep (by decide) fun _ => by decide, joinLines_lineBreak, ih true fun _ => rfl]
    rfl

end joined

section nested

/-- From a place on no bracket is closed that is not open. -/
def Nesting.Holds (nesting : Nesting) (shown : List Char) : Prop :=
  ∀ above, above <+: shown → 0 ≤ (above.foldl Nesting.after nesting).depth

/-- So it is if it is from the next place on. -/
theorem Nesting.Holds.cons {nesting : Nesting} {c : Char} {shown : List Char}
    (here : 0 ≤ nesting.depth) (later : (nesting.after c).Holds shown) :
    nesting.Holds (c :: shown) := by
  intro above front
  cases above with
  | nil => exact here
  | cons d above =>
    obtain ⟨rfl, further⟩ := List.cons_prefix_cons.1 front
    exact later above further

/-- From a place on each line is indented by the brackets that are open before it. -/
def Nesting.Indents (nesting : Nesting) (shown : List Char) : Prop :=
  ∀ above below, shown = above ++ '\n' :: below → (indentation below : Int) =
    2 * ((above.foldl Nesting.after nesting).depth - if startsClosed below then 1 else 0)

/-- So it is if it is from the next place on, and at this place if a line starts behind it. -/
theorem Nesting.Indents.cons {nesting : Nesting} {c : Char} {shown : List Char}
    (here : c = '\n' → (indentation shown : Int) =
      2 * (nesting.depth - if startsClosed shown then 1 else 0))
    (later : (nesting.after c).Indents shown) : nesting.Indents (c :: shown) := by
  intro above below same
  cases above with
  | nil =>
    obtain ⟨rfl, rfl⟩ := List.cons.inj same
    exact here rfl
  | cons d above =>
    obtain ⟨rfl, rfl⟩ := List.cons.inj same
    exact later above below rfl

/-- The place behind a line break is the place before it. -/
theorem foldl_lineBreak (depth : Int) (count : Nat) :
    (lineBreak count).foldl Nesting.after ⟨.outside, depth⟩ = ⟨.outside, depth⟩ := by
  have spaces (size : Nat) : (List.replicate size ' ').foldl Nesting.after ⟨.outside, depth⟩ =
      ⟨.outside, depth⟩ := by
    induction size with
    | zero => rfl
    | succ size ih => exact ih
  exact spaces (2 * count)

/-- A line break closes no bracket. -/
theorem Nesting.Holds.lineBreak {depth : Int} {shown : List Char} (here : 0 ≤ depth)
    (later : Holds ⟨.outside, depth⟩ shown) (count : Nat) :
    Holds ⟨.outside, depth⟩ (lineBreak count ++ shown) := by
  have spaces (size : Nat) : Holds ⟨.outside, depth⟩ (List.replicate size ' ' ++ shown) := by
    induction size with
    | zero => exact later
    | succ size ih => exact .cons here ih
  exact .cons here (spaces (2 * count))

/-- A text that does not start with a space is not indented. -/
theorem unindented_of_solid {shown : List Char} (solid : ∀ c ∈ shown.head?, c ≠ ' ') :
    shown.takeWhile (· == ' ') = [] ∧ shown.dropWhile (· == ' ') = shown := by
  cases shown with
  | nil => exact ⟨rfl, rfl⟩
  | cons c shown =>
    have space : ¬(c == ' ') = true := by simpa using solid c rfl
    exact ⟨List.takeWhile_cons_of_neg space, List.dropWhile_cons_of_neg space⟩

/-- The line behind a line break is indented as the break says. -/
theorem Nesting.Indents.lineBreak {depth : Int} {shown : List Char} {count : Nat}
    (solid : ∀ c ∈ shown.head?, c ≠ ' ')
    (here : (count : Int) = depth - if shown.head?.any isClosing then 1 else 0)
    (later : Indents ⟨.outside, depth⟩ shown) :
    Indents ⟨.outside, depth⟩ (lineBreak count ++ shown) := by
  have spaces (size : Nat) : Indents ⟨.outside, depth⟩ (List.replicate size ' ' ++ shown) := by
    induction size with
    | zero => exact later
    | succ size ih => exact .cons (fun breaks => absurd breaks (by decide)) ih
  obtain ⟨taken, dropped⟩ := unindented_of_solid solid
  have indented : indentation (List.replicate (2 * count) ' ' ++ shown) = 2 * count := by
    rw [indentation, List.takeWhile_append_of_pos (by simp), taken, List.append_nil,
      List.length_replicate]
  have closed : startsClosed (List.replicate (2 * count) ' ' ++ shown) =
      shown.head?.any isClosing := by
    rw [startsClosed, List.dropWhile_append_of_pos (by simp), dropped]
  rw [Offside.lineBreak, List.cons_append]
  refine .cons (fun _ => ?_) (spaces (2 * count))
  rw [indented, closed, Int.natCast_mul, here]
  rfl

end nested

namespace Spreads

variable {place : Quoting} {depth : Nat} {text shown : List Char}

/-- Behind a character outside quoted text that is no bracket as many brackets are open. -/
theorem after_keep {c : Char} (plain : place = .outside →
      isOpening c = false ∧ isClosing c = false ∧ c ≠ ',' ∧ c ≠ ' ') (depth : Int) :
    Nesting.after ⟨place, depth⟩ c = ⟨place.after c, depth⟩ := by
  by_cases out : place = .outside
  · obtain ⟨opens, closes, -⟩ := plain out
    simp [Nesting.after, opens, closes]
  · simp [Nesting.after, out]

/-- Behind an opening bracket one more bracket is open. -/
theorem after_opening {c : Char} (opens : isOpening c = true) (depth : Int) :
    Nesting.after ⟨.outside, depth⟩ c = ⟨.outside, depth + 1⟩ := by
  simp [Nesting.after, opens, Quoting.after_opening opens]

/-- Behind a closing bracket one bracket less is open. -/
theorem after_closing {c : Char} (closes : isClosing c = true) (depth : Int) :
    Nesting.after ⟨.outside, depth⟩ c = ⟨.outside, depth - 1⟩ := by
  simp [Nesting.after, closes, (apart_of_closing closes).2.2.2, Quoting.after_closing closes]

/-- At the end of what is shown all brackets are closed. -/
theorem closed (spreads : Spreads place depth text shown) :
    shown.foldl Nesting.after ⟨place, depth⟩ = ⟨.outside, 0⟩ := by
  induction spreads with
  | done => rfl
  | keep unbroken plain later ih => rw [List.foldl_cons, after_keep plain, ih]
  | @opening depth c text shown opens later ih =>
    rw [List.foldl_cons, after_opening opens, List.foldl_append, foldl_lineBreak]
    exact ih
  | @closing depth c text shown closes later ih =>
    have fewer : ((depth + 1 : Nat) : Int) - 1 = depth := by omega
    rw [List.foldl_append, foldl_lineBreak, List.foldl_cons, after_closing closes, fewer, ih]
  | @comma depth text shown later ih =>
    have comma : Nesting.after ⟨.outside, depth⟩ ',' = ⟨.outside, depth⟩ := rfl
    rw [List.foldl_cons, comma, List.foldl_append, foldl_lineBreak, ih]

/-- No bracket is closed that is not open. -/
theorem holds (spreads : Spreads place depth text shown) :
    Nesting.Holds ⟨place, depth⟩ shown := by
  induction spreads with
  | done => exact fun above front => by rw [List.prefix_nil.1 front]; exact Int.le_refl 0
  | @keep place depth c text shown unbroken plain later ih =>
    refine .cons (Int.natCast_nonneg depth) ?_
    rw [after_keep plain]
    exact ih
  | @opening depth c text shown opens later ih =>
    refine .cons (Int.natCast_nonneg depth) ?_
    rw [after_opening opens]
    exact .lineBreak (Int.natCast_nonneg (depth + 1)) ih _
  | @closing depth c text shown closes later ih =>
    have fewer : ((depth + 1 : Nat) : Int) - 1 = depth := by omega
    refine .lineBreak (Int.natCast_nonneg _) (.cons (Int.natCast_nonneg _) ?_) _
    rw [after_closing closes, fewer]
    exact ih
  | @comma depth text shown later ih =>
    exact .cons (Int.natCast_nonneg depth) (.lineBreak (Int.natCast_nonneg depth) ih _)

/-- Each line is indented by the brackets that are open before it. -/
theorem indents (spreads : Spreads place depth text shown) :
    Nesting.Indents ⟨place, depth⟩ shown := by
  induction spreads with
  | done => exact fun above below same => by simp at same
  | @keep place depth c text shown unbroken plain later ih =>
    refine .cons (fun breaks => absurd breaks unbroken) ?_
    rw [after_keep plain]
    exact ih
  | @opening depth c text shown opens later ih =>
    refine .cons (fun breaks => absurd breaks (apart_of_opening opens).1) ?_
    rw [after_opening opens]
    refine .lineBreak (fun c first => (later.starts c first).1) ?_ ih
    rw [later.head_closing]
    rfl
  | @closing depth c text shown closes later ih =>
    have apart := apart_of_closing closes
    have fewer : ((depth + 1 : Nat) : Int) - 1 = depth := by omega
    refine .lineBreak ?_ ?_ (.cons (fun breaks => absurd breaks apart.1) ?_)
    · rintro c ⟨⟩
      exact apart.2.1
    · rw [List.head?_cons, Option.any_some, closes, if_pos rfl, fewer]
    · rw [after_closing closes, fewer]
      exact ih
  | @comma depth text shown later ih =>
    refine .cons (fun breaks => absurd breaks (by decide)) ?_
    refine .lineBreak (fun c first => (later.starts c first).1) ?_ ih
    rw [later.head_closing]
    exact (Int.sub_zero _).symm

/-- What is shown is the text on lines that tell its brackets. -/
theorem isSpread (spreads : Spreads .outside 0 text shown) : IsSpread text shown where
  joined := by
    obtain ⟨first, rest, lines, fresh, -⟩ := exists_lines shown
    rw [lines, List.flatMap_cons, ← fresh, spreads.joinLines true fun _ => rfl]
  indented above below same starts := by
    rcases starts with rfl | ends
    · obtain rfl : shown = below := same
      obtain ⟨taken, dropped⟩ := unindented_of_solid fun c first => (spreads.starts c first).1
      rw [indentation, taken, startsClosed, dropped, spreads.head_closing]
      rfl
    · obtain ⟨upper, rfl⟩ := List.getLast?_eq_some_iff.1 ends
      have feed : (nestingBehind (upper ++ ['\n'])).depth = (nestingBehind upper).depth := by
        rw [nestingBehind, List.foldl_append]
        exact ite_self _
      rw [feed]
      exact spreads.indents upper below (by rw [same, List.append_assoc]; rfl)
  nested := spreads.holds
  closed := spreads.closed

end Spreads

end Offside
