import Offside.Proofs.Layout.Run

/-!
# The lines of tokens

The lines of an input are numbered in order. At every point of a run the tokens that have been made
stand on lines that have been read, and the lines that have not been read are below these
(`Scanner.Run.orderly`). So a fault of the scan is met below all tokens that were made before it
(`Scanner.Run.above_fault`).
-/
namespace Offside

open Text

/-- The numbers of lines increase. -/
def Line.InOrder (lines : List Line) : Prop :=
  lines.Pairwise fun upper lower => upper.number < lower.number

/-- The lines of an input are numbered in order, behind the lines that came before. -/
theorem Line.follow_inOrder (count : Nat) (bare : Bool) (lines : List String) :
    InOrder (follow count bare lines) ∧ ∀ line ∈ follow count bare lines, count < line.number := by
  induction lines generalizing count bare with
  | nil => exact ⟨.nil, fun line member => absurd member List.not_mem_nil⟩
  | cons raw later ih =>
    rw [follow]
    split
    · exact ⟨.nil, fun line member => absurd member List.not_mem_nil⟩
    · obtain ⟨inOrder, lower⟩ := ih (count + 1) (bare || !(normalizeLine raw.toList).2)
      refine ⟨List.pairwise_cons.2 ⟨lower, inOrder⟩, ?_⟩
      refine List.forall_mem_cons.2 ⟨Nat.lt_succ_self count, fun line member => ?_⟩
      exact Nat.lt_of_succ_lt (lower line member)

/-- The first of lines in order has the least number. -/
theorem Line.InOrder.first_le {first line : Line} {below : List Line}
    (inOrder : InOrder (first :: below)) (member : line ∈ first :: below) :
    first.number ≤ line.number := by
  rcases List.mem_cons.1 member with rfl | member
  · exact Nat.le_refl _
  · exact Nat.le_of_lt ((List.pairwise_cons.1 inOrder).1 line member)

/-- Tokens stand on lines up to a line, and further lines are below it. -/
structure Placed (tokens : List Token) (number : Nat) (below : List Line) : Prop where
  /-- The tokens stand on lines up to the line. -/
  above : ∀ token ∈ tokens, token.line ≤ number
  /-- The further lines are below it. -/
  lower : ∀ line ∈ below, number < line.number

/-- A token stands on the line on which it starts. -/
theorem Cursor.step_line {cursor next : Cursor} {depth deeper : Nat} {found : Token}
    (step : cursor.step depth = .token found next deeper) : found.line = cursor.line.number := by
  have finds := cursor.step_finds depth
  rw [step] at finds
  cases finds <;> rfl

/-- A place inside a line, with lines that are terminated and in order. -/
structure Cursor.Orderly (cursor : Cursor) : Prop where
  /-- The line and the lines below are terminated. -/
  terminated : ∀ line ∈ cursor.lines, line.Terminated
  /-- Something is left of the line. -/
  inside : cursor.Inside
  /-- The line and the lines below are in order. -/
  inOrder : Line.InOrder cursor.lines

/-- A step leads to a place on the same line or on one below. -/
theorem Cursor.Orderly.step {cursor next : Cursor} {depth : Nat} (orderly : cursor.Orderly)
    (found : (cursor.step depth).next? = some next) :
    next.Orderly ∧ cursor.line.number ≤ next.line.number := by
  obtain ⟨inside, below⟩ := Cursor.step_inside orderly.terminated orderly.inside found
  refine ⟨⟨fun line member => orderly.terminated line (below.subset member), inside,
    orderly.inOrder.sublist below.sublist⟩, ?_⟩
  exact orderly.inOrder.first_le (below.subset List.mem_cons_self)

/-- The tokens of a line stand on the lines that are read, from the first of them on. -/
theorem Cursor.Scans.placed {cursor : Cursor} {depth : Nat} {scanned : Scanned}
    (scans : cursor.Scans depth scanned) (orderly : cursor.Orderly) :
    Placed scanned.tokens scanned.line scanned.below ∧ cursor.line.number ≤ scanned.line := by
  induction scans with
  | @token cursor next depth deeper found scanned step later ih =>
    obtain ⟨onward, lower⟩ := orderly.step (by rw [step]; rfl)
    obtain ⟨placed, further⟩ := ih onward
    have reached := Nat.le_trans lower further
    refine ⟨⟨List.forall_mem_cons.2 ⟨?_, placed.above⟩, placed.lower⟩, reached⟩
    rwa [step_line step]
  | skip step later ih =>
    obtain ⟨onward, lower⟩ := orderly.step (by rw [step]; rfl)
    obtain ⟨placed, further⟩ := ih onward
    exact ⟨placed, Nat.le_trans lower further⟩
  | @last cursor depth found step =>
    obtain ⟨tail, -, rfl⟩ := Cursor.step_last step orderly.inside.nonempty
    refine ⟨⟨?_, (List.pairwise_cons.1 orderly.inOrder).1⟩, Nat.le_refl _⟩
    intro token member
    obtain rfl := List.mem_singleton.1 member
    exact Nat.le_refl _

/-- A fault inside a line is met on a line that is read, from the first of them on. -/
theorem Cursor.Breaks.line_le {cursor : Cursor} {depth : Nat} {fault : LineFault}
    (breaks : cursor.Breaks depth fault) (orderly : cursor.Orderly) :
    cursor.line.number ≤ fault.line := by
  induction breaks with
  | token step _ ih | skip step _ ih =>
    obtain ⟨onward, lower⟩ := orderly.step (by rw [step]; rfl)
    exact Nat.le_trans lower (ih onward)
  | fault => exact Nat.le_refl _

namespace Scanner

/-- The tokens of a line without statements stand on it. -/
theorem idleTokens_line {cursor : Cursor} {tokens : List Token}
    (found : idleTokens? cursor = some tokens) : ∀ token ∈ tokens, token.line = cursor.line.number := by
  cases idles_of_idleTokens? found <;> simp [Cursor.token]

/-- The marks at the start of a line stand on it. -/
theorem track_line {scanner : Scanner} {line : Line} {below : List Line} {marks : List Token}
    {indents : List Nat} (tracked : scanner.track line below = .ok (marks, indents)) :
    ∀ token ∈ marks, token.line = line.number := by
  intro token member
  obtain ⟨_, _, -, rfl⟩ := track_token tracked token member
  rfl

/-- The tokens made so far stand above the lines that have not been read, which are terminated and
in order. -/
structure Orderly (made : List Token) (scanner : Scanner) : Prop where
  /-- The lines that have not been read are terminated. -/
  terminated : ∀ line ∈ scanner.below, line.Terminated
  /-- They are in order. -/
  inOrder : Line.InOrder scanner.below
  /-- They are below the tokens. -/
  placed : Placed made scanner.line scanner.below

/-- The place behind the indentation of the first line that has not been read. -/
theorem Orderly.behindIndent {made : List Token} {scanner : Scanner} {line : Line}
    {below : List Line} (orderly : Orderly made scanner) (lines : scanner.below = line :: below) :
    (behindIndent line below).Orderly ∧ scanner.line < line.number := by
  obtain ⟨terminated, inOrder, placed⟩ := orderly
  have lower := placed.lower
  rw [lines] at terminated inOrder lower
  exact ⟨⟨terminated, behindIndent_inside (terminated line List.mem_cons_self), inOrder⟩,
    lower line List.mem_cons_self⟩

/-- More tokens are placed, if they stand below those that were made before. -/
theorem Orderly.more {made more : List Token} {scanner : Scanner} {number : Nat}
    {lines : List Line} (orderly : Orderly made scanner) (placed : Placed more number lines)
    (lower : scanner.line ≤ number) : Placed (made ++ more) number lines := by
  refine ⟨fun token member => ?_, placed.lower⟩
  rcases List.mem_append.1 member with member | member
  · exact Nat.le_trans (orderly.placed.above token member) lower
  · exact placed.above token member

/-- The scan of a line keeps the tokens above the lines that have not been read. -/
theorem Orderly.scanLine {made : List Token} {before behind : Scanner}
    (orderly : Orderly made before) (scan : before.scanLine = .ok behind) :
    Orderly (made ++ behind.pending) behind.idle := by
  have below := (scanLine_progress orderly.terminated scan).2.1
  refine ⟨fun line member => orderly.terminated line (below.subset member),
    orderly.inOrder.sublist below.sublist, ?_⟩
  rcases scanLine_ok scan with ⟨bottom, rfl⟩ | ⟨line, below, lines, idles | logical⟩
  · refine orderly.more ⟨fun token member => ?_, orderly.placed.lower⟩ (Nat.le_refl _)
    rcases List.mem_append.1 member with member | member
    · obtain ⟨-, -, rfl⟩ := List.mem_map.1 member
      exact Nat.le_refl _
    · obtain rfl := List.mem_singleton.1 member
      exact Nat.le_refl _
  · obtain ⟨tokens, found, rfl⟩ := idles
    obtain ⟨place, lower⟩ := orderly.behindIndent lines
    refine orderly.more ⟨fun token member => ?_, (List.pairwise_cons.1 place.inOrder).1⟩
      (Nat.le_of_lt lower)
    exact Nat.le_of_eq (idleTokens_line found token member)
  · obtain ⟨-, marks, indents, found, tracked, scans, rfl⟩ := logical
    obtain ⟨place, lower⟩ := orderly.behindIndent lines
    obtain ⟨placed, first⟩ := scans.placed place
    refine orderly.more ⟨fun token member => ?_, placed.lower⟩
      (Nat.le_trans (Nat.le_of_lt lower) first)
    rcases List.mem_append.1 member with member | member
    · exact Nat.le_trans (Nat.le_of_eq (track_line tracked token member)) first
    · exact placed.above token member

/-- At every point of a run without a fault the tokens stand above the lines that have not been
read. -/
theorem Run.orderly {lines : List String} {file : Option String} {tokens : List Token}
    {point : Scanner} (run : Run (Scanner.start lines file) ⟨tokens, none⟩ point) :
    Orderly (tokens ++ point.pending) point.idle := by
  obtain ⟨inOrder, lower⟩ := Line.follow_inOrder 0 false lines
  have initially : Orderly (Scanner.start lines file).pending (Scanner.start lines file).idle :=
    ⟨Line.read_terminated lines, inOrder, fun token member => absurd member List.not_mem_nil, lower⟩
  exact run.invariant Orderly initially fun _ _ _ _ _ orderly scan => orderly.scanLine scan

/-- A fault is met below all tokens that were handed out before it. -/
theorem Run.above_fault {lines : List String} {file : Option String} {tokens : List Token}
    {fault : Fault} {point : Scanner}
    (run : Run (Scanner.start lines file) ⟨tokens, some fault⟩ point) :
    ∀ token ∈ tokens, token.line < fault.position.line := by
  obtain ⟨before, left, earlier, ready, -, scan, -⟩ := run.of_fault
  have orderly := earlier.orderly
  have bare : before.idle = before := by rw [idle, ← ready]
  rw [ready, List.append_nil, bare] at orderly
  obtain ⟨line, below, lines, -, found⟩ := scanLine_error scan
  obtain ⟨place, lower⟩ := orderly.behindIndent lines
  have reached : line.number ≤ fault.position.line := by
    rcases found with ⟨cause, marks, indents, -, rfl, -⟩ |
      ⟨marks, indents, lower, -, tokens, rfl, -⟩
    · exact Nat.le_refl _
    · exact (breaks_of_scanTokens tokens).line_le place
  intro token member
  exact Nat.lt_of_le_of_lt (orderly.placed.above token member) (Nat.lt_of_lt_of_le lower reached)

end Scanner

end Offside
