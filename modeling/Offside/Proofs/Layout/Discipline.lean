import Offside.Proofs.Layout.Run

/-!
# The discipline of the layout

The widths of the open blocks increase, and the tokens open as many blocks as are open
(`Scanner.Counts`). Each call keeps this (`Scanner.Counts.next`), also one that meets a fault, so it
holds behind any number of calls. Up to a fault the scan of a line keeps more
(`Scanner.Keeps.scanLine`), and a run that ends without one has laid out its tokens well
(`Scanner.layout_discipline`).
-/
namespace Offside

open Text

/-- The number of tokens of a kind. -/
def countKind (kind : Kind) (tokens : List Token) : Nat :=
  tokens.countP (·.kind = kind)

/-- The number of open brackets behind an operator, unless it closes one that is not open. -/
def bracketsBehind? (text : String) (depth : Nat) : Option Nat :=
  if ["(", "[", "\x7b"].contains text then some (depth + 1)
  else if [")", "]", "\x7d"].contains text then if depth = 0 then none else some (depth - 1)
  else some depth

namespace Token

/-- The token ends a logical line, or opens or closes a block. -/
def isMark (token : Token) : Bool :=
  token.kind = .newline || token.kind = .indent || token.kind = .dedent

/-- The number of open brackets behind a token. -/
def depthBehind (depth : Nat) (token : Token) : Nat :=
  if token.kind = .operator then bracketDepth depth token.value.toList else depth

/-- The number of open brackets behind a token, unless it closes one that is not open. -/
def bracketsBehind? (depth : Nat) (token : Token) : Option Nat :=
  if token.kind = .operator then Offside.bracketsBehind? token.value depth else some depth

/-- The number of open blocks behind a token, unless it closes a block that is not open. -/
def blocksBehind? (blocks : Nat) (token : Token) : Option Nat :=
  if token.kind = .indent then some (blocks + 1)
  else if token.kind = .dedent then if blocks = 0 then none else some (blocks - 1)
  else some blocks

end Token

/-- The number of open brackets behind tokens. -/
def bracketsBehind (tokens : List Token) : Nat :=
  tokens.foldl Token.depthBehind 0

/-- Marks of the layout stand only where no bracket is open. -/
def MarksOutside : Nat → List Token → Prop
  | _, [] => True
  | depth, token :: later =>
    (token.isMark = true → depth = 0) ∧ MarksOutside (token.depthBehind depth) later

/-- The tokens of an input that has been scanned to its end. -/
structure WellLaidOut (tokens : List Token) : Prop where
  /-- All blocks that are opened are closed. -/
  balanced : countKind .indent tokens = countKind .dedent tokens
  /-- A block is closed only where one is open. -/
  opened : ∀ front, front <+: tokens → countKind .dedent front ≤ countKind .indent front
  /-- One mark ends the input, and nothing follows it. -/
  ended : ∃ front last, tokens = front ++ [last] ∧ last.kind = .endMarker ∧
    ∀ token ∈ front, token.kind ≠ .endMarker
  /-- Lines end, and blocks open and close, only outside brackets. At the end of the input blocks
  close in brackets as well. -/
  outside : ∀ front token back, tokens = front ++ token :: back →
    (token.kind = .newline ∨ token.kind = .indent ∨ (token.kind = .dedent ∧
      ∃ later ∈ back, later.kind ≠ .dedent ∧ later.kind ≠ .endMarker)) →
    bracketsBehind front = 0

/-- Tokens leave as many blocks open as they open more than they close. -/
theorem countKind_of_blocksBehind {tokens : List Token} {blocks behind : Nat}
    (found : tokens.foldlM Token.blocksBehind? blocks = some behind) :
    countKind .dedent tokens + behind = blocks + countKind .indent tokens := by
  induction tokens generalizing blocks with
  | nil =>
    obtain rfl := Option.some.inj found
    simp [countKind]
  | cons token later ih =>
    rw [List.foldlM_cons] at found
    obtain ⟨next, step, rest⟩ := Option.bind_eq_some_iff.1 found
    have counted := ih rest
    simp only [countKind, List.countP_cons] at counted ⊢
    rw [Token.blocksBehind?] at step
    split at step
    · rename_i opens
      obtain rfl := Option.some.inj step
      simp [opens]
      omega
    · split at step
      · rename_i closes
        split at step
        · contradiction
        · rename_i positive
          obtain rfl := Option.some.inj step
          simp [closes]
          omega
      · rename_i opensNot closesNot
        obtain rfl := Option.some.inj step
        simp [opensNot, closesNot]
        omega

/-- Tokens that leave blocks open do so behind each of their prefixes. -/
theorem blocksBehind_of_prefix {front tokens : List Token} {blocks behind : Nat}
    (within : front <+: tokens)
    (found : tokens.foldlM Token.blocksBehind? blocks = some behind) :
    ∃ between, front.foldlM Token.blocksBehind? blocks = some between := by
  obtain ⟨back, rfl⟩ := within
  rw [List.foldlM_append] at found
  obtain ⟨between, step, -⟩ := Option.bind_eq_some_iff.1 found
  exact ⟨between, step⟩

/-- Tokens that open and close no blocks leave those open that were. -/
theorem blocksBehind_of_plain {tokens : List Token} (blocks : Nat)
    (plain : ∀ token ∈ tokens, token.kind ≠ .indent ∧ token.kind ≠ .dedent) :
    tokens.foldlM Token.blocksBehind? blocks = some blocks := by
  induction tokens with
  | nil => rfl
  | cons token later ih =>
    have here := plain token List.mem_cons_self
    rw [List.foldlM_cons, Token.blocksBehind?, if_neg here.1, if_neg here.2]
    exact ih fun found member => plain found (List.mem_cons_of_mem token member)

/-- Blocks that are open can be closed. -/
theorem blocksBehind_of_dedents {tokens : List Token} (blocks : Nat)
    (closing : ∀ token ∈ tokens, token.kind = .dedent) :
    tokens.foldlM Token.blocksBehind? (tokens.length + blocks) = some blocks := by
  induction tokens with
  | nil => simp
  | cons token later ih =>
    have here := closing token List.mem_cons_self
    have positive : (token :: later).length + blocks ≠ 0 := by
      rw [List.length_cons]
      omega
    have less : (token :: later).length + blocks - 1 = later.length + blocks := by
      rw [List.length_cons]
      omega
    rw [List.foldlM_cons, Token.blocksBehind?, if_neg (by simp [here]), if_pos here,
      if_neg positive, less]
    exact ih fun found member => closing found (List.mem_cons_of_mem token member)

/-- Marks that stand outside brackets in two parts do so in the whole. -/
theorem MarksOutside.append {front back : List Token} {depth : Nat}
    (head : MarksOutside depth front)
    (tail : MarksOutside (front.foldl Token.depthBehind depth) back) :
    MarksOutside depth (front ++ back) := by
  induction front generalizing depth with
  | nil => exact tail
  | cons token later ih => exact ⟨head.1, ih head.2 tail⟩

/-- No bracket is open at a mark. -/
theorem MarksOutside.at_mark {front back : List Token} {token : Token} {depth : Nat}
    (outside : MarksOutside depth (front ++ token :: back)) (mark : token.isMark = true) :
    front.foldl Token.depthBehind depth = 0 := by
  induction front generalizing depth with
  | nil => exact outside.1 mark
  | cons first later ih => exact ih outside.2

/-- Tokens that are no operators leave the brackets open that were. -/
theorem depthBehind_of_plain {tokens : List Token} (depth : Nat)
    (plain : ∀ token ∈ tokens, token.kind ≠ .operator) :
    tokens.foldl Token.depthBehind depth = depth := by
  induction tokens with
  | nil => rfl
  | cons token later ih =>
    rw [List.foldl_cons, Token.depthBehind, if_neg (plain token List.mem_cons_self)]
    exact ih fun found member => plain found (List.mem_cons_of_mem token member)

/-- Tokens outside brackets that are no operators have their marks outside brackets. -/
theorem MarksOutside.of_plain {tokens : List Token}
    (plain : ∀ token ∈ tokens, token.kind ≠ .operator) : MarksOutside 0 tokens := by
  induction tokens with
  | nil => trivial
  | cons token later ih =>
    refine ⟨fun _ => rfl, ?_⟩
    rw [Token.depthBehind, if_neg (plain token List.mem_cons_self)]
    exact ih fun found member => plain found (List.mem_cons_of_mem token member)

/-- Tokens without marks have no marks in brackets. -/
theorem MarksOutside.of_unmarked {tokens : List Token} (depth : Nat)
    (unmarked : ∀ token ∈ tokens, token.isMark = false) : MarksOutside depth tokens := by
  induction tokens generalizing depth with
  | nil => trivial
  | cons token later ih =>
    refine ⟨fun mark => ?_, ih _ fun found member => ?_⟩
    · rw [unmarked token List.mem_cons_self] at mark
      contradiction
    · exact unmarked found (List.mem_cons_of_mem token member)

/-- A token in a logical line: it opens and closes no block and does not end the input. -/
def Token.IsInner (token : Token) : Prop :=
  token.kind ≠ .indent ∧ token.kind ≠ .dedent ∧ token.kind ≠ .endMarker

/-- What a step finds is no mark but the end of the line, which is a mark outside brackets only,
and it counts the brackets. -/
theorem Cursor.step_token {cursor next : Cursor} {depth deeper : Nat} {found : Token}
    (step : cursor.step depth = .token found next deeper) :
    found.IsInner ∧ found.isMark = false ∧ found.depthBehind depth = deeper := by
  have finds := cursor.step_finds depth
  rw [step] at finds
  cases finds <;> simp [Token.IsInner, Token.isMark, Token.depthBehind, Cursor.token]

/-- The tokens of a line count the brackets, and only its end is a mark, outside brackets. -/
theorem Cursor.Scans.brackets {cursor : Cursor} {depth : Nat} {scanned : Scanned}
    (scans : cursor.Scans depth scanned) :
    (∀ token ∈ scanned.tokens, token.IsInner) ∧ MarksOutside depth scanned.tokens ∧
      scanned.tokens.foldl Token.depthBehind depth = scanned.depth := by
  induction scans with
  | @token cursor next depth deeper found scanned step later ih =>
    obtain ⟨inner, unmarked, behind⟩ := step_token step
    obtain ⟨inners, outside, depths⟩ := ih
    refine ⟨List.forall_mem_cons.2 ⟨inner, inners⟩, ⟨?_, behind ▸ outside⟩, ?_⟩
    · intro mark
      rw [unmarked] at mark
      contradiction
    · rw [List.foldl_cons, behind]
      exact depths
  | skip step later ih => exact ih
  | @last cursor depth found step =>
    have finds := cursor.step_finds depth
    rw [step] at finds
    cases finds with
    | nothing front => exact ⟨by simp, trivial, rfl⟩
    | @lineFeed tail front =>
      by_cases flat : depth = 0
      · subst flat
        simp [Token.IsInner, MarksOutside, Token.depthBehind, Cursor.token]
      · simp [Token.IsInner, MarksOutside, Token.isMark, Token.depthBehind, Cursor.token, flat]

/-- The tokens of a line up to a fault stand inside it. -/
theorem Cursor.Breaks.inner {cursor : Cursor} {depth : Nat} {fault : LineFault}
    (breaks : cursor.Breaks depth fault) : ∀ token ∈ fault.scanned.tokens, token.IsInner := by
  induction breaks with
  | token step _ ih => exact List.forall_mem_cons.2 ⟨(step_token step).1, ih⟩
  | skip _ _ ih => exact ih
  | fault => simp

/-- Inside a line a scan breaks off only where a literal or the input ends. -/
theorem Cursor.Breaks.cause {cursor : Cursor} {depth : Nat} {fault : LineFault}
    (breaks : cursor.Breaks depth fault) :
    fault.cause = .unterminatedString ∨ fault.cause = .unexpectedEnd := by
  induction breaks with
  | token _ _ ih => exact ih
  | skip _ _ ih => exact ih
  | @fault cursor place depth cause step =>
    have finds := cursor.step_finds depth
    rw [step] at finds
    cases finds with
    | unterminated => exact .inl rfl
    | unexpectedEnd => exact .inr rfl

namespace Scanner

/-- The widths of the blocks that are open, the outermost first. The text outside all blocks has
width zero. -/
def widths (scanner : Scanner) : List Nat := 0 :: scanner.indents.reverse

/-- The widths of blocks, the innermost first, decrease to the width outside all blocks. -/
def Ordered (indents : List Nat) : Prop :=
  indents.Pairwise (· > ·) ∧ ∀ width ∈ indents, 0 < width

/-- The widths of open blocks increase just if they decrease to zero from the innermost one. -/
theorem widths_increase {scanner : Scanner} :
    scanner.widths.Pairwise (· < ·) ↔ Ordered scanner.indents := by
  rw [widths, List.pairwise_cons, List.pairwise_reverse, Ordered, and_comm]
  simp only [List.mem_reverse]

/-- The innermost block is the widest one. -/
theorem Ordered.le_head {indents : List Nat} (ordered : Ordered indents) {width : Nat}
    (member : width ∈ indents) : width ≤ indents.headD 0 := by
  cases indents with
  | nil => contradiction
  | cons innermost outer =>
    rw [List.headD_cons]
    rcases List.mem_cons.1 member with rfl | within
    · exact Nat.le_refl width
    · exact Nat.le_of_lt ((List.pairwise_cons.1 ordered.1).1 width within)

/-- A wider block inside all others. -/
theorem Ordered.push {indents : List Nat} (ordered : Ordered indents) {width : Nat}
    (wider : indents.headD 0 < width) : Ordered (width :: indents) := by
  refine ⟨List.pairwise_cons.2 ⟨fun other member => ?_, ordered.1⟩, ?_⟩
  · exact Nat.lt_of_le_of_lt (ordered.le_head member) wider
  · exact List.forall_mem_cons.2 ⟨Nat.lt_of_le_of_lt (Nat.zero_le _) wider, ordered.2⟩

/-- The blocks that are left when the inner ones close. -/
theorem Ordered.drop {indents : List Nat} (ordered : Ordered indents) (closes : Nat → Bool) :
    Ordered (indents.dropWhile closes) :=
  ⟨ordered.1.sublist (List.dropWhile_sublist closes), fun width member =>
    ordered.2 width ((List.dropWhile_sublist closes).subset member)⟩

/-- Marks lead from blocks that are open to others. -/
structure Shifts (indents : List Nat) (marks : List Token) (kept : List Nat) : Prop where
  /-- The widths are ordered behind the marks. -/
  ordered : Ordered kept
  /-- The marks open and close blocks. -/
  blocks : marks.foldlM Token.blocksBehind? indents.length = some kept.length
  /-- They do nothing else. -/
  kinds : ∀ token ∈ marks, token.kind = .indent ∨ token.kind = .dedent

/-- All blocks that are wider than a line close. -/
theorem Shifts.closes {indents : List Nat} (ordered : Ordered indents) (width : Nat)
    (cursor : Cursor) :
    Shifts indents ((indents.takeWhile (width < ·)).map fun _ => cursor.token .dedent [])
      (indents.dropWhile (width < ·)) := by
  have closing : ∀ token ∈ (indents.takeWhile (width < ·)).map fun _ => cursor.token .dedent [],
      token.kind = .dedent := by
    intro token member
    obtain ⟨-, -, rfl⟩ := List.mem_map.1 member
    rfl
  refine ⟨ordered.drop _, ?_, fun token member => .inr (closing token member)⟩
  have split_length : indents.length =
      ((indents.takeWhile (width < ·)).map fun _ => cursor.token .dedent []).length +
        (indents.dropWhile (width < ·)).length := by
    rw [List.length_map, ← List.length_append, List.takeWhile_append_dropWhile]
  rw [split_length]
  exact blocksBehind_of_dedents _ closing

/-- The marks at the start of a line lead from the blocks that were open to those that are. -/
theorem trackIndent_ok {indents kept : List Nat} {width : Nat} {cursor : Cursor}
    {marks : List Token} (ordered : Ordered indents)
    (tracked : trackIndent indents width cursor = .ok (marks, kept)) :
    Shifts indents marks kept := by
  cases trackIndent_ok_iff.1 tracked with
  | opens wider =>
    refine ⟨ordered.push wider, ?_, by simp [Cursor.token]⟩
    simp [Token.blocksBehind?, Cursor.token]
  | closes => exact .closes ordered width cursor

/-- When the wider blocks close, the innermost one that is left has a width just if a block that
is open has it. -/
theorem headD_dropWhile {indents : List Nat} (ordered : Ordered indents) (width : Nat) :
    (indents.dropWhile (width < ·)).headD 0 = width ↔ width ∈ 0 :: indents := by
  induction indents with
  | nil => simp [eq_comm]
  | cons innermost outer ih =>
    have positive := ordered.2 innermost List.mem_cons_self
    have wider := (List.pairwise_cons.1 ordered.1).1
    have inner : Ordered outer :=
      ⟨(List.pairwise_cons.1 ordered.1).2, (List.forall_mem_cons.1 ordered.2).2⟩
    by_cases closes : width < innermost
    · rw [List.dropWhile_cons_of_pos (by simpa using closes), ih inner]
      have differs : width ≠ innermost := Nat.ne_of_lt closes
      simp [differs]
    · rw [List.dropWhile_cons_of_neg (by simpa using closes), List.headD_cons]
      constructor
      · rintro rfl
        simp
      · intro member
        rcases List.mem_cons.1 member with outside | within
        · omega
        · rcases List.mem_cons.1 within with same | deeper
          · exact same.symm
          · have less : width < innermost := wider width deeper
            omega

/-- The start of a line leads to a fault just if the line is narrower than the innermost block
and no block that is open has its width. The wider blocks are closed then. -/
theorem trackIndent_error {indents kept : List Nat} (ordered : Ordered indents) {width : Nat}
    {cursor : Cursor} {cause : Cause} {marks : List Token} :
    trackIndent indents width cursor = .error (cause, marks, kept) ↔
      (width < indents.headD 0 ∧ width ∉ 0 :: indents) ∧ cause = .inconsistentDedent width ∧
        marks = ((indents.takeWhile (width < ·)).map fun _ => cursor.token .dedent []) ∧
        kept = indents.dropWhile (width < ·) := by
  have left := headD_dropWhile ordered width
  rw [trackIndent]
  by_cases wider : indents.headD 0 < width
  · rw [if_pos wider]
    constructor
    · intro wrong
      contradiction
    · rintro ⟨⟨narrower, -⟩, -⟩
      omega
  · rw [if_neg wider]
    dsimp only
    by_cases member : width ∈ 0 :: indents
    · rw [if_pos (left.2 member)]
      simp [member]
    · have narrower : width < indents.headD 0 := by
        by_contra most
        have same : width = indents.headD 0 := by omega
        refine member (same ▸ ?_)
        cases indents with
        | nil => simp
        | cons innermost outer => simp
      rw [if_neg (mt left.1 member), Except.error.injEq, Prod.mk.injEq, Prod.mk.injEq]
      constructor
      · rintro ⟨rfl, rfl, rfl⟩
        exact ⟨⟨narrower, member⟩, rfl, rfl, rfl⟩
      · rintro ⟨-, rfl, rfl, rfl⟩
        exact ⟨rfl, rfl, rfl⟩

/-- What holds of the blocks of a scan and of the tokens that it has made so far, at all points. -/
structure Counts (made : List Token) (scanner : Scanner) : Prop where
  /-- The widths of the open blocks are ordered. -/
  ordered : Ordered scanner.indents
  /-- The tokens open as many blocks as are open. -/
  blocks : made.foldlM Token.blocksBehind? 0 = some scanner.indents.length

/-- What holds of a scan and of the tokens that it has made so far, if it has met no fault. -/
structure Keeps (made : List Token) (scanner : Scanner) : Prop extends Counts made scanner where
  /-- Before the end, the brackets have been counted, and marks stand outside them only. -/
  going : scanner.finished = false → bracketsBehind made = scanner.depth ∧
    MarksOutside 0 made ∧ ∀ token ∈ made, token.kind ≠ .endMarker
  /-- At the end, all blocks are closed, and the mark of the end follows. -/
  ended : scanner.finished = true → scanner.indents = [] ∧ ∃ front closing last,
    made = front ++ (closing ++ [last]) ∧ last.kind = .endMarker ∧
    (∀ token ∈ closing, token.kind = .dedent) ∧ MarksOutside 0 front ∧
    ∀ token ∈ front, token.kind ≠ .endMarker

/-- More tokens of a scan that goes on. -/
theorem Keeps.step {made more : List Token} {before behind : Scanner} (kept : Keeps made before)
    (open_ : before.finished = false) (goesOn : behind.finished = false)
    (counts : Counts (made ++ more) behind)
    (depth : more.foldl Token.depthBehind before.depth = behind.depth)
    (outside : MarksOutside before.depth more) (inside : ∀ token ∈ more, token.kind ≠ .endMarker) :
    Keeps (made ++ more) behind := by
  obtain ⟨counted, marked, unfinished⟩ := kept.going open_
  refine ⟨counts, fun _ => ⟨?_, ?_, ?_⟩, fun finished => ?_⟩
  · rw [bracketsBehind, List.foldl_append, ← bracketsBehind, counted, depth]
  · apply marked.append
    rw [← bracketsBehind, counted]
    exact outside
  · intro token member
    rcases List.mem_append.1 member with member | member
    · exact unfinished token member
    · exact inside token member
  · rw [goesOn] at finished
    contradiction

/-- The tokens of a line without statements are comments and soft breaks. -/
theorem idleTokens_kind {cursor : Cursor} {tokens : List Token}
    (found : idleTokens? cursor = some tokens) :
    ∀ token ∈ tokens, token.kind = .comment ∨ token.kind = .softBreak := by
  cases idles_of_idleTokens? found <;> simp [Cursor.token]

/-- The marks at the start of a line, which count inside brackets as none. -/
theorem track_ok {scanner : Scanner} (ordered : Ordered scanner.indents) {line : Line}
    {below : List Line} {marks : List Token} {indents : List Nat}
    (tracked : scanner.track line below = .ok (marks, indents)) :
    Shifts scanner.indents marks indents ∧ MarksOutside scanner.depth marks := by
  rw [track] at tracked
  split at tracked
  · rename_i flat
    have shifts := trackIndent_ok ordered tracked
    refine ⟨shifts, flat ▸ .of_plain fun token member => ?_⟩
    rcases shifts.kinds token member with kind | kind <;> simp [kind]
  · obtain ⟨rfl, rfl⟩ := Prod.mk.inj (Except.ok.inj tracked)
    exact ⟨⟨ordered, rfl, by simp⟩, trivial⟩

/-- The marks of a line that leads to a fault. -/
theorem track_error {scanner : Scanner} (ordered : Ordered scanner.indents) {line : Line}
    {below : List Line} {cause : Cause} {marks : List Token} {indents : List Nat}
    (tracked : scanner.track line below = .error (cause, marks, indents)) :
    Shifts scanner.indents marks indents := by
  rw [track] at tracked
  split at tracked
  · obtain ⟨-, -, rfl, rfl⟩ := (trackIndent_error ordered).1 tracked
    exact .closes ordered _ _
  · contradiction

/-- The tokens of a line behind its marks open and close no blocks. -/
theorem Counts.line {made marks : List Token} {before : Scanner} {indents : List Nat}
    {scanned : Scanned} (counts : Counts made before) (shifts : Shifts before.indents marks indents)
    (inner : ∀ token ∈ scanned.tokens, token.IsInner) :
    Counts (made ++ (marks ++ scanned.tokens)) (before.behindTokens marks indents scanned) := by
  refine ⟨shifts.ordered, ?_⟩
  rw [List.foldlM_append, counts.blocks, Option.bind_eq_bind, Option.bind_some,
    List.foldlM_append, shifts.blocks]
  exact blocksBehind_of_plain _ fun token member =>
    ⟨(inner token member).1, (inner token member).2.1⟩

/-- The end of the input closes all blocks. -/
theorem Counts.finish {made : List Token} {scanner : Scanner} (counts : Counts made scanner) :
    Counts (made ++ scanner.finish.pending) scanner.finish := by
  have closing : ∀ token ∈ scanner.indents.map fun _ => (⟨.dedent, "", scanner.line, ""⟩ : Token),
      token.kind = .dedent := by
    intro token member
    obtain ⟨-, -, rfl⟩ := List.mem_map.1 member
    rfl
  have closed := blocksBehind_of_dedents 0 closing
  rw [Nat.add_zero, List.length_map] at closed
  refine ⟨⟨.nil, by simp [Scanner.finish]⟩, ?_⟩
  show (made ++ ((scanner.indents.map fun _ => (⟨.dedent, "", scanner.line, ""⟩ : Token)) ++
    [Token.endMarker scanner.line])).foldlM Token.blocksBehind? 0 = some 0
  rw [List.foldlM_append, counts.blocks, Option.bind_eq_bind, Option.bind_some,
    List.foldlM_append, closed]
  rfl

/-- The scan of a line keeps the count of the blocks. -/
theorem Counts.scanLine {made : List Token} {before behind : Scanner} (counts : Counts made before)
    (scan : before.scanLine = .ok behind) : Counts (made ++ behind.pending) behind := by
  rcases scanLine_ok scan with ⟨-, rfl⟩ | ⟨line, below, -, idles | logical⟩
  · exact counts.finish
  · obtain ⟨tokens, found, rfl⟩ := idles
    refine ⟨counts.ordered, ?_⟩
    rw [List.foldlM_append, counts.blocks]
    refine blocksBehind_of_plain _ fun token member => ?_
    rcases idleTokens_kind found token member with kind | kind <;> simp [kind]
  · obtain ⟨-, marks, indents, found, tracked, scans, rfl⟩ := logical
    exact counts.line (track_ok counts.ordered tracked).1 scans.brackets.1

/-- Up to a fault a line keeps the count of the blocks. -/
theorem Counts.scanLine_error {made : List Token} {before left : Scanner} {fault : Fault}
    (counts : Counts made before) (scan : before.scanLine = .error (fault, left)) :
    Counts (made ++ left.pending) left := by
  obtain ⟨line, below, -, -, ⟨cause, marks, indents, tracked, -, rfl⟩ |
    ⟨marks, indents, lower, tracked, tokens, -, rfl⟩⟩ := Scanner.scanLine_error scan
  · exact counts.line (track_error counts.ordered tracked) (by simp)
  · exact counts.line (track_ok counts.ordered tracked).1 (breaks_of_scanTokens tokens).inner

/-- A call keeps the count of the blocks. -/
theorem Counts.next {made : List Token} {scanner : Scanner} (counts : Counts made scanner) :
    Counts (made ++ scanner.makes) scanner.next.2 := by
  have still (quiet : scanner.makes = []) {behind : Scanner}
      (same : behind.indents = scanner.indents) : Counts (made ++ scanner.makes) behind := by
    rw [quiet, List.append_nil]
    exact ⟨same ▸ counts.ordered, same ▸ counts.blocks⟩
  rcases next_cases (Prod.eta scanner.next).symm with ⟨token, later, ready, -, behind⟩ |
    ⟨ready, finished, -, behind⟩ | ⟨ready, going, fault, left, scan, -, behind⟩ |
    ⟨ready, going, scanned, token, later, scan, front, -, behind⟩ |
    ⟨ready, going, scanned, scan, empty, -, behind⟩
  · rw [behind]
    exact still (makes_of_pending (ready ▸ List.cons_ne_nil _ _)) rfl
  · rw [behind]
    exact still (makes_of_finished finished) rfl
  · have kept := counts.scanLine_error scan
    rw [behind, makes_of_error ready going scan]
    exact ⟨kept.ordered, kept.blocks⟩
  · have kept := counts.scanLine scan
    rw [behind, makes_of_ok ready going scan]
    exact ⟨kept.ordered, kept.blocks⟩
  · rw [behind, makes_of_ok ready going scan]
    exact counts.scanLine scan

/-- Behind any number of calls the tokens that have been made open as many blocks as are open. -/
theorem counts_after (lines : List String) (file : Option String) (calls : Nat) :
    Counts ((start lines file).made calls) ((start lines file).after calls) := by
  induction calls with
  | zero => exact ⟨⟨.nil, by simp [start, after]⟩, rfl⟩
  | succ calls ih => exact ih.next

/-- The end of the input closes all blocks, and the end mark follows. -/
theorem Keeps.finish {made : List Token} {scanner : Scanner} (kept : Keeps made scanner)
    (open_ : scanner.finished = false) :
    Keeps (made ++ scanner.finish.pending) scanner.finish.idle := by
  obtain ⟨-, marked, unfinished⟩ := kept.going open_
  have closing : ∀ token ∈ scanner.indents.map fun _ => (⟨.dedent, "", scanner.line, ""⟩ : Token),
      token.kind = .dedent := by
    intro token member
    obtain ⟨-, -, rfl⟩ := List.mem_map.1 member
    rfl
  refine ⟨⟨kept.toCounts.finish.ordered, kept.toCounts.finish.blocks⟩, fun open_ => ?_,
    fun _ => ⟨rfl, ?_⟩⟩
  · contradiction
  · exact ⟨made, _, .endMarker scanner.line, rfl, rfl, closing, marked, unfinished⟩

/-- The scan of a line keeps what holds of a scan. -/
theorem Keeps.scanLine {made : List Token} {before behind : Scanner} (kept : Keeps made before)
    (open_ : before.finished = false) (scan : before.scanLine = .ok behind) :
    Keeps (made ++ behind.pending) behind.idle := by
  have counts := kept.toCounts.scanLine scan
  have counts : Counts (made ++ behind.pending) behind.idle := ⟨counts.ordered, counts.blocks⟩
  rcases scanLine_ok scan with ⟨-, rfl⟩ | ⟨line, below, -, idles | logical⟩
  · exact kept.finish open_
  · obtain ⟨tokens, found, rfl⟩ := idles
    have kinds := idleTokens_kind found
    refine kept.step open_ open_ counts ?_ ?_ ?_
    · apply depthBehind_of_plain
      intro token member
      rcases kinds token member with kind | kind <;> simp [kind]
    · apply MarksOutside.of_unmarked
      intro token member
      rcases kinds token member with kind | kind <;> simp [Token.isMark, kind]
    · intro token member
      rcases kinds token member with kind | kind <;> simp [kind]
  · obtain ⟨-, marks, indents, found, tracked, scans, rfl⟩ := logical
    obtain ⟨⟨-, -, kinds⟩, atStart⟩ := track_ok kept.ordered tracked
    obtain ⟨inner, outside, depth⟩ := scans.brackets
    have flat : marks.foldl Token.depthBehind before.depth = before.depth := by
      apply depthBehind_of_plain
      intro token member
      rcases kinds token member with kind | kind <;> simp [kind]
    refine kept.step open_ open_ counts ?_ ?_ ?_
    · rw [List.foldl_append, flat]
      exact depth
    · apply atStart.append
      rw [flat]
      exact outside
    · intro token member
      rcases List.mem_append.1 member with member | member
      · rcases kinds token member with kind | kind <;> simp [kind]
      · exact (inner token member).2.2

/-- A scan starts with no token, no block and no bracket. -/
theorem start_keeps (lines : List String) (file : Option String) :
    Keeps (start lines file).pending (start lines file).idle := by
  refine ⟨⟨⟨.nil, by simp [start, idle]⟩, rfl⟩, fun _ => ⟨rfl, trivial, ?_⟩, fun finished => ?_⟩
  · intro token member
    contradiction
  · contradiction

/-- What holds of a scan holds at every point of a run without a fault. -/
theorem Run.keeps {lines : List String} {file : Option String} {tokens : List Token}
    {point : Scanner} (run : Run (Scanner.start lines file) ⟨tokens, none⟩ point) :
    Keeps (tokens ++ point.pending) point.idle :=
  run.invariant Keeps (start_keeps lines file) fun _ _ _ _ open_ kept scan =>
    kept.scanLine open_ scan

/-- The widths of the open blocks are ordered at every point of a run without a fault. -/
theorem Run.ordered {lines : List String} {file : Option String} {tokens : List Token}
    {point : Scanner} (run : Run (Scanner.start lines file) ⟨tokens, none⟩ point) :
    Ordered point.indents :=
  run.keeps.ordered

/-- The tokens of a scan that has ended are laid out well. -/
theorem Keeps.wellLaidOut {made : List Token} {scanner : Scanner} (kept : Keeps made scanner)
    (finished : scanner.finished = true) : WellLaidOut made := by
  obtain ⟨flat, front, closing, last, rfl, mark, closes, outside, unfinished⟩ :=
    kept.ended finished
  refine ⟨?_, ?_, ⟨front ++ closing, last, by rw [List.append_assoc], mark, ?_⟩, ?_⟩
  · have counted := countKind_of_blocksBehind kept.blocks
    rw [flat, List.length_nil] at counted
    omega
  · intro part within
    obtain ⟨between, found⟩ := blocksBehind_of_prefix within kept.blocks
    have counted := countKind_of_blocksBehind found
    omega
  · intro token member
    rcases List.mem_append.1 member with member | member
    · exact unfinished token member
    · rw [closes token member]
      decide
  · intro before token back whole kinds
    -- No token behind `front` is of the kinds that are asked for, so the token stands in it.
    have later : ∃ found ∈ token :: back, found.kind ≠ .dedent ∧ found.kind ≠ .endMarker := by
      rcases kinds with kind | kind | ⟨-, found, member, other⟩
      · exact ⟨token, List.mem_cons_self, by simp [kind]⟩
      · exact ⟨token, List.mem_cons_self, by simp [kind]⟩
      · exact ⟨found, List.mem_cons_of_mem token member, other⟩
    have tail : ∀ found ∈ closing ++ [last], found.kind = .dedent ∨ found.kind = .endMarker := by
      intro found member
      rcases List.mem_append.1 member with member | member
      · exact .inl (closes found member)
      · exact .inr (List.mem_singleton.1 member ▸ mark)
    obtain ⟨found, member, notDedent, notEnd⟩ := later
    have marked : token.isMark = true := by
      rcases kinds with kind | kind | ⟨kind, -⟩ <;> simp [Token.isMark, kind]
    rcases List.append_eq_append_iff.1 whole with ⟨more, rfl, behind⟩ | ⟨more, rfl, behind⟩
    · have inTail : found ∈ closing ++ [last] := by
        rw [behind]
        exact List.mem_append_right more member
      rcases tail found inTail with kind | kind <;> contradiction
    · cases more with
      | nil =>
        rw [List.nil_append] at behind
        rcases tail found (behind ▸ member) with kind | kind <;> contradiction
      | cons first more =>
        obtain ⟨rfl, -⟩ := List.cons.inj behind
        exact outside.at_mark marked

/-- The tokens of a text that is scanned to its end are laid out well. -/
theorem wellLaidOut_of_tokenize {source : String} {file : Option String} {tokens : List Token}
    (scanned : tokenize source file = .ok tokens) : WellLaidOut tokens := by
  obtain ⟨point, run, ready, finished⟩ := run_of_tokenize scanned
  have laidOut := run.keeps.wellLaidOut finished
  rwa [ready, List.append_nil] at laidOut

/-- The next call comes to a line with statements. -/
structure Reaches (point : Scanner) (line : Line) (below : List Line) : Prop where
  /-- No token is ready. -/
  ready : point.pending = []
  /-- The scan goes on. -/
  going : point.finished = false
  /-- The line is the next one. -/
  lines : point.below = line :: below
  /-- The line holds more than white space and a comment. -/
  logical : idleTokens? (behindIndent line below) = none

/-- The line is narrower than the innermost open block, and no open block has its width. -/
structure Misfits (point : Scanner) (line : Line) : Prop where
  /-- No bracket is open. -/
  flat : point.depth = 0
  /-- The innermost block is wider. -/
  narrower : indentWidth line < point.width
  /-- The width is new. -/
  fresh : indentWidth line ∉ point.widths

/-- The scan of a line with statements is at fault for its indentation just if the line
misfits. -/
theorem scanLine_misfits {point : Scanner} (ordered : Ordered point.indents) {line : Line}
    {below : List Line} (reaches : point.Reaches line below) (width : Nat) (position : Position) :
    (∃ left, point.scanLine = .error (⟨.inconsistentDedent width, position⟩, left)) ↔
      point.Misfits line ∧ width = indentWidth line ∧ position = ⟨line.number, point.file⟩ := by
  have open_ : ∀ width, width ∈ point.widths ↔ width ∈ 0 :: point.indents := by
    intro width
    simp [Scanner.widths]
  constructor
  · rintro ⟨left, scan⟩
    obtain ⟨other, lower, lines, -, tracked | tokens⟩ := scanLine_error scan
    · obtain ⟨cause, marks, indents, tracked, same, -⟩ := tracked
      obtain ⟨rfl, rfl⟩ := List.cons.inj (reaches.lines.symm.trans lines)
      obtain ⟨rfl, rfl⟩ := Fault.mk.inj same
      rw [track] at tracked
      split at tracked
      · rename_i flat
        obtain ⟨⟨narrower, fresh⟩, found, -⟩ := (trackIndent_error ordered).1 tracked
        exact ⟨⟨flat, narrower, mt (open_ _).1 fresh⟩, Cause.inconsistentDedent.inj found, rfl⟩
      · contradiction
    · obtain ⟨_, _, lower, _, failed, same, -⟩ := tokens
      obtain ⟨cause, -⟩ := Fault.mk.inj same
      rcases (breaks_of_scanTokens failed).cause with other | other <;>
        · rw [other] at cause
          contradiction
  · rintro ⟨⟨flat, narrower, fresh⟩, rfl, rfl⟩
    have failed := (@trackIndent_error _ _ ordered _ (behindIndent line below) _ _).2
      ⟨⟨narrower, mt (open_ _).2 fresh⟩, rfl, rfl, rfl⟩
    exact ⟨_, scanLine_of_mark reaches.lines reaches.logical ((if_pos flat).trans failed)⟩

/-- However often the scan is called, it hands out nothing and stays as it is: no line is read. -/
def Silent (point : Scanner) : Prop :=
  ∀ calls, point.after calls = point ∧ point.next = (none, point)

/-- Behind a fault the scan has ended. -/
theorem Run.silent_of_fault {start point : Scanner} {tokens : List Token} {fault : Fault}
    (run : Run start ⟨tokens, some fault⟩ point) : point.Silent := by
  obtain ⟨before, left, -, -, -, -, rfl⟩ := run.of_fault
  exact ended_forever rfl rfl

/-- Behind the mark of the end the scan has ended. -/
theorem Run.silent_of_endMarker {lines : List String} {file : Option String}
    {tokens : List Token} {point : Scanner}
    (run : Run (Scanner.start lines file) ⟨tokens, none⟩ point)
    {token : Token} (member : token ∈ tokens) (mark : token.kind = .endMarker) :
    point.Silent := by
  have kept := run.keeps
  have finished : point.finished = true := by
    by_contra going
    rw [Bool.not_eq_true] at going
    have unfinished := (kept.going going).2.2
    exact unfinished token (List.mem_append_left _ member) mark
  obtain ⟨front, last, whole, -, inner⟩ := (kept.wellLaidOut finished).ended
  have ready : point.pending = [] := by
    rcases List.eq_nil_or_concat' point.pending with empty | ⟨later, final, some_⟩
    · exact empty
    · rw [some_, ← List.append_assoc] at whole
      obtain ⟨rfl, -⟩ := List.append_inj' whole rfl
      exact absurd mark (inner token (List.mem_append_left _ member))
  exact ended_forever ready finished

/-- Behind any number of calls the widths of the open blocks increase from zero, and the tokens made
so far open as many blocks as are open, also behind a fault, where the tokens of its line are lost.
All points of a run are behind some calls, and up to a fault all that is made is handed out or
ready. A run that ends without a fault lays out its tokens well. The indentation is at fault just if
a run reaches a line that misfits. Behind a fault or the mark of the end, calls hand out nothing and
read nothing. -/
theorem layout_discipline (lines : List String) (file : Option String) :
    (∀ calls,
      ((start lines file).after calls).widths.Pairwise (· < ·) ∧
      ((start lines file).after calls).widths.head? = some 0 ∧
      countKind .indent ((start lines file).made calls) =
        countKind .dedent ((start lines file).made calls) +
          (((start lines file).after calls).widths.length - 1)) ∧
    (∀ stream point, Run (start lines file) stream point → ∃ calls lost,
      (start lines file).after calls = point ∧
      (start lines file).made calls = stream.tokens ++ (point.pending ++ lost) ∧
      (stream.failure = none → lost = [])) ∧
    (∀ tokens point, Run (start lines file) ⟨tokens, none⟩ point → point.next.1 = none →
      WellLaidOut tokens) ∧
    (∀ width position,
      (∃ tokens point,
        Run (start lines file) ⟨tokens, some ⟨.inconsistentDedent width, position⟩⟩ point) ↔
      ∃ tokens point line below, Run (start lines file) ⟨tokens, none⟩ point ∧
        point.Reaches line below ∧ point.Misfits line ∧
        width = indentWidth line ∧ position = ⟨line.number, point.file⟩) ∧
    (∀ stream point, Run (start lines file) stream point →
      (stream.failure ≠ none ∨ ∃ token ∈ stream.tokens, token.kind = .endMarker) →
      point.Silent) := by
  refine ⟨?blocks, fun stream point run => run.exists_calls, ?ended, ?misfits, ?silent⟩
  case blocks =>
    intro calls
    have counts := counts_after lines file calls
    have counted := countKind_of_blocksBehind counts.blocks
    have length : ((start lines file).after calls).widths.length - 1 =
        ((start lines file).after calls).indents.length := by
      simp [Scanner.widths]
    rw [Nat.zero_add] at counted
    exact ⟨widths_increase.2 counts.ordered, rfl, length ▸ counted.symm⟩
  case ended =>
    intro tokens point run last
    have terminated := run.terminated (Line.read_terminated lines)
    obtain ⟨ready, finished⟩ := ended_of_next_none terminated last
    have laidOut := run.keeps.wellLaidOut finished
    rwa [ready, List.append_nil] at laidOut
  case misfits =>
    intro width position
    constructor
    · rintro ⟨tokens, point, run⟩
      obtain ⟨before, left, earlier, ready, going, scan, -⟩ := run.of_fault
      obtain ⟨line, below, lines, logical, -⟩ := scanLine_error scan
      have reaches : before.Reaches line below := ⟨ready, going, lines, logical⟩
      have found := (scanLine_misfits earlier.ordered reaches width position).1 ⟨left, scan⟩
      exact ⟨tokens, before, line, below, earlier, reaches, found⟩
    · rintro ⟨tokens, point, line, below, run, reaches, found⟩
      obtain ⟨left, scan⟩ := (scanLine_misfits run.ordered reaches width position).2 found
      exact ⟨tokens, _, run.fault (next_of_scanLine_error reaches.ready reaches.going scan)⟩
  case silent =>
    rintro ⟨tokens, failure⟩ point run ends
    cases failure with
    | some fault => exact run.silent_of_fault
    | none =>
      obtain ⟨token, member, mark⟩ := ends.resolve_left (by simp)
      exact run.silent_of_endMarker member mark

/-- A line between the widths of two open blocks misfits, and the scan ends there. The block that it
closes is closed behind the fault, by a mark that is lost. -/
theorem layout_discipline_of_misfit :
    (((start ["if a:\n", "    b\n", "  c\n"] none).after 8).widths = [0] ∧
      countKind .indent ((start ["if a:\n", "    b\n", "  c\n"] none).made 8) = 1 ∧
      countKind .dedent ((start ["if a:\n", "    b\n", "  c\n"] none).made 8) = 1) ∧
    (∃ tokens point, Run (start ["if a:\n", "    b\n", "  c\n"] none)
      ⟨tokens, some ⟨.inconsistentDedent 2, ⟨3, "<unknown>"⟩⟩⟩ point ∧ point.Silent) ∧
    ∃ tokens point line below, Run (start ["if a:\n", "    b\n", "  c\n"] none)
      ⟨tokens, none⟩ point ∧ point.Reaches line below ∧ point.Misfits line ∧
      2 = indentWidth line ∧ (⟨3, "<unknown>"⟩ : Position) = ⟨line.number, point.file⟩ := by
  obtain ⟨blocks, -, -, misfits, silent⟩ :=
    layout_discipline ["if a:\n", "    b\n", "  c\n"] none
  have widths : ((start ["if a:\n", "    b\n", "  c\n"] none).after 8).widths = [0] := by
    decide +kernel
  have opened : countKind .indent ((start ["if a:\n", "    b\n", "  c\n"] none).made 8) = 1 := by
    decide +kernel
  obtain ⟨-, -, counted⟩ := blocks 8
  rw [widths, opened] at counted
  have whole := (run_complete ["if a:\n", "    b\n", "  c\n"] none).1
  have failed : (start ["if a:\n", "    b\n", "  c\n"] none).run.1.failure =
      some ⟨.inconsistentDedent 2, ⟨3, "<unknown>"⟩⟩ := by
    decide +kernel
  generalize (start ["if a:\n", "    b\n", "  c\n"] none).run = outcome at whole failed
  obtain ⟨⟨tokens, failure⟩, point⟩ := outcome
  obtain rfl : failure = _ := failed
  exact ⟨⟨widths, opened, counted.symm⟩, ⟨tokens, point, whole, silent _ _ whole (.inl (by simp))⟩,
    (misfits 2 ⟨3, "<unknown>"⟩).1 ⟨tokens, point, whole⟩⟩

end Scanner

end Offside
