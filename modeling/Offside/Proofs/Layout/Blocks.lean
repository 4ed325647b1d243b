import Offside.Proofs.Layout.Discipline

/-!
# Blocks are filled

A mark that opens a block is directly followed by a token of the line that opens it, among the
tokens that the grammar looks at (`BlocksFilled`). A line that is indented has such a token, as it
ends outside brackets with a mark of its own. So no block closes where it opens, in the tokens of
any scan, whether it ends with a fault or without one (`Stream.ofSource_filled`).
-/
namespace Offside

open Text

/-- Where a block opens, a token of a logical line follows. -/
def BlocksFilled : List Token → Prop
  | [] => True
  | token :: rest =>
    (token.kind = .indent → ∃ inner ∈ rest.head?, inner.IsInner) ∧ BlocksFilled rest

/-- Blocks that are filled in two parts are so in the whole. -/
theorem BlocksFilled.append {front back : List Token} (head : BlocksFilled front)
    (tail : BlocksFilled back) : BlocksFilled (front ++ back) := by
  induction front with
  | nil => exact tail
  | cons token rest ih =>
    refine ⟨fun opens => ?_, ih head.2⟩
    obtain ⟨inner, follows, kind⟩ := head.1 opens
    exact ⟨inner, by simp [Option.mem_def.1 follows], kind⟩

/-- Blocks are filled in the tokens that are left. -/
theorem BlocksFilled.suffix {tokens back : List Token} (filled : BlocksFilled tokens)
    (within : back <:+ tokens) : BlocksFilled back := by
  obtain ⟨front, rfl⟩ := within
  induction front with
  | nil => exact filled
  | cons token rest ih => exact ih filled.2

/-- No block is empty where none opens. -/
theorem BlocksFilled.of_unopened {tokens : List Token}
    (unopened : ∀ token ∈ tokens, token.kind ≠ .indent) : BlocksFilled tokens := by
  induction tokens with
  | nil => trivial
  | cons token rest ih =>
    obtain ⟨here, later⟩ := List.forall_mem_cons.1 unopened
    exact ⟨fun opens => absurd opens here, ih later⟩

/-- A line that starts outside brackets has a token that the grammar looks at. -/
theorem Cursor.Scans.significant {cursor : Cursor} {depth : Nat} {scanned : Scanned}
    (scans : cursor.Scans depth scanned) (terminated : ∀ line ∈ cursor.lines, line.Terminated)
    (inside : cursor.Inside) (flat : depth = 0) :
    scanned.tokens.filter Token.isSignificant ≠ [] := by
  induction scans with
  | @token cursor next depth deeper found scanned step later ih =>
    by_cases significant : found.isSignificant = true
    · simp [significant]
    · -- A comment opens no bracket, so the line goes on outside brackets.
      have behind := Cursor.step_inside terminated inside (by rw [step]; rfl)
      have outside : deeper = 0 := by
        rw [← (Cursor.step_token step).2.2, Token.depthBehind, if_neg, flat]
        intro operator
        simp [Token.isSignificant, operator] at significant
      rw [List.filter_cons_of_neg significant]
      exact ih (fun line member => terminated line (behind.2.subset member)) behind.1 outside
  | @skip cursor next depth scanned step later ih =>
    have behind := Cursor.step_inside terminated inside (by rw [step]; rfl)
    exact ih (fun line member => terminated line (behind.2.subset member)) behind.1 flat
  | last step =>
    obtain ⟨tail, -, rfl⟩ := Cursor.step_last step inside.nonempty
    simp [flat, Token.isSignificant, Cursor.token]

namespace Scanner

/-- The marks at the start of a line close blocks, or they are one mark that opens a block,
outside brackets. -/
theorem track_marks {scanner : Scanner} {line : Line} {below : List Line} {marks : List Token}
    {indents : List Nat} (tracked : scanner.track line below = .ok (marks, indents)) :
    (∀ token ∈ marks, token.kind = .dedent) ∨
      scanner.depth = 0 ∧ ∃ opening, marks = [opening] ∧ opening.kind = .indent := by
  rcases track_ok_iff.1 tracked with ⟨flat, tracks⟩ | ⟨-, rfl, -⟩
  · cases tracks with
    | opens => exact .inr ⟨flat, _, rfl, rfl⟩
    | closes =>
      refine .inl fun token member => ?_
      obtain ⟨-, -, rfl⟩ := List.mem_map.1 member
      rfl
  · exact .inl (by simp)

/-- The scan of a line fills the blocks that it opens. -/
theorem scanLine_filled {before behind : Scanner}
    (terminated : ∀ line ∈ before.below, line.Terminated) (scan : before.scanLine = .ok behind) :
    BlocksFilled (behind.pending.filter Token.isSignificant) := by
  have unopened {tokens : List Token} (kinds : ∀ token ∈ tokens, token.kind ≠ .indent) :
      BlocksFilled (tokens.filter Token.isSignificant) :=
    .of_unopened fun token member => kinds token (List.mem_filter.1 member).1
  rcases scanLine_ok scan with ⟨-, rfl⟩ | ⟨line, below, lines, idles | logical⟩
  · apply unopened
    intro token member
    rcases List.mem_append.1 member with member | member
    · obtain ⟨-, -, rfl⟩ := List.mem_map.1 member
      simp
    · obtain rfl := List.mem_singleton.1 member
      simp [Token.endMarker]
  · obtain ⟨tokens, found, rfl⟩ := idles
    apply unopened
    intro token member
    rcases idleTokens_kind found token member with kind | kind <;> simp [kind]
  · obtain ⟨-, marks, indents, found, tracked, scans, rfl⟩ := logical
    have inner := scans.brackets.1
    have filled : BlocksFilled (found.tokens.filter Token.isSignificant) :=
      unopened fun token member => (inner token member).1
    rw [List.filter_append]
    rcases track_marks tracked with closing | ⟨flat, opening, rfl, opens⟩
    · exact (unopened fun token member => by simp [closing token member]).append filled
    · rw [lines] at terminated
      have nonempty := scans.significant terminated
        (behindIndent_inside (terminated line List.mem_cons_self)) flat
      obtain ⟨first, rest, front⟩ := List.exists_cons_of_ne_nil nonempty
      have member : first ∈ found.tokens.filter Token.isSignificant := by simp [front]
      have significant : opening.isSignificant = true := by simp [Token.isSignificant, opens]
      rw [List.filter_singleton, significant, front]
      exact ⟨fun _ => ⟨first, by simp, inner first (List.mem_filter.1 member).1⟩, front ▸ filled⟩

/-- At every point of a run the blocks are filled. -/
theorem Run.filled {lines : List String} {file : Option String} {tokens : List Token}
    {point : Scanner} (run : Run (Scanner.start lines file) ⟨tokens, none⟩ point) :
    BlocksFilled ((tokens ++ point.pending).filter Token.isSignificant) := by
  have initially : ∀ line ∈ (Scanner.start lines file).idle.below, line.Terminated :=
    Line.read_terminated lines
  refine (run.invariant (fun made scanner =>
    (∀ line ∈ scanner.below, line.Terminated) ∧ BlocksFilled (made.filter Token.isSignificant))
    ⟨initially, trivial⟩ ?_).2
  rintro made before behind - - ⟨terminated, filled⟩ scan
  have below := (scanLine_progress terminated scan).2.1
  refine ⟨fun line member => terminated line (below.subset member), ?_⟩
  rw [List.filter_append]
  exact filled.append (scanLine_filled terminated scan)

end Scanner

/-- In the tokens of a source text that the grammar looks at, blocks are filled. -/
theorem Stream.ofSource_filled (source : String) (file : Option String) :
    BlocksFilled ((Stream.ofSource source file).tokens.filter Token.isSignificant) := by
  obtain ⟨point, run, ready⟩ := Scanner.run_tokens (physicalLines source) file
  have filled := run.filled
  rwa [ready, List.append_nil] at filled

end Offside
