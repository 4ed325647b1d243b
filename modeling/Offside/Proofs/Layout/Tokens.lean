import Offside.Proofs.Layout.Blocks
import Offside.Proofs.Layout.Lossless

/-!
# All tokens of a text

Tokens are found by the steps of a scan, inside lines that are terminated. The others are marks of
the layout, and comments on lines without statements. So what holds of the tokens that steps find,
of comments and of marks (`HoldsOfSteps`) holds of all tokens of a text, up to a fault if there is
one (`HoldsOfSteps.ofSource`).
-/
namespace Offside

open Text

/-- A kind of token that is no lexeme of a statement: a mark of the layout or a comment. -/
def Kind.isAside (kind : Kind) : Bool :=
  !kind.isLexeme || kind = .comment

/-- A lexeme of a statement is no mark and no comment. -/
theorem Kind.of_isAside {kind : Kind} (lexeme : kind.isAside = false) :
    (kind ≠ .indent ∧ kind ≠ .dedent) ∧ kind ≠ .newline ∧ kind ≠ .comment := by
  cases kind <;> first | contradiction | simp

/-- A lexeme of a statement is significant. -/
theorem Token.isSignificant_of_lexeme {token : Token} (lexeme : token.kind.isAside = false) :
    token.isSignificant = true := by
  rw [Token.isSignificant]
  cases kind : token.kind <;> rw [kind] at lexeme <;> first | rfl | contradiction

/-- Comments and soft breaks are what the grammar does not look at. -/
theorem Token.not_isSignificant_iff {token : Token} :
    token.isSignificant = false ↔ token.kind = .comment ∨ token.kind = .softBreak := by
  rw [Token.isSignificant, Bool.and_eq_false_iff, bne_eq_false_iff_eq, bne_eq_false_iff_eq]

/-- A significant token is no comment. -/
theorem Token.kind_ne_comment {token : Token} (significant : token.isSignificant = true) :
    token.kind ≠ .comment := by
  intro kind
  rw [Token.not_isSignificant_iff.2 (.inl kind)] at significant
  contradiction

/-- A property of tokens that holds of what each step finds, and of what is no lexeme of a
statement. -/
structure HoldsOfSteps (holds : Token → Prop) : Prop where
  /-- It holds of each token that a step finds in terminated lines. -/
  found : ∀ {cursor next : Cursor} {depth deeper : Nat} {token : Token},
    (∀ line ∈ cursor.lines, line.Terminated) → cursor.Inside →
      cursor.step depth = .token token next deeper → holds token
  /-- It holds of the marks of the layout and of comments. -/
  layout : ∀ {token : Token}, token.kind.isAside = true → holds token

namespace HoldsOfSteps

variable {holds : Token → Prop}

/-- The property holds of the tokens of a line. -/
theorem scans (kept : HoldsOfSteps holds) {cursor : Cursor} {depth : Nat} {scanned : Scanned}
    (scans : cursor.Scans depth scanned) (terminated : ∀ line ∈ cursor.lines, line.Terminated)
    (inside : cursor.Inside) : ∀ token ∈ scanned.tokens, holds token := by
  induction scans with
  | @token cursor next depth deeper token scanned step later ih =>
    have behind := Cursor.step_inside terminated inside (by rw [step]; rfl)
    have rest := ih (fun line member => terminated line (behind.2.subset member)) behind.1
    exact List.forall_mem_cons.2 ⟨kept.found terminated inside step, rest⟩
  | @skip cursor next depth scanned step later ih =>
    have behind := Cursor.step_inside terminated inside (by rw [step]; rfl)
    exact ih (fun line member => terminated line (behind.2.subset member)) behind.1
  | @last cursor depth token step =>
    obtain ⟨tail, -, rfl⟩ := Cursor.step_last step inside.nonempty
    intro token member
    obtain rfl := List.mem_singleton.1 member
    apply kept.layout
    by_cases flat : depth = 0 <;> simp [Cursor.token, Kind.isAside, Kind.isLexeme, flat]

/-- The property holds of the tokens that the scan of a line makes ready. -/
theorem scanLine (kept : HoldsOfSteps holds) {before behind : Scanner}
    (terminated : ∀ line ∈ before.below, line.Terminated) (scan : before.scanLine = .ok behind) :
    ∀ token ∈ behind.pending, holds token := by
  intro token member
  rcases Scanner.scanLine_ok scan with ⟨-, rfl⟩ | ⟨line, below, lines, idles | logical⟩
  · apply kept.layout
    rcases List.mem_append.1 member with member | member
    · obtain ⟨-, -, rfl⟩ := List.mem_map.1 member
      rfl
    · obtain rfl := List.mem_singleton.1 member
      rfl
  · obtain ⟨tokens, idle, rfl⟩ := idles
    apply kept.layout
    rcases Scanner.idleTokens_kind idle token member with kind | kind <;>
      simp [kind, Kind.isAside, Kind.isLexeme]
  · obtain ⟨-, marks, indents, scanned, tracked, scans, rfl⟩ := logical
    rcases List.mem_append.1 member with member | member
    · apply kept.layout
      rcases Scanner.track_marks tracked with closing | ⟨-, opening, rfl, opens⟩
      · simp [closing token member, Kind.isAside, Kind.isLexeme]
      · obtain rfl := List.mem_singleton.1 member
        simp [opens, Kind.isAside, Kind.isLexeme]
    · rw [lines] at terminated
      have inside : (Scanner.behindIndent line below).Inside :=
        Scanner.behindIndent_inside (terminated line List.mem_cons_self)
      exact kept.scans scans terminated inside token member

/-- The property holds of all tokens at every point of a run. -/
theorem run (kept : HoldsOfSteps holds) {lines : List String} {file : Option String}
    {tokens : List Token} {point : Scanner}
    (run : Scanner.Run (Scanner.start lines file) ⟨tokens, none⟩ point) :
    ∀ token ∈ tokens ++ point.pending, holds token := by
  have initially : ∀ line ∈ (Scanner.start lines file).idle.below, line.Terminated :=
    Line.read_terminated lines
  refine (run.invariant (fun made scanner =>
    (∀ line ∈ scanner.below, line.Terminated) ∧ ∀ token ∈ made, holds token)
    ⟨initially, fun token member => absurd member List.not_mem_nil⟩ ?_).2
  intro made before behind _ _ whole scan
  obtain ⟨terminated, earlier⟩ := whole
  have below := (Scanner.scanLine_progress terminated scan).2.1
  refine ⟨fun line member => terminated line (below.subset member), ?_⟩
  exact List.forall_mem_append.2 ⟨earlier, kept.scanLine terminated scan⟩

/-- The property holds of all tokens of a source text, up to a fault if there is one. -/
theorem ofSource (kept : HoldsOfSteps holds) (source : String) (file : Option String) :
    ∀ token ∈ (Stream.ofSource source file).tokens, holds token := by
  obtain ⟨point, run, ready⟩ := Scanner.run_tokens (physicalLines source) file
  have all := kept.run run
  rwa [ready, List.append_nil] at all

end HoldsOfSteps

end Offside
