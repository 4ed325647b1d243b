import Offside.Proofs.Grammar.PairStatements
import Offside.Proofs.Grammar.Whole

/-!
# The same words elsewhere

What is read from words in front of the end of their line is read from the same words on other
lines, in another file, and in front of another line end or of a mark with which expressions end as
well (`Parse.gives_of_pairs`).
-/
namespace Offside

namespace Parse

variable {α : Type} {state start behind : State} {out : α}

/-- In front of the same tokens a parser reads the same, in whatever file they are. -/
theorem Mirrors.elsewhere {parser : Parse α} (mirrors : parser.Mirrors Frame.whole false Eq parser)
    (standard : state.grammar = .standard) (healthy : state.failure = none)
    (read : parser state = .ok out behind) (kept : behind.decorators = state.decorators)
    (more : behind.ahead ≠ []) (ahead : start.ahead = state.ahead)
    (grammar : start.grammar = .standard) (failure : start.failure = none)
    (decorators : start.decorators = state.decorators) :
    ∃ line, parser start = .ok out { start with ahead := behind.ahead, line } := by
  have alike : List.Forall₂ (Token.Alike Frame.whole.move) state.ahead state.ahead :=
    List.forall₂_same.2 fun token _ => token.alike_move id
  have beside : Frame.whole.Beside state start :=
    ⟨⟨state.ahead, state.ahead, (List.append_nil _).symm,
      by rw [ahead]; exact (List.append_nil _).symm, alike⟩,
      by rw [grammar, standard], decorators, healthy, failure⟩
  have leaves : Frame.whole.Leaves false behind :=
    ⟨behind.ahead, (List.append_nil _).symm, fun empty => absurd empty more⟩
  obtain ⟨_, last, otherRead, rfl, after⟩ := (mirrors state standard).follows beside read leaves
  obtain ⟨passes, -⟩ := (mirrors state standard).passes read
  obtain ⟨otherPasses, -⟩ := (mirrors start grammar).passes otherRead
  have left : last.ahead = behind.ahead := by
    obtain ⟨front, back, here, there, tokens⟩ := after.front
    have here : behind.ahead = front := by rw [here]; exact List.append_nil front
    have there : last.ahead = back := by rw [there]; exact List.append_nil back
    have length : last.ahead.length = behind.ahead.length := by rw [here, there, tokens.length_eq]
    have within := otherPasses.suffix
    rw [ahead] at within
    exact (List.suffix_of_suffix_length_le within passes.suffix (Nat.le_of_eq length)).eq_of_length
      length
  have waiting : last.decorators = start.decorators := by rw [after.decorators, kept, decorators]
  refine ⟨last.line, ?_⟩
  rw [otherRead, ← left, ← otherPasses.failure, ← otherPasses.file, ← otherPasses.grammar,
    ← waiting]

variable {words after : List Token} {stop : Token} {mark : String}

/-- In front of a line end or of the mark a parser reads the same words as in front of the end of
their line, if it goes in step up to a seam and paired values are the same. -/
theorem gives_of_pairs {parser other : Parse α} {phrase : α → Phrase}
    {related : Pairing → α → α → Prop} (known : mark = ")" ∨ mark = ";")
    (pairs : ∀ pairing : Pairing, pairing.rename = .none → pairing.mark = mark →
      pairing.tail ≠ [] → parser.Pairs pairing words.length (related pairing) other)
    (mirrors : other.Mirrors Frame.whole false Eq other) (makes : other.Makes [] phrase)
    (same : ∀ pairing value start last, pairing.rename = .none → start.grammar = .standard →
      start.decorators = [] → other start = .ok value last → related pairing out value →
      value = out)
    (standard : state.grammar = .standard) (healthy : state.failure = none)
    (undecorated : state.decorators = []) (read : parser state = .ok out behind)
    (ahead : state.ahead = words ++ behind.ahead) (ends : behind.current.kind = .newline)
    (stops : stop.kind = .newline ∨ stop.kind = .operator ∧ stop.value = mark) :
    other.GivesUndecorated (words.map Token.bare ++ stop :: after) out (stop :: after) := by
  intro start otherStandard otherHealthy otherUndecorated given
  obtain ⟨front, back, otherAhead, frontSame, backSame⟩ := List.map_eq_append_iff.1 given
  obtain ⟨closing, later, rfl, closes, -⟩ := List.map_eq_cons_iff.1 backSame
  obtain ⟨lineEnd, rest, left⟩ : ∃ lineEnd rest, behind.ahead = lineEnd :: rest := by
    cases left : behind.ahead with
    | nil =>
      rw [State.current, left] at ends
      contradiction
    | cons lineEnd rest => exact ⟨lineEnd, rest, rfl⟩
  have breaks : lineEnd.kind = .newline := by
    rw [State.current, left] at ends
    exact ends
  have stands : closing.kind = .newline ∧ 0 = 0 ∨
      closing.kind = .operator ∧ closing.value = mark := by
    rw [← closes] at stops
    exact stops.imp_left fun newline => ⟨newline, rfl⟩
  let pairing : Pairing := ⟨.none, fun _ => 0, fun _ => 0, behind.ahead, closing :: later, mark,
    .inr ⟨lineEnd, rest, closing, later, left, rfl, breaks, stands⟩, known⟩
  have tokens : List.Forall₂ pairing.Tokens words front := by
    have same : List.Forall₂ (fun token found => found.bare = token.bare) words front := by
      have all : List.Forall₂ Eq (front.map Token.bare) (words.map Token.bare) := by
        rw [List.forall₂_eq_eq_eq, frontSame]
      rw [List.forall₂_map_left_iff, List.forall₂_map_right_iff] at all
      exact all.flip
    refine same.imp fun token found here => ?_
    have kind : found.bare.kind = token.bare.kind := by rw [here]
    have value : found.bare.value = token.bare.value := by rw [here]
    exact ⟨kind, fun _ => value, fun _ => value, .inl rfl, rfl⟩
  have beside : pairing.Beside words.length state { start with file := state.file } :=
    ⟨⟨words, front, ahead, otherAhead, tokens, Nat.le_refl _⟩, standard, otherStandard, rfl,
      by rw [undecorated]; exact otherUndecorated, by rw [healthy, otherHealthy]; exact .none, rfl⟩
  have more : pairing.tail ≠ [] := by
    show behind.ahead ≠ []
    rw [left]
    exact List.cons_ne_nil _ _
  obtain ⟨value, last, less, otherRead, fits, -, onward⟩ :=
    (pairs pairing rfl rfl more _ (Nat.le_refl _) state _ beside).follows read
  have place : last.ahead = closing :: later := by
    obtain ⟨none_, others, here, there, paired, -⟩ := onward.front
    obtain rfl : none_ = [] := by
      have here : [] ++ behind.ahead = none_ ++ behind.ahead := here
      exact (List.append_cancel_right here).symm
    cases paired
    exact there
  have moved : State.grammar { start with file := state.file } = .standard := otherStandard
  obtain rfl := same pairing value _ last rfl moved otherUndecorated otherRead fits
  obtain ⟨-, kept⟩ := makes _ value last moved otherUndecorated otherRead
  obtain ⟨line, elsewhere⟩ : ∃ line, other start =
      .ok value { start with ahead := last.ahead, line } :=
    mirrors.elsewhere moved otherHealthy otherRead (kept.trans otherUndecorated.symm)
      (by rw [place]; exact List.cons_ne_nil _ _) rfl otherStandard otherHealthy rfl
  rw [place] at elsewhere
  exact ⟨line, closing :: later, backSame, by simp, elsewhere⟩

end Parse

end Offside
