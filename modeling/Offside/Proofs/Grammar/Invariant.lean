import Offside.Proofs.Grammar.Derivation

/-!
# Invariants of derivations

What each production passes from its parts to its phrase holds of all phrases that cover tokens
(`Derives.invariant`). Every text that is parsed, in whatever mode, is derived from the tokens of
its scan (`parse_covers`), so such a fact holds of every tree that a parser gives.
-/
namespace Offside

/-- A fact about symbols that holds of the terminals of tokens, and that each production passes
from its parts to its phrase, holds of all symbols that cover tokens. A production may use where
it stands among the tokens. -/
theorem Derives.invariant_of_admits {whole : List Token} (holds : Symbol → Prop)
    (terminals : ∀ terminal token, token ∈ whole → Terminal.Admits token terminal →
      holds (.terminal terminal))
    (drops : ∀ elements, holds (.dropped elements))
    (phrases : ∀ phrase body dropped ahead behind, Production phrase body → ahead <:+ whole →
      Derives body dropped ahead behind → (∀ symbol ∈ body, holds symbol) →
      holds (.phrase phrase))
    {symbols : List Symbol} {dropped : List Expr} {ahead behind : List Token}
    (within : ahead <:+ whole) (derives : Derives symbols dropped ahead behind) :
    ∀ symbol ∈ symbols, holds symbol := by
  induction derives with
  | nil => exact fun _ member => absurd member List.not_mem_nil
  | terminal admits _ ih =>
    have here := terminals _ _ (within.subset List.mem_cons_self) admits
    exact List.forall_mem_cons.2 ⟨here, ih ((List.suffix_cons _ _).trans within)⟩
  | phrase production inside _ ihInside ihRest =>
    have parts := ihInside within
    have here := phrases _ _ _ _ _ production within inside parts
    exact List.forall_mem_cons.2 ⟨here, ihRest (inside.suffix.trans within)⟩
  | dropped _ ih => exact List.forall_mem_cons.2 ⟨drops _, ih within⟩

/-- A fact about symbols that each production passes from its parts to its phrase holds of all
symbols that cover tokens, if it holds of all terminals. -/
theorem Derives.invariant {whole : List Token} (holds : Symbol → Prop)
    (terminals : ∀ terminal, holds (.terminal terminal))
    (drops : ∀ elements, holds (.dropped elements))
    (phrases : ∀ phrase body dropped ahead behind, Production phrase body → ahead <:+ whole →
      Derives body dropped ahead behind → (∀ symbol ∈ body, holds symbol) →
      holds (.phrase phrase))
    {symbols : List Symbol} {dropped : List Expr} {ahead behind : List Token}
    (within : ahead <:+ whole) (derives : Derives symbols dropped ahead behind) :
    ∀ symbol ∈ symbols, holds symbol :=
  derives.invariant_of_admits holds (fun terminal _ _ _ => terminals terminal) drops phrases within

/-- All of a text follows the grammar, in whatever mode it is read. -/
theorem parseRoot_covers {mode : Mode} {state behind : State} {root : Root}
    (standard : state.grammar = .standard) (waits : state.decorators = [])
    (read : parseRoot mode state = .ok root behind) :
    ∃ between, Covers [.phrase (.root root)] state.ahead between := by
  by_cases whole : mode = .single
  · subst whole
    obtain ⟨body, last, head, tail⟩ := Parse.bind_ok read
    obtain ⟨rfl, rfl⟩ := Parse.pure_ok tail
    have statement := Scope.statementLine_makes (Scope.sound_upTo state.bound) state body behind
      standard waits head
    exact ⟨_, (statement.1.phrase (.stmt .interactive)).covers⟩
  · obtain ⟨between, moves, -⟩ := parseRoot_moves whole standard waits read
    exact ⟨_, moves.covers⟩

/-- The tokens of a source text that is parsed derive its tree, as far as they are read. -/
theorem parse_covers {source : String} {file : Option String} {mode : Mode} {root : Root}
    (parsed : parse source file mode = .ok root) :
    ∃ between, Covers [.phrase (.root root)]
      ((Stream.ofSource source file).tokens.filter Token.isSignificant) between := by
  obtain ⟨state, behind, started, read⟩ := parseStream_ok parsed
  obtain ⟨ahead, -, standard, waits, -⟩ := State.start_ok started
  rw [← ahead]
  exact parseRoot_covers standard waits read

end Offside
