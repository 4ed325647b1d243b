import Offside.Proofs.Expression.Climbing
import Offside.Proofs.Grammar.Agreement

/-!
# Whole inputs

What is read from the tokens of an input without its comments and soft breaks is what the input is
parsed as (`parse_of_gives`).
-/
namespace Offside

open Parse

/-- A source text whose tokens are found is parsed as its tokens. -/
theorem parse_of_tokenize {source : String} {file : Option String} {mode : Mode}
    {tokens : List Token} (scanned : tokenize source file = .ok tokens) :
    parse source file mode = parseTokens tokens file mode := by
  rw [parse, Stream.toExcept_ok scanned, parseTokens]

/-- Tokens are parsed as what is read from those that the grammar looks at, before any decorators
wait. -/
theorem parseTokens_of_undecorated {mode : Mode} {file : Option String} {tokens rest : List Token}
    {root : Root}
    (read : (parseRoot mode).GivesUndecorated
      ((tokens.filter Token.isSignificant).map Token.bare) root rest) :
    parseTokens tokens file mode = .ok root := by
  have started : State.start (.ofTokens tokens) (file.getD unknownFile) =
      .ok ⟨tokens.filter Token.isSignificant, 1, none, file.getD unknownFile, .standard, []⟩ := by
    rw [State.start, Stream.ofTokens]
    cases tokens.filter Token.isSignificant <;> rfl
  obtain ⟨line, left, -, -, parsed⟩ := read
    ⟨tokens.filter Token.isSignificant, 1, none, file.getD unknownFile, .standard, []⟩ rfl rfl rfl
    rfl
  have root : (parseRoot mode).run
      ⟨tokens.filter Token.isSignificant, 1, none, file.getD unknownFile, .standard, []⟩ =
      .ok root ⟨left, line, none, file.getD unknownFile, .standard, []⟩ := parsed
  rw [parseTokens, parseStream, started]
  simp only [bind, Except.bind, root]
  rfl

/-- A source text is parsed as what is read from the tokens that the grammar looks at, before any
decorators wait. -/
theorem parse_of_undecorated {source : String} {file : Option String} {mode : Mode}
    {tokens rest : List Token} {root : Root} (scanned : tokenize source file = .ok tokens)
    (read : (parseRoot mode).GivesUndecorated
      ((tokens.filter Token.isSignificant).map Token.bare) root rest) :
    parse source file mode = .ok root := by
  rw [parse_of_tokenize scanned, parseTokens_of_undecorated read]

/-- A source text is parsed as what is read from the tokens that the grammar looks at. -/
theorem parse_of_gives {source : String} {file : Option String} {mode : Mode}
    {tokens rest : List Token} {root : Root} (scanned : tokenize source file = .ok tokens)
    (read : (parseRoot mode).Gives ((tokens.filter Token.isSignificant).map Token.bare) root rest) :
    parse source file mode = .ok root :=
  parse_of_undecorated scanned read.undecorated

/-- A parser of statements reads with a bound on the depth that is great enough. -/
theorem Parse.GivesUndecorated.run {α : Type} {parser : Scope → Parse α}
    {ahead rest : List Token} {value : α}
    (inside : ∀ depth, ahead.length < depth →
      (parser (.upTo depth)).GivesUndecorated ahead value rest) :
    (Scope.run parser).GivesUndecorated ahead value rest := by
  intro state standard healthy undecorated same
  have deep : ahead.length < state.bound := by
    rw [State.bound, ← same, List.length_map]
    omega
  exact inside state.bound deep state standard healthy undecorated same

end Offside
