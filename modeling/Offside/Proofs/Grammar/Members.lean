import Offside.Proofs.Expression.RoundTrip
import Offside.Proofs.Grammar.Provenance

/-!
# Reserved words in a tree

The words of a parsed tree that name something are not reserved. Members are the one exception:
only the kind of the token behind a point is looked at, so a member may be any name, and a reserved
word behind a point is parsed as one.
-/
namespace Offside

/-- A member of a core expression starts as it does, whatever the word behind the point is. -/
theorem Expr.IsCore.led_attribute {value : Expr} (core : value.IsCore) (field : String) :
    (Expr.attribute value field .load).Led :=
  core.led.of_wrapped 159 (by rw [Expr.write]) (.inl (by decide))

/-- No identifier of a tree is reserved just if no member is, and each member is a name that is
written behind a point. There every word is one: a core expression with a point and any word behind
it, reserved or not, is parsed as that member of the expression. -/
theorem parse_reserves_words {source : String} {file : Option String} {mode : Mode} {root : Root}
    (parsed : parse source file mode = .ok root) :
    ((∀ part ∈ root.walk everyPart, ∀ id ∈ part.identifiers, isReserved id = false) ↔
      ∀ part ∈ root.walk everyPart, ∀ id ∈ part.member?, isReserved id = false) ∧
    (∀ part ∈ root.walk everyPart, ∀ id ∈ part.member?,
      MemberWritten ((Stream.ofSource source file).tokens.filter Token.isSignificant) id) ∧
    ∀ (value : Expr) (field : String) (tokens ending : List Token), value.IsCore →
      tokens.map Token.bare = (Expr.attribute value field .load).write → IsEnding ending →
      parseTokens (tokens ++ ending) file .eval =
        .ok (.expression (.attribute value field .load)) := by
  have traced := parse_traced parsed
  refine ⟨?_, fun part member => (traced part member).member, ?_⟩
  · constructor
    · intro free part member id asked
      have identifier : id ∈ part.identifiers :=
        List.mem_append_right _ (Option.mem_toList.2 asked)
      exact free part member id identifier
    · intro free part member id identifier
      rcases List.mem_append.1 identifier with word | asked
      · exact (traced part member).words id word
      · exact free part member id (Option.mem_toList.1 asked)
  · intro value field tokens ending core written ends
    have reads : (Expr.attribute value field .load).Reads :=
      Expr.reads_attribute core.reads core.led
    have significant := Expr.significant_attribute field core.significant
    exact parseTokens_of_reads reads (core.led_attribute field) significant written ends file

/-- The word if as a member of a name. -/
theorem parse_reserves_words_of_if :
    ∃ root, parse "a.if" none .eval = .ok root ∧
      ((∀ part ∈ root.walk everyPart, ∀ id ∈ part.identifiers, isReserved id = false) ↔
        ∀ part ∈ root.walk everyPart, ∀ id ∈ part.member?, isReserved id = false) ∧
      (∀ part ∈ root.walk everyPart, ∀ id ∈ part.member?,
        MemberWritten ((Stream.ofSource "a.if" none).tokens.filter Token.isSignificant) id) ∧
      parseTokens ([.word "a", .mark ".", .word "if"] ++ [.endMarker 1]) none .eval =
        .ok (.expression (.attribute (.name "a" .load) "if" .load)) := by
  have accepted : (parse "a.if" none .eval).toBool = true := by decide +kernel
  cases parsed : parse "a.if" none .eval with
  | error fault =>
    rw [parsed] at accepted
    contradiction
  | ok root =>
    have core : (Expr.name "a" .load).IsCore := .name (by decide)
    have ends : IsEnding [.endMarker 1] := .last rfl
    obtain ⟨free, written, read⟩ := parse_reserves_words parsed
    exact ⟨root, rfl, free, written, read _ _ _ _ core rfl ends⟩

end Offside
