import Offside.Proofs.Grammar.Phrase

/-!
# Phrases that take a token

Some phrases may cover no token: loops that go on with what has been found, and parts that may be
missing. All others have a part that is a token or such a phrase in each production
(`Production.isFilled`), so what is covered by them is never empty (`Derives.filled`).
-/
namespace Offside

/-- The phrase covers a token in each text of it. -/
def Phrase.isFilled : Phrase → Bool
  | .optionalOperand _ out => out.isSome
  | .optional _ out | .optionalTarget _ _ out => out.isSome
  | .operand .. | .start _ | .join .. | .expr .. | .target .. | .forIn .. | .clause _
  | .elements .. | .braces _ | .pair .. | .pairs .. | .members .. | .comparison _ | .dimension _
  | .dimensions .. | .argument .. | .parameter .. | .nextParameter .. | .dottedName _
  | .modules .. | .importedNames .. | .importedList _ | .small _ | .line _ | .block .. | .suite _
  | .colonSuite _ | .functionDef .. | .forLoop .. | .withItem _ | .withItems .. | .withBlock ..
  | .condition .. | .handler _ | .compound .. | .statement _ => true
  | _ => false

/-- The symbol covers a token. -/
def Symbol.isFilled : Symbol → Bool
  | .terminal _ => true
  | .phrase inner => inner.isFilled
  | .dropped _ => false

/-- What covers a token has a part that does. -/
theorem Production.isFilled {phrase : Phrase} {body : List Symbol}
    (production : Production phrase body) (filled : phrase.isFilled = true) :
    body.any Symbol.isFilled = true := by
  cases production with
  | expr production =>
    cases production
    -- The colon is a token, whether or not the bounds are there.
    case range | steppedRange => simp [Symbol.isFilled]
    all_goals first | rfl | contradiction
  | stmt production => cases production <;> first | rfl | contradiction

/-- Symbols that cover tokens take them from the front, and one of them at least if one of the
symbols covers a token. -/
theorem Derives.filled {symbols : List Symbol} {dropped : List Expr} {ahead behind : List Token}
    (derives : Derives symbols dropped ahead behind) :
    behind <:+ ahead ∧
      (symbols.any Symbol.isFilled = true → behind.length < ahead.length) := by
  induction derives with
  | nil => exact ⟨List.suffix_refl _, fun none_ => by contradiction⟩
  | @terminal _ _ _ token ahead behind admits rest ih =>
    have fewer := ih.1.length_le
    exact ⟨ih.1.trans (List.suffix_cons _ _), fun _ => Nat.lt_succ_of_le fewer⟩
  | @phrase inner body symbols _ _ ahead between behind production inside rest ihBody ihRest =>
    refine ⟨ihRest.1.trans ihBody.1, fun filled => ?_⟩
    rw [List.any_cons, Bool.or_eq_true] at filled
    rcases filled with here | later
    · exact Nat.lt_of_le_of_lt ihRest.1.length_le (ihBody.2 (production.isFilled here))
    · exact Nat.lt_of_lt_of_le (ihRest.2 later) ihBody.1.length_le
  | dropped rest ih => exact ih

end Offside
