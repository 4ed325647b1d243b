import Offside.Proofs.Expression.Climbing
import Offside.Proofs.Grammar.Invariant

/-!
# The power of targets

At the power of targets nothing but members, subscripts and calls is read on behind the start of an
operand. So what is read there takes in an operator between operands only in parentheses
(`Derives.joined_of_target`).
-/
namespace Offside

/-- An operator between operands joins the expression. -/
def Expr.isJoined : Expr → Bool
  | .boolOp .. | .binOp .. | .ifExp .. | .compare .. => true
  | .unaryOp .. | .lambda .. | .dict .. | .set _ | .listComp .. | .setComp .. | .dictComp ..
  | .generator .. | .await _ | .yield _ | .yieldFrom _ | .call .. | .num _ | .str _ | .bytes _
  | .constant _ | .ellipsis | .attribute .. | .subscript .. | .starred .. | .name .. | .list ..
  | .tuple .. => false

/-- Above the power of targets no operator joins what is read on behind an operand. Neither does
one join a display. -/
@[simp] def Symbol.KeepsTight : Symbol → Prop
  | .phrase (.climb power left out) =>
    Power.target ≤ power → out.expr.isJoined = true → out = left
  | .phrase (.join power _ out) => Power.target < power → out.expr.isJoined = false
  | .phrase (.elements _ out) | .phrase (.braces out) | .phrase (.pairs _ _ out)
  | .phrase (.members _ out) => out.expr.isJoined = false
  | _ => True

/-- No production joins operands above the power of targets. -/
theorem Production.keepsTight {phrase : Phrase} {body : List Symbol}
    (production : Production phrase body) (parts : body.Forall Symbol.KeepsTight) :
    (Symbol.phrase phrase).KeepsTight := by
  cases production with
  | stmt production =>
    cases production
    all_goals trivial
  | expr production =>
    cases production
    case climbed => exact fun _ _ => rfl
    case climb power found left next out tighter =>
      simp at parts
      intro tight joined
      have same : out = next := parts.2 tight joined
      have single : next.expr.isJoined = false := parts.1 (Nat.lt_of_le_of_lt tight tighter)
      rw [same, single] at joined
      contradiction
    case boolean operator _ _ | booleanChain operator _ _ | binary operator _ _ _ =>
      have loose : operator.power ≤ Power.target := by cases operator <;> decide
      exact fun tight => absurd tight (Nat.not_lt.2 loose)
    case conditional | compare | compareChain | power =>
      exact fun tight => absurd tight (by decide)
    case elements | firstPair | firstMember | pairs | members => simpa using parts
    -- The other productions join no operands.
    all_goals first | trivial | exact fun _ => rfl

/-- All that covers tokens joins operands only up to the power of targets. -/
theorem Derives.keepsTight {symbols : List Symbol} {dropped : List Expr} {ahead behind : List Token}
    (derives : Derives symbols dropped ahead behind) : ∀ symbol ∈ symbols, symbol.KeepsTight :=
  derives.invariant Symbol.KeepsTight (fun _ => trivial) (fun _ => trivial)
    (fun _ _ _ _ _ production _ _ parts =>
      production.keepsTight (List.forall_iff_forall_mem.2 parts)) (List.suffix_refl _)

/-- An operand that an operator joins starts with a parenthesis around it. -/
theorem Derives.joined_of_start {out : Parsed} {dropped : List Expr} {ahead behind : List Token}
    (derives : Derives [.phrase (.start out)] dropped ahead behind)
    (joined : out.expr.isJoined = true) : (Token.front ahead).isText "(" = true := by
  cases derives with
  | phrase production inside rest =>
    have parts := inside.keepsTight
    cases production with
    | stmt production => cases production
    | expr production =>
      cases production
      case grouped =>
        obtain ⟨token, later, rfl, bracket, -⟩ := inside.of_terminal
        exact bracket
      case string value => cases value <;> contradiction
      case list | brace =>
        simp at parts
        rw [parts] at joined
        contradiction
      all_goals contradiction

/-- An operand at the power of targets takes in operators between operands only in
parentheses. -/
theorem Derives.joined_of_operand {out : Parsed} {dropped : List Expr} {ahead behind : List Token}
    (derives : Derives [.operand Power.target out] dropped ahead behind)
    (joined : out.expr.isJoined = true) : (Token.front ahead).isText "(" = true := by
  cases derives with
  | phrase production inside _ =>
    cases production with
    | stmt production => cases production
    | expr production =>
      cases production with
      | @operand _ first =>
        have climb := inside.keepsTight _ (List.mem_cons_of_mem _ List.mem_cons_self)
        obtain rfl : out = first := climb (Nat.le_refl _) joined
        cases inside with
        | phrase production inside rest =>
          exact Derives.joined_of_start (.phrase production inside .nil) joined

/-- An expression at the power of targets takes in operators between operands only in
parentheses. -/
theorem Derives.joined_of_target {value : Expr} {dropped : List Expr} {ahead behind : List Token}
    (derives : Derives [.expr Power.target value] dropped ahead behind)
    (joined : value.isJoined = true) : (Token.front ahead).isText "(" = true := by
  -- An expression is an operand that may be missing and is not.
  obtain ⟨_, _, ⟨⟨⟩⟩ | ⟨⟨⟩⟩, present⟩ := derives.of_phrase
  obtain ⟨_, _, ⟨⟨⟩⟩ | ⟨⟨⟩⟩, optional⟩ := present.of_phrase
  obtain ⟨_, _, ⟨⟨⟩⟩ | ⟨⟨⟩⟩, operand⟩ := optional.of_phrase
  exact operand.joined_of_operand joined

end Offside
