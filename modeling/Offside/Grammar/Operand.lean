import Offside.Grammar.Infix

/-!
# Operands

An operand is read by the rule of its first token. Then, as long as the token in front binds more
tightly than the power that is asked for, the rule of that token reads on. `operandAt` reads
operands that are nested to a bounded depth; each level of nesting takes a token, so the depth
that `Inner.run` allows is enough for all tokens that are left.
-/
namespace Offside

open Parse

/-- The rule for the operand that starts with the token in front. A token without one must be a
name. -/
def prefixRule : Parse PrefixRule :=
  return ((← behavior?).bind Behavior.prefixRule).getD .name

/-- The rule for going on with the token in front behind an operand, and the power of the token,
if it binds more tightly than the given power. -/
def infixRule? (power : Power) : Parse (Option (InfixRule × Power)) := do
  match ← behavior? with
  | some behavior =>
    if behavior.power ≤ power then return none
    return behavior.infixRule.map (·, behavior.power)
  | none => return none

/-- An operand with what is read on behind it. -/
def operandWith (inner : Inner) (turns : Nat) (power : Power) : Parse Parsed := do
  let first ← (← prefixRule).parse inner
  loop (fun left => do
    match ← infixRule? power with
    | some (rule, found) => return .again (← rule.parse inner left found)
    | none => return .done left) turns first

/-- An operand that is nested at most as deep as the first argument says. -/
def operandAt : Nat → Power → Parse Parsed
  | 0, _ => failExpression
  | depth + 1, power => operandWith ⟨depth, operandAt depth⟩ (depth + 1) power

/-- What reads operands of any depth up to a bound. -/
def Inner.upTo (bound : Nat) : Inner := ⟨bound, operandAt bound⟩

/-- Run a parser with what reads the operands in front. -/
def Inner.run {α : Type} (parser : Inner → Parse α) : Parse α := do
  parser (.upTo (← get).bound)

end Offside
