import Offside.Grammar.State

/-!
# Expressions at a power

The forms in which rules ask for the expressions inside what they read. A rule does not know how
operands are read: it gets an `Inner`, which reads them, and which is good for what stands behind
at least one token.
-/
namespace Offside

/-- How an expression was written, as far as the rules behind it ask. -/
inductive Form where
  /-- Bare. -/
  | plain
  /-- In parentheses. Chains of conditions and comparisons do not run through them. -/
  | grouped
  /-- A comprehension without brackets, which further clauses may follow. -/
  | comprehension
  deriving DecidableEq, Inhabited, Repr

/-- An expression that has been read, with its form. -/
structure Parsed where
  /-- The expression. -/
  expr : Expr
  /-- The form. -/
  form : Form
  deriving Inhabited

namespace Parsed

/-- A bare expression. -/
def plain (expr : Expr) : Parsed := ⟨expr, .plain⟩

/-- A comprehension without brackets. -/
def comprehension (element : Expr) (clauses : List Comprehension) : Parsed :=
  ⟨.generator element clauses, .comprehension⟩

/-- The element and the clauses of a comprehension without brackets. -/
def clauses? (parsed : Parsed) : Option (Expr × List Comprehension) :=
  match parsed.form, parsed.expr with
  | .comprehension, .generator element clauses => some (element, clauses)
  | _, _ => none

/-- The expression, which must not be a comprehension without brackets. -/
def finish (parsed : Parsed) : Parse Expr :=
  if parsed.form = .comprehension then Parse.fail .misplacedComprehension
  else return parsed.expr

end Parsed

/-- How a rule reads what is inside. -/
structure Inner where
  /-- A bound on the turns of a loop. -/
  bound : Nat
  /-- Reads an operand up to the next token that binds no more tightly than the power. -/
  operand : Power → Parse Parsed

namespace Inner

open Parse

/-- An operand, if one may start here. None starts at a token that ends expressions, or at a
comma where the power stops before commas. -/
def optionalOperand (inner : Inner) (power : Power) : Parse (Option Parsed) := do
  if ← atDelimiter then return none
  if Power.untilComma ≤ power && (← check ",") then return none
  return some (← inner.operand power)

/-- An expression, if one may start here. -/
def optionalExpr (inner : Inner) (power : Power) : Parse (Option Expr) := do
  match ← inner.optionalOperand power with
  | some parsed => return some (← parsed.finish)
  | none => return none

/-- An expression. -/
def expr (inner : Inner) (power : Power) : Parse Expr := do
  match ← inner.optionalExpr power with
  | some expr => return expr
  | none => failExpression

/-- A target with a context, if an expression may start here. -/
def optionalTarget (inner : Inner) (context : Context) (power : Power) :
    Parse (Option Expr) := do
  match ← inner.optionalExpr power with
  | some expr => return some (← lift (expr.withContext context))
  | none => return none

/-- The target of a loop or a clause, without commas. -/
def loopTarget (inner : Inner) : Parse Expr := do
  match ← inner.optionalTarget .store Power.target with
  | some target => return target
  | none => failExpression

/-- The targets of a loop or a clause behind the first one, each behind a comma. -/
def moreTargets (inner : Inner) (first : Expr) : Parse (List Expr) :=
  loop (fun targets => do
    if !(← eat ",") then return .done targets
    if ← check "in" then return .done targets
    return .again (targets ++ [← inner.loopTarget])) inner.bound [first]

/-- The target of a loop or a clause and what it runs over. A comma makes the target a tuple. -/
def forIn (inner : Inner) (power : Power) : Parse (Expr × Expr) := do
  let first ← inner.loopTarget
  let target ← if ← check "," then pure (.tuple (← inner.moreTargets first) .store)
    else pure first
  let _ ← expect "in"
  return (target, ← inner.expr power)

end Inner

end Offside
