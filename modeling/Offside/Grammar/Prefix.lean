import Offside.Grammar.Parameters
import Offside.Literal.Numeric
import Offside.Literal.Text

/-!
# Starts of operands

The rules that read the start of an operand: names and literals, operators before their operand,
and everything in brackets.
-/
namespace Offside

open Parse Literal

/-- The expression of the value of a string literal. -/
def Literal.Quoted.expr : Quoted → Expr
  | .text value => .str value
  | .bytes value => .bytes value

/-- The constant that a word writes. -/
def Constant.ofWord (word : String) : Constant :=
  if word = "True" then .true else if word = "False" then .false else .none

/-- A name. -/
def nameRule : Parse Parsed := do
  let token ← current
  if token.kind = .name && !token.isKeyword then
    let _ ← advance
    return .plain (.name token.value .load)
  else failExpression

/-- A number literal. Its value is found before the token is taken. -/
def numberRule : Parse Parsed := do
  let value ← lift (decodeNumber (← current).value)
  let _ ← advance
  return .plain (.num value)

/-- A string literal. Its value is found before the token is taken. -/
def stringRule : Parse Parsed := do
  let value ← lift (decodeString (← current).value)
  let _ ← advance
  return .plain value.expr

/-- A constant that is written as a word. -/
def constantRule : Parse Parsed := do
  let token ← advance
  return .plain (.constant (.ofWord token.value))

/-- Three points. -/
def ellipsisRule : Parse Parsed := do
  let _ ← advance
  return .plain .ellipsis

/-- The unary operator that a text writes, with the power of its operand. -/
def unaryOperator (text : String) : UnaryOperator × Power :=
  if text = "not" then (.not, Power.not)
  else if text = "-" then (.minus, Power.unary)
  else if text = "+" then (.plus, Power.unary)
  else (.invert, Power.unary)

namespace Inner

/-- An operator before its operand. -/
def unaryRule (inner : Inner) : Parse Parsed := do
  let token ← advance
  let (operator, power) := unaryOperator token.value
  return .plain (.unaryOp operator (← inner.expr power))

/-- A star before an expression. -/
def starredRule (inner : Inner) : Parse Parsed := do
  let _ ← advance
  return .plain (.starred (← inner.expr Power.target) .load)

/-- The word await. -/
def awaitRule (inner : Inner) : Parse Parsed := do
  let _ ← advance
  return .plain (.await (← inner.expr Power.await))

/-- The word yield, with a value, the word from, or nothing behind it. -/
def yieldRule (inner : Inner) : Parse Parsed := do
  let _ ← advance
  if ← eat "from" then return .plain (.yieldFrom (← inner.expr Power.yieldValue))
  else return .plain (.yield (← inner.optionalExpr Power.yieldValue))

/-- A function without a name. -/
def lambdaRule (inner : Inner) : Parse Parsed := do
  let _ ← advance
  let parameters ← inner.parameters .lambda
  let _ ← expect ":"
  return .plain (.lambda parameters (← inner.expr Power.lambda))

/-- Parentheses: an empty tuple, a comprehension, or an expression that they group. -/
def groupingRule (inner : Inner) : Parse Parsed := do
  let _ ← advance
  if ← eat ")" then return .plain (.tuple [] .load)
  else
    let parsed ← inner.operand Power.any
    let _ ← expect ")"
    return ⟨parsed.expr, .grouped⟩

/-- Square brackets: a comprehension or a list. -/
def listRule (inner : Inner) : Parse Parsed := do
  let _ ← advance
  loop (fun elements => do
    if ← eat "]" then return .done (.plain (.list elements .load))
    let parsed ← inner.operand Power.untilComma
    match parsed.clauses? with
    | some (element, clauses) =>
      let _ ← expect "]"
      return .done (.plain (.listComp element clauses))
    | none =>
      let elements := elements ++ [← parsed.finish]
      if ← eat "," then return .again elements
      let _ ← expect "]"
      return .done (.plain (.list elements .load))) inner.bound []

/-- The entries of a display in braces that have been read. -/
structure Entries where
  /-- The entries have keys, once that is known. -/
  keyed : Option Bool
  /-- The keys. -/
  keys : List (Option Expr)
  /-- The values, or the elements of a set. -/
  values : List Expr

/-- The display of entries. Without entries it is a dictionary. -/
def Entries.display (entries : Entries) : Expr :=
  if entries.keyed.getD true then .dict entries.keys entries.values else .set entries.values

/-- Read a comprehension in braces to its end. -/
def closeComprehension (expr : Expr) : Parse (Turn Entries Expr) := do
  let _ ← expect "\x7d"
  return .done expr

/-- The value behind a key and a colon. The first entry may be a comprehension. -/
def keyedEntry (inner : Inner) (entries : Entries) (key : Expr) :
    Parse (Turn Entries Expr) := do
  let _ ← expect ":"
  let parsed ← inner.operand Power.untilComma
  match parsed.clauses? with
  | some (value, clauses) =>
    if entries.keys.isEmpty then closeComprehension (.dictComp key value clauses)
    else fail .misplacedComprehension
  | none =>
    let value ← parsed.finish
    return .again ⟨some true, entries.keys ++ [some key], entries.values ++ [value]⟩

/-- An entry in braces. The first one decides whether the entries have keys. -/
def entry (inner : Inner) (entries : Entries) : Parse (Turn Entries Expr) := do
  if entries.keyed = some false && (← check "**") then fail (.unexpectedToken "**")
  else if ← eat "**" then
    let value ← inner.expr Power.untilComma
    return .again ⟨some true, entries.keys ++ [none], entries.values ++ [value]⟩
  else
    let parsed ← inner.operand Power.untilComma
    match parsed.clauses?, entries.keyed with
    | some (element, clauses), none => closeComprehension (.setComp element clauses)
    | _, _ =>
      let key ← parsed.finish
      if entries.keyed.getD (← check ":") then inner.keyedEntry entries key
      else return .again ⟨some false, entries.keys, entries.values ++ [key]⟩

/-- Braces: a dictionary, a set, or a comprehension of either. -/
def braceRule (inner : Inner) : Parse Parsed := do
  let _ ← advance
  loop (fun entries => do
    if ← eat "\x7d" then return .done (.plain entries.display)
    match ← inner.entry entries with
    | .done expr => return .done (.plain expr)
    | .again entries =>
      if ← eat "," then return .again entries
      let _ ← expect "\x7d"
      return .done (.plain entries.display)) inner.bound ⟨none, [], []⟩

end Inner

/-- Read the start of an operand by a rule. -/
def PrefixRule.parse (inner : Inner) : PrefixRule → Parse Parsed
  | .name => nameRule
  | .number => numberRule
  | .string => stringRule
  | .constant => constantRule
  | .ellipsis => ellipsisRule
  | .unary => inner.unaryRule
  | .starred => inner.starredRule
  | .await => inner.awaitRule
  | .yield => inner.yieldRule
  | .lambda => inner.lambdaRule
  | .grouping => inner.groupingRule
  | .list => inner.listRule
  | .brace => inner.braceRule

end Offside
