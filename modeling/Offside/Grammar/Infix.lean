import Offside.Grammar.Prefix

/-!
# Behind operands

The rules that read on behind an operand: commas, clauses and conditions, binary operators in
chains and alone, further string literals, and members, subscripts and calls.
-/
namespace Offside

open Parse Literal

namespace Inner

/-- A comma and the further elements of a tuple. A trailing comma is allowed. -/
def tupleRule (inner : Inner) (left : Parsed) (power : Power) : Parse Parsed := do
  let _ ← advance
  let first ← left.finish
  let elements ← loop (fun elements => do
    if ← atDelimiter then return .done elements
    let elements := elements ++ [← inner.expr power]
    if ← eat "," then return .again elements else return .done elements) inner.bound [first]
  return .plain (.tuple elements .load)

/-- The conditions of a clause. -/
def conditions (inner : Inner) : Parse (List Expr) :=
  loop (fun conditions => do
    if ← eat "if" then return .again (conditions ++ [← inner.expr Power.conditional])
    else return .done conditions) inner.bound []

/-- A clause, which opens a comprehension or goes on with one. -/
def comprehensionRule (inner : Inner) (left : Parsed) : Parse Parsed := do
  let token ← advance
  let isAsync := token.value == "async"
  if isAsync then
    let _ ← expect "for"
  let (target, iter) ← inner.forIn Power.conditional
  let clause : Comprehension := ⟨target, iter, ← inner.conditions, isAsync.toUInt8⟩
  match left.clauses? with
  | some (element, clauses) => return .comprehension element (clauses ++ [clause])
  | none => return .comprehension (← left.finish) [clause]

/-- A condition and the expression for where it does not hold. -/
def conditionalRule (inner : Inner) (left : Parsed) : Parse Parsed := do
  let _ ← advance
  let body ← left.finish
  let test ← inner.expr Power.conditional
  let _ ← expect "else"
  return .plain (.ifExp test body (← inner.expr Power.orelse))

/-- The operators and and or. A bare chain of one operator is one node. -/
def booleanRule (inner : Inner) (left : Parsed) (power : Power) : Parse Parsed := do
  let token ← advance
  let operator : BooleanOperator := if token.value = "and" then .and else .or
  let right ← inner.expr power
  let joined := do
    return Parsed.plain (.boolOp operator [← left.finish, right])
  match left.form, left.expr with
  | .plain, .boolOp found values =>
    if found = operator then return .plain (.boolOp operator (values ++ [right])) else joined
  | _, _ => joined

/-- The comparison that a token starts. Two comparisons are written as two words. -/
def comparisonOperator (token : Token) : Parse Comparison := do
  if token.value = "not" then
    let _ ← expect "in"
    return .notIn
  else if token.value = "is" && (← check "not") then
    let _ ← advance
    return .isNot
  else
    match Comparison.ofText? token.value with
    | some operator => return operator
    | none => fail (.unexpectedToken token.value)

/-- A comparison. A bare chain of comparisons is one node. -/
def comparisonRule (inner : Inner) (left : Parsed) (power : Power) : Parse Parsed := do
  let operator ← comparisonOperator (← advance)
  let right ← inner.expr power
  match left.form, left.expr with
  | .plain, .compare first operators comparators =>
    return .plain (.compare first (operators ++ [operator]) (comparators ++ [right]))
  | _, _ => return .plain (.compare (← left.finish) [operator] [right])

/-- A binary operator that groups to the left. -/
def binaryRule (inner : Inner) (left : Parsed) (power : Power) : Parse Parsed := do
  let token ← advance
  match BinaryOperator.ofText? token.value with
  | some operator =>
    let left ← left.finish
    return .plain (.binOp left operator (← inner.expr power))
  | none => fail (.unexpectedToken token.value)

/-- The operator that groups to the right: its right operand may hold it as well. -/
def powerRule (inner : Inner) (left : Parsed) (power : Power) : Parse Parsed := do
  let _ ← advance
  let left ← left.finish
  return .plain (.binOp left .pow (← inner.expr power.rightAssociative))

/-- The expression of two string literals side by side. -/
def joinLiterals (left : Expr) (right : Quoted) (token : Token) : Except Cause Expr :=
  match left, right with
  | .str first, .text second => .ok (.str (first ++ second))
  | .bytes first, .bytes second => .ok (.bytes (first ++ second))
  | .str _, .bytes _ | .bytes _, .text _ => .error .mixedBytesAndText
  | _, _ =>
    .error (.unexpectedTokenDetailed token.value "string literal cannot follow this expression")

/-- A further string literal, whose value is joined to the one before it. -/
def adjacentRule (left : Parsed) : Parse Parsed := do
  let token ← current
  let value ← lift (decodeString token.value)
  let expr ← lift (joinLiterals left.expr value token)
  let _ ← advance
  return ⟨expr, left.form⟩

/-- A member. -/
def memberRule (left : Parsed) : Parse Parsed := do
  let _ ← advance
  let value ← left.finish
  if ← checkKind .name then
    let token ← advance
    return .plain (.attribute value token.value .load)
  else failExpected Kind.name.text

/-- One dimension of a subscript: an index, or a range with a colon in it. -/
def dimension (inner : Inner) : Parse Slice := do
  let lower ← inner.optionalExpr Power.untilComma
  if ← eat ":" then
    let upper ← inner.optionalExpr Power.untilComma
    let step ← if ← eat ":" then inner.optionalExpr Power.untilComma else pure none
    return .range lower upper step
  else
    match lower with
    | some value => return .index value
    | none => fail .emptySubscript

/-- The dimensions of a subscript, and whether a comma stands among them. -/
def dimensions (inner : Inner) : Parse (List Slice × Bool) :=
  loop (fun (found, commas) => do
    let found := found ++ [← inner.dimension]
    if ← eat "," then
      if ← check "]" then return .done (found, true) else return .again (found, true)
    else return .done (found, commas)) inner.bound ([], false)

end Inner

/-- The index of a slice that is one. -/
def Slice.index? : Slice → Option Expr
  | .index value => some value
  | _ => none

/-- The slice of dimensions: a single one without a comma by itself, indexes alone as one index
that is a tuple, and several dimensions otherwise. -/
def Slice.ofDimensions (found : List Slice) (commas : Bool) : Slice :=
  match found, commas with
  | [slice], false => slice
  | _, _ =>
    match found.mapM Slice.index? with
    | some values => .index (.tuple values .load)
    | none => .dimensions found

/-- The arguments of a call that have been read. -/
structure CallArguments where
  /-- The arguments by position. -/
  positional : List Expr
  /-- The arguments by name. -/
  keywords : List Keyword
  deriving Inhabited

namespace CallArguments

/-- The arguments with one more by position. -/
def addPositional (found : CallArguments) (value : Expr) : CallArguments :=
  { found with positional := found.positional ++ [value] }

/-- The arguments with one more by name. -/
def addKeyword (found : CallArguments) (name : Option String) (value : Expr) : CallArguments :=
  { found with keywords := found.keywords ++ [⟨name, value⟩] }

end CallArguments

namespace Inner

/-- A subscript. -/
def subscriptRule (inner : Inner) (left : Parsed) : Parse Parsed := do
  let _ ← advance
  let value ← left.finish
  let (found, commas) ← inner.dimensions
  let _ ← expect "]"
  return .plain (.subscript value (.ofDimensions found commas) .load)

/-- An argument without stars: by name if an equals sign follows it, and otherwise by position,
where a comprehension needs no parentheses of its own. -/
def plainArgument (inner : Inner) (found : CallArguments) : Parse CallArguments := do
  let parsed ← inner.operand Power.untilComma
  if ← eat "=" then
    match parsed.expr with
    | .name id _ => return found.addKeyword (some id) (← inner.expr Power.untilComma)
    | _ => fail .invalidKeywordArgument
  else
    match parsed.clauses? with
    | some (element, clauses) => return found.addPositional (.generator element clauses)
    | none => return found.addPositional (← parsed.finish)

/-- An argument: a mapping behind two stars, a sequence behind one, or a plain one. -/
def argument (inner : Inner) (found : CallArguments) : Parse CallArguments := do
  if ← eat "**" then return found.addKeyword none (← inner.expr Power.untilComma)
  else if ← eat "*" then
    return found.addPositional (.starred (← inner.expr Power.untilComma) .load)
  else inner.plainArgument found

/-- The arguments behind an opening parenthesis, up to the closing one, which is taken. -/
def callArguments (inner : Inner) : Parse CallArguments := do
  let found ← loop (fun found => do
    if ← check ")" then return .done found
    let found ← inner.argument found
    if ← eat "," then return .again found else return .done found) inner.bound ⟨[], []⟩
  let _ ← expect ")"
  return found

/-- A call. -/
def callRule (inner : Inner) (left : Parsed) : Parse Parsed := do
  let _ ← advance
  let function ← left.finish
  let found ← inner.callArguments
  return .plain (.call function found.positional found.keywords)

end Inner

/-- Read on behind an operand by a rule, at the power of the rule's token. -/
def InfixRule.parse (inner : Inner) (left : Parsed) (power : Power) : InfixRule → Parse Parsed
  | .tuple => inner.tupleRule left power
  | .comprehension => inner.comprehensionRule left
  | .conditional => inner.conditionalRule left
  | .boolean => inner.booleanRule left power
  | .comparison => inner.comparisonRule left power
  | .binary => inner.binaryRule left power
  | .power => inner.powerRule left power
  | .adjacent => Inner.adjacentRule left
  | .member => Inner.memberRule left
  | .subscript => inner.subscriptRule left
  | .call => inner.callRule left

end Offside
