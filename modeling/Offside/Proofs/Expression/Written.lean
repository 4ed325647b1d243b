import Offside.Parse

/-!
# Written expressions

An expression has the power of its outermost construct (`Expr.power?`). It is written with the
parentheses that the powers ask for and no others: an expression in a place for operands above a
power stands in parentheses just if its own power is not above that one (`wrapped`).
`Expr.IsCore` says which expressions are written in this way.
-/
namespace Offside

open Text

namespace Token

/-- A token without its place in the text. -/
def bare (token : Token) : Token := ⟨token.kind, token.value, 0, ""⟩

/-- A word without a place in a text. -/
def word (text : String) : Token := ⟨.name, text, 0, ""⟩

/-- An operator or another mark without a place in a text. -/
def mark (text : String) : Token := ⟨.operator, text, 0, ""⟩

/-- A number without a place in a text. -/
def number (text : String) : Token := ⟨.number, text, 0, ""⟩

end Token

/-- A word that is a name: it has the form of one and is not reserved. -/
def isIdentifier (word : String) : Bool :=
  word.toList.head?.any isNameStart && word.toList.all isNamePart && !isReserved word

/-- The text of a binary operator. -/
def BinaryOperator.text : BinaryOperator → String
  | .add => "+"
  | .sub => "-"
  | .mult => "*"
  | .matMult => "@"
  | .div => "/"
  | .mod => "%"
  | .pow => "**"
  | .lShift => "<<"
  | .rShift => ">>"
  | .bitOr => "|"
  | .bitXor => "^"
  | .bitAnd => "&"
  | .floorDiv => "//"

/-- The power of a binary operator. -/
def BinaryOperator.power : BinaryOperator → Nat
  | .bitOr => 70
  | .bitXor => 80
  | .bitAnd => 90
  | .lShift | .rShift => 100
  | .add | .sub => 110
  | .mult | .matMult | .div | .floorDiv | .mod => 120
  | .pow => 140

/-- The power above which the left operand of a binary operator stands bare. -/
def BinaryOperator.leftSlot : BinaryOperator → Nat
  | .pow => 140
  | operator => operator.power - 1

/-- The power above which the right operand of a binary operator stands bare. -/
def BinaryOperator.rightSlot : BinaryOperator → Nat
  | .pow => 139
  | operator => operator.power

/-- The token of a unary operator. -/
def UnaryOperator.token : UnaryOperator → Token
  | .not => .word "not"
  | .minus => .mark "-"
  | .plus => .mark "+"
  | .invert => .mark "~"

/-- The power of a unary operator, which its operand must exceed to stand bare. -/
def UnaryOperator.power : UnaryOperator → Nat
  | .not => 50
  | .minus | .plus | .invert => 130

/-- The word of a boolean operator. -/
def BooleanOperator.text : BooleanOperator → String
  | .and => "and"
  | .or => "or"

/-- The power of a boolean operator, which its operands must exceed to stand bare. -/
def BooleanOperator.power : BooleanOperator → Nat
  | .and => 40
  | .or => 30

/-- The tokens of a comparison. -/
def Comparison.tokens : Comparison → List Token
  | .eq => [.mark "=="]
  | .notEq => [.mark "!="]
  | .lt => [.mark "<"]
  | .ltE => [.mark "<="]
  | .gt => [.mark ">"]
  | .gtE => [.mark ">="]
  | .is => [.word "is"]
  | .isNot => [.word "is", .word "not"]
  | .isIn => [.word "in"]
  | .notIn => [.word "not", .word "in"]

namespace Expr

/-- The power of the outermost construct of an expression. Names, literals and what stands in
brackets of its own have none: they bind more tightly than any operator. -/
def power? : Expr → Option Nat
  | .tuple (_ :: _) _ => some 5
  | .ifExp _ _ _ => some 20
  | .boolOp operator _ => some operator.power
  | .unaryOp operator _ => some operator.power
  | .compare _ _ _ => some 60
  | .binOp _ operator _ => some operator.power
  | .await _ => some 150
  | .attribute _ _ _ | .subscript _ _ _ | .call _ _ _ => some 160
  | _ => none

/-- The expression stands in parentheses in a place for operands above a power. -/
def isWrapped (slot : Nat) (expr : Expr) : Bool :=
  expr.power?.any (· ≤ slot)

end Expr

/-- The tokens of an expression, in parentheses if it needs them. -/
def wrapped (slot : Nat) (expr : Expr) (tokens : List Token) : List Token :=
  if expr.isWrapped slot then .mark "(" :: tokens ++ [.mark ")"] else tokens

mutual

/-- The tokens that write an expression. -/
def Expr.write : Expr → List Token
  | .name id _ => [.word id]
  | .num value => [.number value.text]
  | .constant value => [.word value.text]
  | .unaryOp operator operand =>
    operator.token :: wrapped operator.power operand operand.write
  | .binOp left operator right =>
    wrapped operator.leftSlot left left.write ++ .mark operator.text ::
      wrapped operator.rightSlot right right.write
  | .boolOp operator values => writeSeparated (.word operator.text) operator.power values
  | .compare left operators comparators =>
    wrapped 60 left left.write ++ writeComparisons operators comparators
  | .ifExp test body orelse =>
    wrapped 20 body body.write ++ .word "if" :: (wrapped 20 test test.write ++ .word "else" ::
      wrapped 19 orelse orelse.write)
  | .await value => .word "await" :: wrapped 150 value value.write
  | .attribute value name _ => wrapped 159 value value.write ++ [.mark ".", .word name]
  | .call function arguments _ =>
    wrapped 159 function function.write ++
      .mark "(" :: writeSeparated (.mark ",") 6 arguments ++ [.mark ")"]
  | .subscript value slice _ =>
    wrapped 159 value value.write ++ .mark "[" :: slice.write ++ [.mark "]"]
  | .list elements _ => .mark "[" :: writeSeparated (.mark ",") 6 elements ++ [.mark "]"]
  | .tuple elements _ =>
    match elements with
    | [] => [.mark "(", .mark ")"]
    | [element] => wrapped 5 element element.write ++ [.mark ","]
    | elements => writeSeparated (.mark ",") 5 elements
  | _ => []

/-- The tokens that write an index. -/
def Slice.write : Slice → List Token
  | .index value => wrapped 6 value value.write
  | _ => []

/-- The tokens that write expressions with a separator between them. -/
def writeSeparated (separator : Token) (slot : Nat) : List Expr → List Token
  | [] => []
  | [expr] => wrapped slot expr expr.write
  | expr :: exprs =>
    wrapped slot expr expr.write ++ separator :: writeSeparated separator slot exprs

/-- The tokens that write comparisons, each with the operand behind it. -/
def writeComparisons : List Comparison → List Expr → List Token
  | operator :: operators, expr :: exprs =>
    operator.tokens ++ (wrapped 60 expr expr.write ++ writeComparisons operators exprs)
  | _, _ => []

end

/-- The expressions that are written by powers: names, integers, constants, operators, conditional
expressions, members, calls by position, subscripts with one index, lists and tuples, all of them
loaded. -/
inductive Expr.IsCore : Expr → Prop where
  /-- A name. -/
  | name {id : String} (identifier : isIdentifier id = true) : IsCore (.name id .load)
  /-- An integer that is not negative. -/
  | num {value : Narrow} (positive : 0 ≤ value.value) : IsCore (.num (.int value))
  /-- A constant. -/
  | constant (value : Constant) : IsCore (.constant value)
  /-- An operator before its operand. -/
  | unaryOp (operator : UnaryOperator) {operand : Expr} (core : operand.IsCore) :
      IsCore (.unaryOp operator operand)
  /-- An operator between its operands. -/
  | binOp (operator : BinaryOperator) {left right : Expr} (first : left.IsCore)
      (second : right.IsCore) : IsCore (.binOp left operator right)
  /-- Two or more conditions. -/
  | boolOp (operator : BooleanOperator) {values : List Expr} (several : 2 ≤ values.length)
      (core : ∀ value ∈ values, value.IsCore) : IsCore (.boolOp operator values)
  /-- A chain of comparisons. -/
  | compare {left : Expr} {operators : List Comparison} {comparators : List Expr}
      (several : 1 ≤ operators.length) (paired : operators.length = comparators.length)
      (first : left.IsCore) (core : ∀ expr ∈ comparators, expr.IsCore) :
      IsCore (.compare left operators comparators)
  /-- A conditional expression. -/
  | ifExp {test body orelse : Expr} (condition : test.IsCore) (holds : body.IsCore)
      (fails : orelse.IsCore) : IsCore (.ifExp test body orelse)
  /-- Wait for a value. -/
  | await {value : Expr} (core : value.IsCore) : IsCore (.await value)
  /-- A member. -/
  | member {value : Expr} {name : String} (core : value.IsCore)
      (identifier : isIdentifier name = true) : IsCore (.attribute value name .load)
  /-- A call. -/
  | call {function : Expr} {arguments : List Expr} (callee : function.IsCore)
      (core : ∀ argument ∈ arguments, argument.IsCore) : IsCore (.call function arguments [])
  /-- A subscript. -/
  | subscript {value index : Expr} (core : value.IsCore) (place : index.IsCore) :
      IsCore (.subscript value (.index index) .load)
  /-- A list. -/
  | list {elements : List Expr} (core : ∀ element ∈ elements, element.IsCore) :
      IsCore (.list elements .load)
  /-- A tuple. -/
  | tuple {elements : List Expr} (core : ∀ element ∈ elements, element.IsCore) :
      IsCore (.tuple elements .load)

end Offside
