import Offside.Text.Quoted

/-!
# Faults

A fault is a cause at a position. Every cause of failure of the front end is a constructor of
`Cause`, and its name, its category, its message and its tip are each decided in one function.
-/
namespace Offside

open Text

/-- The class of a cause, in the order in which the front end can meet it. -/
inductive Category where
  /-- Found while scanning characters or decoding a literal. -/
  | lexical
  /-- An expected token or marker is missing. -/
  | syntactic
  /-- The grammar fits and the construct is forbidden. -/
  | structural
  deriving DecidableEq, Inhabited, Repr

/-- What went wrong. -/
inductive Cause where
  /-- A string literal does not end. -/
  | unterminatedString
  /-- The input ends after a line continuation. -/
  | unexpectedEnd
  /-- A line returns to a width at which no open block stands. -/
  | inconsistentDedent (width : Nat)
  /-- A number literal has no value. -/
  | malformedNumber (token : String)
  /-- An escape is truncated or out of range. -/
  | invalidEscape (sequence : String)
  /-- A token stands where no token of its kind may. -/
  | unexpectedToken (token : String)
  /-- A token stands where no token of its kind may, with a reason. -/
  | unexpectedTokenDetailed (token message : String)
  /-- A required token is missing. -/
  | expectedToken (expected found : String)
  /-- A statement is missing. -/
  | expectedStatement (found : String)
  /-- An expression is missing. -/
  | expectedExpression (found : String)
  /-- A block opens where none may. -/
  | unexpectedIndent
  /-- A block closes where none may. -/
  | unexpectedDedent
  /-- A comprehension clause stands outside brackets. -/
  | misplacedComprehension
  /-- A second parameter collects positional arguments. -/
  | duplicateVarArg
  /-- A second parameter collects keyword arguments. -/
  | duplicateKwArg
  /-- A parameter follows the one that collects keyword arguments. -/
  | argumentAfterKwArg
  /-- A parameter without default follows one with a default. -/
  | nonDefaultArgument
  /-- An expression of the given description cannot be a target. -/
  | invalidTarget (target : String)
  /-- A keyword of a call is no name. -/
  | invalidKeywordArgument
  /-- Bytes and text literals stand side by side. -/
  | mixedBytesAndText
  /-- Decorators stand before something that is no definition. -/
  | unexpectedDecorator
  /-- The word async stands before something that cannot be asynchronous. -/
  | unexpectedAsync
  /-- A try statement has no handler and no final block. -/
  | missingExceptOrFinally
  /-- An annotation stands behind several targets. -/
  | multipleAnnotationTargets
  /-- A subscript holds nothing. -/
  | emptySubscript
  deriving DecidableEq, Inhabited, Repr

namespace Cause

/-- The category of a cause. -/
def category : Cause → Category
  | .unterminatedString | .unexpectedEnd | .inconsistentDedent _ | .malformedNumber _
  | .invalidEscape _ => .lexical
  | .unexpectedToken _ | .unexpectedTokenDetailed .. | .expectedToken .. | .expectedStatement _
  | .expectedExpression _ | .unexpectedIndent | .unexpectedDedent | .misplacedComprehension =>
    .syntactic
  | .duplicateVarArg | .duplicateKwArg | .argumentAfterKwArg | .nonDefaultArgument
  | .invalidTarget _ | .invalidKeywordArgument | .mixedBytesAndText | .unexpectedDecorator
  | .unexpectedAsync | .missingExceptOrFinally | .multipleAnnotationTargets | .emptySubscript =>
    .structural

/-- The name under which a cause is reported. -/
def name : Cause → String
  | .unterminatedString => "UnterminatedString"
  | .unexpectedEnd => "UnexpectedEof"
  | .inconsistentDedent _ => "InconsistentDedent"
  | .malformedNumber _ => "NumberParseError"
  | .invalidEscape _ => "InvalidEscape"
  | .unexpectedToken _ => "UnexpectedToken"
  | .unexpectedTokenDetailed .. => "UnexpectedTokenDetailed"
  | .expectedToken .. => "ExpectedToken"
  | .expectedStatement _ => "ExpectedStatement"
  | .expectedExpression _ => "ExpectedExpression"
  | .unexpectedIndent => "UnexpectedIndent"
  | .unexpectedDedent => "UnexpectedDedent"
  | .misplacedComprehension => "MisplacedComprehension"
  | .duplicateVarArg => "DuplicateVarArg"
  | .duplicateKwArg => "DuplicateKwArg"
  | .argumentAfterKwArg => "ArgumentAfterKwArg"
  | .nonDefaultArgument => "NonDefaultArgument"
  | .invalidTarget _ => "InvalidTarget"
  | .invalidKeywordArgument => "InvalidKeywordArgument"
  | .mixedBytesAndText => "MixedBytesAndStr"
  | .unexpectedDecorator => "UnexpectedDecorator"
  | .unexpectedAsync => "UnexpectedAsync"
  | .missingExceptOrFinally => "MissingExceptOrFinally"
  | .multipleAnnotationTargets => "MultipleAnnotationTargets"
  | .emptySubscript => "EmptySubscript"

/-- The sentence that states a cause. -/
def message : Cause → String
  | .unterminatedString => "unterminated string literal"
  | .unexpectedEnd => "unexpected end of input after line continuation"
  | .inconsistentDedent _ => "unindent does not match any outer indentation level"
  | .malformedNumber token => "error parsing number: " ++ quoteMessage token
  | .invalidEscape sequence => "invalid escape sequence " ++ quoteMessage sequence
  | .unexpectedToken token => "unexpected token: " ++ quoteMessage token
  | .unexpectedTokenDetailed token message =>
    "unexpected token (" ++ message ++ "): " ++ quoteMessage token
  | .expectedToken expected found => "expected '" ++ expected ++ "', found " ++ found
  | .expectedStatement found => "expected statement, found " ++ found
  | .expectedExpression found => "expected expression, found " ++ found
  | .unexpectedIndent => "unexpected indent"
  | .unexpectedDedent => "unexpected unindent"
  | .misplacedComprehension => "generator expression must be parenthesized"
  | .duplicateVarArg => "more than one *args parameter"
  | .duplicateKwArg => "more than one **kwargs parameter"
  | .argumentAfterKwArg => "parameter follows **kwargs"
  | .nonDefaultArgument => "non-default argument follows default argument"
  | .invalidTarget target => "cannot assign to " ++ target
  | .invalidKeywordArgument => "keyword can't be an expression"
  | .mixedBytesAndText => "cannot mix bytes and nonbytes literals"
  | .unexpectedDecorator => "decorator must precede a function or class definition"
  | .unexpectedAsync => "unexpected async keyword"
  | .missingExceptOrFinally => "try statement needs an except or finally clause"
  | .multipleAnnotationTargets => "only a single target can be annotated"
  | .emptySubscript => "subscript is empty"

/-- What to do about a cause, where there is a suggestion. -/
def tip : Cause → Option String
  | .unterminatedString => some "Close the string with the same quote it was opened with"
  | .unexpectedEnd => some "A trailing backslash must be followed by another line"
  | .inconsistentDedent width =>
    some ("Dedent to a column used by an enclosing block, not column " ++ toString width)
  | .malformedNumber token =>
    some ("Invalid number: `" ++ token ++ "`, is it malformed or too large?")
  | .invalidEscape sequence => some ("Escape `" ++ sequence ++ "` is truncated or out of range")
  | .unexpectedToken _ => none
  | .unexpectedTokenDetailed token message =>
    some ("Unexpected token: `" ++ token ++ "`, " ++ message)
  | .expectedToken expected _ => some ("Insert `" ++ expected ++ "` here")
  | .expectedStatement _ => none
  | .expectedExpression _ => none
  | .unexpectedIndent => some "Only the body of a compound statement may be indented"
  | .unexpectedDedent => none
  | .misplacedComprehension => some "Wrap the generator expression in parentheses"
  | .duplicateVarArg | .duplicateKwArg =>
    some "A parameter list takes at most one `*args` and one `**kwargs`"
  | .argumentAfterKwArg => some "`**kwargs` must be the last parameter"
  | .nonDefaultArgument => some "Move parameters without defaults before those with defaults"
  | .invalidTarget target => some ("`" ++ target ++ "` cannot be assigned to or deleted")
  | .invalidKeywordArgument => some "Keyword argument names must be plain identifiers"
  | .mixedBytesAndText => some "Adjacent literals must all be bytes or all be text"
  | .unexpectedDecorator => some "Decorators can only precede `def`, `async def` or `class`"
  | .unexpectedAsync => some "`async` must be followed by `def`, `for` or `with`"
  | .missingExceptOrFinally => some "Add an `except` or `finally` clause"
  | .multipleAnnotationTargets => none
  | .emptySubscript => none

end Cause

/-- A line of a file, counted from one. -/
structure Position where
  /-- The line, below 2 ^ 32 in the program. -/
  line : Nat
  /-- The name of the file. -/
  file : String
  deriving DecidableEq, Inhabited, Repr

/-- The position of what has none. -/
def Position.null : Position := ⟨0, "<null>"⟩

/-- A cause at a position. -/
structure Fault where
  /-- What went wrong. -/
  cause : Cause
  /-- Where it was met. -/
  position : Position
  deriving DecidableEq, Inhabited, Repr

/-- A fault in one line: file, line number and message. -/
def Fault.summary (fault : Fault) : String :=
  fault.position.file ++ ":" ++ toString fault.position.line ++ ": error: " ++ fault.cause.message

end Offside
