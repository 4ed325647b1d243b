import Offside.Number

/-!
# Trees

The tree of a parsed text. At its root stands a `Root`, and below it stand statements
(`Stmt`) and expressions (`Expr`) with the smaller parts that they are made of. Every node has a
kind, the name under which it is written.

The lines of definitions and the points in front of an imported module are counted in 32 bits by the
program and by natural numbers here: a text has fewer than 2 ^ 32 of either.
-/
namespace Offside

/-- A binary operator, also of augmented assignment. -/
inductive BinaryOperator where
  | add | sub | mult | matMult | div | mod | pow | lShift | rShift | bitOr | bitXor | bitAnd
  | floorDiv
  deriving DecidableEq, Inhabited, Repr

namespace BinaryOperator

/-- The kind of a binary operator. -/
def kind : BinaryOperator → String
  | .add => "Add"
  | .sub => "Sub"
  | .mult => "Mult"
  | .matMult => "MatMult"
  | .div => "Div"
  | .mod => "Mod"
  | .pow => "Pow"
  | .lShift => "LShift"
  | .rShift => "RShift"
  | .bitOr => "BitOr"
  | .bitXor => "BitXor"
  | .bitAnd => "BitAnd"
  | .floorDiv => "FloorDiv"

/-- The binary operators with the texts that write them. -/
def table : List (String × BinaryOperator) :=
  [("+", .add), ("-", .sub), ("*", .mult), ("@", .matMult), ("/", .div), ("%", .mod),
   ("**", .pow), ("<<", .lShift), (">>", .rShift), ("|", .bitOr), ("^", .bitXor),
   ("&", .bitAnd), ("//", .floorDiv)]

/-- The binary operator that a text writes. -/
def ofText? (text : String) : Option BinaryOperator :=
  table.lookup text

/-- The operator that a text applies in place: a binary operator before an equals sign. -/
def ofAugmented? (text : String) : Option BinaryOperator :=
  let chars := text.toList
  if chars.getLast? = some '=' then ofText? (String.ofList chars.dropLast) else none

end BinaryOperator

/-- An operator with one operand. -/
inductive UnaryOperator where
  | invert | not | plus | minus
  deriving DecidableEq, Inhabited, Repr

/-- The kind of a unary operator. -/
def UnaryOperator.kind : UnaryOperator → String
  | .invert => "Invert"
  | .not => "Not"
  | .plus => "UAdd"
  | .minus => "USub"

/-- A comparison. -/
inductive Comparison where
  | eq | notEq | lt | ltE | gt | gtE | is | isNot | isIn | notIn
  deriving DecidableEq, Inhabited, Repr

namespace Comparison

/-- The kind of a comparison. -/
def kind : Comparison → String
  | .eq => "Eq"
  | .notEq => "NotEq"
  | .lt => "Lt"
  | .ltE => "LtE"
  | .gt => "Gt"
  | .gtE => "GtE"
  | .is => "Is"
  | .isNot => "IsNot"
  | .isIn => "In"
  | .notIn => "NotIn"

/-- The comparisons that are written as one token, with their texts. -/
def table : List (String × Comparison) :=
  [("==", .eq), ("!=", .notEq), ("<", .lt), ("<=", .ltE), (">", .gt), (">=", .gtE), ("is", .is),
   ("in", .isIn)]

/-- The comparison that the text of one token writes. -/
def ofText? (text : String) : Option Comparison :=
  table.lookup text

end Comparison

/-- An operator that joins two or more conditions. -/
inductive BooleanOperator where
  | and | or
  deriving DecidableEq, Inhabited, Repr

/-- The kind of a boolean operator. -/
def BooleanOperator.kind : BooleanOperator → String
  | .and => "And"
  | .or => "Or"

/-- How an expression is used. -/
inductive Context where
  | load | store | del | augLoad | augStore | param
  deriving DecidableEq, Inhabited, Repr

/-- The kind of a context. -/
def Context.kind : Context → String
  | .load => "Load"
  | .store => "Store"
  | .del => "Del"
  | .augLoad => "AugLoad"
  | .augStore => "AugStore"
  | .param => "Param"

/-- A constant that is written as a word. -/
inductive Constant where
  | none | true | false
  deriving DecidableEq, Inhabited, Repr

/-- The word of a constant. -/
def Constant.text : Constant → String
  | .none => "None"
  | .true => "True"
  | .false => "False"

mutual

/-- An expression. -/
inductive Expr where
  /-- Two or more conditions joined by one operator. -/
  | boolOp (operator : BooleanOperator) (values : List Expr)
  /-- A binary operator between two operands. -/
  | binOp (left : Expr) (operator : BinaryOperator) (right : Expr)
  /-- An operator before its operand. -/
  | unaryOp (operator : UnaryOperator) (operand : Expr)
  /-- A function without a name. -/
  | lambda (parameters : Arguments) (body : Expr)
  /-- One of two expressions, chosen by a condition. -/
  | ifExp (test body orelse : Expr)
  /-- A dictionary display. A value without a key is a mapping that is unpacked. -/
  | dict (keys : List (Option Expr)) (values : List Expr)
  /-- A set display. -/
  | set (elements : List Expr)
  /-- A comprehension in square brackets. -/
  | listComp (element : Expr) (clauses : List Comprehension)
  /-- A comprehension in braces. -/
  | setComp (element : Expr) (clauses : List Comprehension)
  /-- A comprehension of keys and values. -/
  | dictComp (key value : Expr) (clauses : List Comprehension)
  /-- A comprehension that is evaluated on demand. -/
  | generator (element : Expr) (clauses : List Comprehension)
  /-- Wait for a value. -/
  | await (value : Expr)
  /-- Hand a value out. -/
  | yield (value : Option Expr)
  /-- Hand out the values of another expression. -/
  | yieldFrom (value : Expr)
  /-- A chain of comparisons, with an operand behind each. -/
  | compare (left : Expr) (operators : List Comparison) (comparators : List Expr)
  /-- A call. -/
  | call (function : Expr) (arguments : List Expr) (keywords : List Keyword)
  /-- A number. -/
  | num (value : Number)
  /-- A text. -/
  | str (value : String)
  /-- A byte list. -/
  | bytes (value : List UInt8)
  /-- A constant that is written as a word. -/
  | constant (value : Constant)
  /-- Three points. -/
  | ellipsis
  /-- A member of a value. -/
  | attribute (value : Expr) (name : String) (context : Context)
  /-- An element or a range of a value. -/
  | subscript (value : Expr) (slice : Slice) (context : Context)
  /-- An expression that stands for several. -/
  | starred (value : Expr) (context : Context)
  /-- A name. -/
  | name (id : String) (context : Context)
  /-- A list display. -/
  | list (elements : List Expr) (context : Context)
  /-- A tuple. -/
  | tuple (elements : List Expr) (context : Context)

/-- What stands in the brackets of a subscript. -/
inductive Slice where
  /-- A range. -/
  | range (lower upper step : Option Expr)
  /-- Several dimensions. -/
  | dimensions (slices : List Slice)
  /-- One index. -/
  | index (value : Expr)

/-- The parameters of a function. -/
structure Arguments where
  /-- The parameters that may be given by position. -/
  args : List Arg
  /-- The parameter that collects the arguments left by position. -/
  vararg : Option Arg
  /-- The parameters that are given by name alone. -/
  kwonlyargs : List Arg
  /-- The defaults of those, one for each parameter. -/
  kwDefaults : List (Option Expr)
  /-- The parameter that collects the arguments left by name. -/
  kwarg : Option Arg
  /-- The defaults of the last parameters that may be given by position. -/
  defaults : List Expr

/-- A parameter. -/
structure Arg where
  /-- The name. -/
  name : String
  /-- The annotation. -/
  annotation : Option Expr

/-- An argument of a call with a name, or without one a mapping that is unpacked. -/
structure Keyword where
  /-- The name. -/
  name : Option String
  /-- The value. -/
  value : Expr

/-- A clause of a comprehension. -/
structure Comprehension where
  /-- The target of the clause. -/
  target : Expr
  /-- What the clause runs over. -/
  iter : Expr
  /-- The conditions. -/
  conditions : List Expr
  /-- One if the clause is asynchronous, and zero otherwise. -/
  isAsync : UInt8

end

instance : Inhabited Expr := ⟨.ellipsis⟩

/-- A name with the name under which it is bound. -/
structure Alias where
  /-- The name. -/
  name : String
  /-- The other name. -/
  asname : Option String
  deriving DecidableEq, Inhabited

/-- A context of a with statement. -/
structure WithItem where
  /-- The context. -/
  context : Expr
  /-- The target that it is bound to. -/
  target : Option Expr

mutual

/-- A statement. -/
inductive Stmt where
  /-- The definition of a function, with the line of its first word. -/
  | functionDef (isAsync : Bool) (name : String) (parameters : Arguments) (body : List Stmt)
    (decorators : List Expr) (returns : Option Expr) (line : Nat)
  /-- The definition of a class, with the line of its first word. -/
  | classDef (name : String) (bases : List Expr) (keywords : List Keyword) (body : List Stmt)
    (decorators : List Expr) (line : Nat)
  /-- Leave a function. -/
  | returnValue (value : Option Expr)
  /-- Delete targets. -/
  | delete (targets : List Expr)
  /-- Assign a value to one or more targets. -/
  | assign (targets : List Expr) (value : Expr)
  /-- Apply an operator to a target in place. -/
  | augAssign (target : Expr) (operator : BinaryOperator) (value : Expr)
  /-- Annotate a target and perhaps assign to it. The target is simple, which is written as one, if
  it is a bare name. -/
  | annAssign (target annotation : Expr) (value : Option Expr) (simple : UInt8)
  /-- Run over a sequence. -/
  | forLoop (isAsync : Bool) (target iter : Expr) (body orelse : List Stmt)
  /-- Run while a condition holds. -/
  | whileLoop (test : Expr) (body orelse : List Stmt)
  /-- Choose by a condition. -/
  | ifElse (test : Expr) (body orelse : List Stmt)
  /-- Run inside contexts. -/
  | withItems (isAsync : Bool) (items : List WithItem) (body : List Stmt)
  /-- Raise an exception. -/
  | raise (exception cause : Option Expr)
  /-- Handle exceptions. -/
  | tryExcept (body : List Stmt) (handlers : List ExceptHandler) (orelse final : List Stmt)
  /-- Assert a condition. -/
  | assert (test : Expr) (message : Option Expr)
  /-- Import modules. -/
  | importModules (names : List Alias)
  /-- Import names from a module, with the number of leading points, below 2 ^ 32 in the program. -/
  | importFrom (module : Option String) (names : List Alias) (level : Nat)
  /-- Use names of the module. -/
  | globals (names : List String)
  /-- Use names of an enclosing function. -/
  | nonlocals (names : List String)
  /-- Evaluate an expression. -/
  | expr (value : Expr)
  /-- Do nothing. -/
  | pass
  /-- Leave a loop. -/
  | breakLoop
  /-- Go on with the next turn of a loop. -/
  | continueLoop

/-- A handler of a try statement. -/
structure ExceptHandler where
  /-- The exceptions that it handles; all without one. -/
  type : Option Expr
  /-- The name of the exception. -/
  name : Option String
  /-- The statements. -/
  body : List Stmt

end

instance : Inhabited Stmt := ⟨.pass⟩

/-- The root of a tree. -/
inductive Root where
  /-- The statements of a module. -/
  | module (body : List Stmt)
  /-- One statement line of a dialogue. -/
  | interactive (body : List Stmt)
  /-- One expression. -/
  | expression (body : Expr)
  deriving Inhabited

/-- The kind of an expression. -/
def Expr.kind : Expr → String
  | .boolOp .. => "BoolOp"
  | .binOp .. => "BinOp"
  | .unaryOp .. => "UnaryOp"
  | .lambda .. => "Lambda"
  | .ifExp .. => "IfExp"
  | .dict .. => "Dict"
  | .set .. => "Set"
  | .listComp .. => "ListComp"
  | .setComp .. => "SetComp"
  | .dictComp .. => "DictComp"
  | .generator .. => "GeneratorExp"
  | .await .. => "Await"
  | .yield .. => "Yield"
  | .yieldFrom .. => "YieldFrom"
  | .compare .. => "Compare"
  | .call .. => "Call"
  | .num .. => "Num"
  | .str .. => "Str"
  | .bytes .. => "Bytes"
  | .constant .. => "NameConstant"
  | .ellipsis => "Ellipsis"
  | .attribute .. => "Attribute"
  | .subscript .. => "Subscript"
  | .starred .. => "Starred"
  | .name .. => "Name"
  | .list .. => "List"
  | .tuple .. => "Tuple"

/-- The kind of a slice. -/
def Slice.kind : Slice → String
  | .range .. => "Slice"
  | .dimensions .. => "ExtSlice"
  | .index .. => "Index"

/-- The kind of a statement. -/
def Stmt.kind : Stmt → String
  | .functionDef isAsync .. => if isAsync then "AsyncFunctionDef" else "FunctionDef"
  | .classDef .. => "ClassDef"
  | .returnValue .. => "Return"
  | .delete .. => "Delete"
  | .assign .. => "Assign"
  | .augAssign .. => "AugAssign"
  | .annAssign .. => "AnnAssign"
  | .forLoop isAsync .. => if isAsync then "AsyncFor" else "For"
  | .whileLoop .. => "While"
  | .ifElse .. => "If"
  | .withItems isAsync .. => if isAsync then "AsyncWith" else "With"
  | .raise .. => "Raise"
  | .tryExcept .. => "Try"
  | .assert .. => "Assert"
  | .importModules .. => "Import"
  | .importFrom .. => "ImportFrom"
  | .globals .. => "Global"
  | .nonlocals .. => "Nonlocal"
  | .expr .. => "Expr"
  | .pass => "Pass"
  | .breakLoop => "Break"
  | .continueLoop => "Continue"

/-- The kind of a root. -/
def Root.kind : Root → String
  | .module .. => "Module"
  | .interactive .. => "Interactive"
  | .expression .. => "Expression"

/-- Parameters of which there are none. -/
def Arguments.none : Arguments := ⟨[], .none, [], [], .none, []⟩

end Offside
