import Offside.Token

/-!
# Rules and powers

A grammar says what each token means at each place: which rule reads an operand that starts with
it, which rule reads an operator that it is and how strongly that operator binds, and which rule
reads a statement that it starts. Rules are named here and read elsewhere, so that a grammar is
data: it can be looked up, compared and changed.
-/
namespace Offside

/-- How strongly an operator binds its operands. The greater power binds more tightly. -/
abbrev Power := Nat

namespace Power

/-- Any operator. -/
def any : Power := 0

/-- The value of a yield expression, which may be a tuple. -/
def yieldValue : Power := 4

/-- The comma of a tuple. -/
def comma : Power := 5

/-- Stops before a comma: elements, arguments, indexes. -/
def untilComma : Power := 6

/-- A clause of a comprehension. -/
def comprehension : Power := 7

/-- The body of a function without a name. -/
def lambda : Power := 10

/-- The last operand of a conditional expression. -/
def orelse : Power := 19

/-- A conditional expression. -/
def conditional : Power := 20

/-- The operator or. -/
def or : Power := 30

/-- The operator and. -/
def and : Power := 40

/-- The operator not. -/
def not : Power := 50

/-- The comparisons. -/
def comparison : Power := 60

/-- The operator on bits that is written as a bar. -/
def bitOr : Power := 70

/-- The operator on bits that is written as a circumflex. -/
def bitXor : Power := 80

/-- The operator on bits that is written as an ampersand. -/
def bitAnd : Power := 90

/-- The shifts. -/
def shift : Power := 100

/-- Sums and differences. -/
def additive : Power := 110

/-- Products and quotients. -/
def multiplicative : Power := 120

/-- The signs and the complement. -/
def unary : Power := 130

/-- Powers. -/
def power : Power := 140

/-- The operand of await. -/
def await : Power := 150

/-- Targets and decorators: members, subscripts and calls alone. -/
def target : Power := 159

/-- Members, subscripts and calls. -/
def postfixed : Power := 160

/-- String literals side by side. -/
def adjacent : Power := 200

/-- The power with which an operator that groups to the right reads its right operand. -/
def rightAssociative (power : Power) : Power := power - 1

end Power

/-- A rule that reads the start of an operand. -/
inductive PrefixRule where
  /-- A name. -/
  | name
  /-- A number literal. -/
  | number
  /-- A string literal. -/
  | string
  /-- A constant that is written as a word. -/
  | constant
  /-- Three points. -/
  | ellipsis
  /-- An operator before its operand. -/
  | unary
  /-- A star before an expression. -/
  | starred
  /-- The word await. -/
  | await
  /-- The word yield. -/
  | yield
  /-- The word lambda. -/
  | lambda
  /-- Parentheses. -/
  | grouping
  /-- Square brackets. -/
  | list
  /-- Braces. -/
  | brace
  deriving DecidableEq, Inhabited, Repr

/-- A rule that reads on behind an operand. -/
inductive InfixRule where
  /-- A comma. -/
  | tuple
  /-- A clause of a comprehension. -/
  | comprehension
  /-- A condition and the other expression. -/
  | conditional
  /-- The operators and and or. -/
  | boolean
  /-- A comparison. -/
  | comparison
  /-- A binary operator that groups to the left. -/
  | binary
  /-- The binary operator that groups to the right. -/
  | power
  /-- A further string literal. -/
  | adjacent
  /-- A member. -/
  | member
  /-- A subscript. -/
  | subscript
  /-- A call. -/
  | call
  deriving DecidableEq, Inhabited, Repr

/-- A rule that reads a statement. -/
inductive StatementRule where
  /-- The definition of a function. -/
  | functionDef
  /-- The word async before a definition, a loop or contexts. -/
  | async
  /-- The definition of a class. -/
  | classDef
  /-- A choice. -/
  | ifElse
  /-- A loop over a sequence. -/
  | forLoop
  /-- A loop under a condition. -/
  | whileLoop
  /-- Contexts. -/
  | withItems
  /-- Handled exceptions. -/
  | tryExcept
  /-- The import of modules. -/
  | importModules
  /-- The import of names from a module. -/
  | importFrom
  /-- The end of a loop. -/
  | breakLoop
  /-- The next turn of a loop. -/
  | continueLoop
  /-- Nothing. -/
  | pass
  /-- The end of a function. -/
  | returnValue
  /-- An exception. -/
  | raise
  /-- An assertion. -/
  | assert
  /-- Deletion. -/
  | delete
  /-- Names of the module. -/
  | globals
  /-- Names of an enclosing function. -/
  | nonlocals
  deriving DecidableEq, Inhabited, Repr

/-- What a token means in expressions. -/
structure Behavior where
  /-- The power with which it binds the operand before it. -/
  power : Power := 0
  /-- The rule for an operand that starts with it. -/
  prefixRule : Option PrefixRule := none
  /-- The rule for going on with it behind an operand. -/
  infixRule : Option InfixRule := none
  deriving DecidableEq, Inhabited, Repr

/-- The behavior of a token that starts operands. -/
def Behavior.starting (rule : PrefixRule) : Behavior :=
  { prefixRule := some rule }

/-- The behavior of a token that goes on behind operands. -/
def Behavior.joining (power : Power) (rule : InfixRule) : Behavior :=
  { power, infixRule := some rule }

/-- The behavior of a token that does both. -/
def Behavior.both (start : PrefixRule) (power : Power) (rule : InfixRule) : Behavior :=
  ⟨power, some start, some rule⟩

/-- The meanings of tokens. -/
structure Grammar where
  /-- The behaviors of kinds. They come before the behaviors of texts. -/
  byKind : List (Kind × Behavior)
  /-- The behaviors of names and operators. -/
  byText : List (String × Behavior)
  /-- The words that start compound statements. -/
  compound : List (String × StatementRule)
  /-- The words that start simple statements. -/
  simple : List (String × StatementRule)
  deriving Inhabited

/-- The grammar of the language. -/
def Grammar.standard : Grammar where
  byKind :=
    [(.number, .starting .number),
     (.string, .both .string Power.adjacent .adjacent)]
  byText :=
    [(",", .joining Power.comma .tuple),
     ("yield", .starting .yield),
     ("for", .joining Power.comprehension .comprehension),
     ("async", .joining Power.comprehension .comprehension),
     ("lambda", .starting .lambda),
     ("if", .joining Power.conditional .conditional),
     ("or", .joining Power.or .boolean),
     ("and", .joining Power.and .boolean),
     ("not", .both .unary Power.comparison .comparison),
     ("==", .joining Power.comparison .comparison),
     ("!=", .joining Power.comparison .comparison),
     ("<", .joining Power.comparison .comparison),
     ("<=", .joining Power.comparison .comparison),
     (">", .joining Power.comparison .comparison),
     (">=", .joining Power.comparison .comparison),
     ("is", .joining Power.comparison .comparison),
     ("in", .joining Power.comparison .comparison),
     ("|", .joining Power.bitOr .binary),
     ("^", .joining Power.bitXor .binary),
     ("&", .joining Power.bitAnd .binary),
     ("<<", .joining Power.shift .binary),
     (">>", .joining Power.shift .binary),
     ("+", .both .unary Power.additive .binary),
     ("-", .both .unary Power.additive .binary),
     ("*", .both .starred Power.multiplicative .binary),
     ("@", .joining Power.multiplicative .binary),
     ("/", .joining Power.multiplicative .binary),
     ("//", .joining Power.multiplicative .binary),
     ("%", .joining Power.multiplicative .binary),
     ("**", .joining Power.power .power),
     ("~", .starting .unary),
     ("await", .starting .await),
     (".", .joining Power.postfixed .member),
     ("[", .both .list Power.postfixed .subscript),
     ("(", .both .grouping Power.postfixed .call),
     ("\x7b", .starting .brace),
     ("None", .starting .constant),
     ("True", .starting .constant),
     ("False", .starting .constant),
     ("...", .starting .ellipsis)]
  compound :=
    [("def", .functionDef), ("async", .async), ("class", .classDef), ("if", .ifElse),
     ("for", .forLoop), ("while", .whileLoop), ("with", .withItems), ("try", .tryExcept)]
  simple :=
    [("import", .importModules), ("from", .importFrom), ("break", .breakLoop),
     ("continue", .continueLoop), ("pass", .pass), ("return", .returnValue), ("raise", .raise),
     ("assert", .assert), ("del", .delete), ("global", .globals), ("nonlocal", .nonlocals)]

/-- A table in which the entry of a key is changed. A key without an entry starts with the given
one. -/
def changeEntry {α β : Type} [BEq α] (key : α) (fresh : β) (change : β → β) :
    List (α × β) → List (α × β)
  | [] => [(key, change fresh)]
  | (found, entry) :: rest =>
    if found == key then (found, change entry) :: rest
    else (found, entry) :: changeEntry key fresh change rest

namespace Grammar

/-- What a token means in expressions: what its kind means, or else what its text means if it is
a name or an operator. -/
def behavior? (grammar : Grammar) (token : Token) : Option Behavior :=
  match grammar.byKind.lookup token.kind with
  | some behavior => some behavior
  | none =>
    if token.kind = .name ∨ token.kind = .operator then grammar.byText.lookup token.value
    else none

/-- The rule of a table for the statements that start with a token. -/
def statementRule? (table : List (String × StatementRule)) (token : Token) :
    Option StatementRule :=
  if token.kind = .name then table.lookup token.value else none

/-- Give a name or an operator a rule for starting operands. -/
def setPrefix (grammar : Grammar) (text : String) (rule : PrefixRule) : Grammar :=
  { grammar with
    byText := changeEntry text {} (fun entry => { entry with prefixRule := some rule })
      grammar.byText }

/-- Give a name or an operator a power and a rule for going on behind operands. -/
def setInfix (grammar : Grammar) (text : String) (power : Power) (rule : InfixRule) : Grammar :=
  { grammar with
    byText := changeEntry text {} (fun entry => { entry with power, infixRule := some rule })
      grammar.byText }

/-- Give a kind a rule for starting operands. -/
def setKindPrefix (grammar : Grammar) (kind : Kind) (rule : PrefixRule) : Grammar :=
  { grammar with
    byKind := changeEntry kind {} (fun entry => { entry with prefixRule := some rule })
      grammar.byKind }

/-- Give a kind a power and a rule for going on behind operands. -/
def setKindInfix (grammar : Grammar) (kind : Kind) (power : Power) (rule : InfixRule) :
    Grammar :=
  { grammar with
    byKind := changeEntry kind {} (fun entry => { entry with power, infixRule := some rule })
      grammar.byKind }

/-- Let a word start compound statements. -/
def setCompound (grammar : Grammar) (word : String) (rule : StatementRule) : Grammar :=
  { grammar with compound := changeEntry word rule (fun _ => rule) grammar.compound }

/-- Let a word start simple statements. -/
def setSimple (grammar : Grammar) (word : String) (rule : StatementRule) : Grammar :=
  { grammar with simple := changeEntry word rule (fun _ => rule) grammar.simple }

end Grammar

end Offside
