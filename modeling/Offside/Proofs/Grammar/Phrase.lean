import Offside.Proofs.Expression.Climbing

/-!
# Phrases

The grammar as productions. A phrase is what one of the parsers reads, with what it is given and
what it makes; a loop is a phrase that goes on with what has been found so far. A production says
of which terminals and phrases a phrase is made up, and `Derives` which tokens they cover.
Productions do not look ahead, so they allow what a parser reads and more.
-/
namespace Offside

open Literal

/-- The kind marks the layout and is no lexeme. -/
def Kind.isLayout : Kind → Bool
  | .newline | .indent | .dedent => true
  | _ => false

/-- What a production asks of one token. -/
inductive Terminal where
  /-- The given name or operator. -/
  | text (text : String)
  /-- The given name or operator on a line. -/
  | word (text : String) (line : Nat)
  /-- A name that is no reserved word. -/
  | identifier (id : String)
  /-- A name, reserved or not. -/
  | name (id : String)
  /-- A number literal with its value. -/
  | number (value : Number)
  /-- A string literal with its value. -/
  | string (value : Quoted)
  /-- A mark of the layout. -/
  | layout (kind : Kind)
  /-- An operator that applies another one in place. -/
  | augmented (operator : BinaryOperator)

/-- The token is what a terminal asks for. -/
def Terminal.Admits (token : Token) : Terminal → Prop
  | .text written => token.isText written = true
  | .word written line => token.isText written = true ∧ token.line = line
  | .identifier id => token.kind = .name ∧ token.value = id ∧ isReserved id = false
  | .name id => token.kind = .name ∧ token.value = id
  | .number value => token.kind = .number ∧ decodeNumber token.value = .ok value
  | .string value => token.kind = .string ∧ decodeString token.value = .ok value
  | .layout kind => token.kind = kind ∧ kind.isLayout = true
  | .augmented operator =>
    token.kind = .operator ∧ BinaryOperator.ofAugmented? token.value = some operator

/-- What a parser reads. Where a phrase has something found, it goes on behind that and makes all
of it. -/
inductive Phrase where
  /-- An operand with what is read on behind it. -/
  | operand (power : Nat) (out : Parsed)
  /-- The start of an operand. -/
  | start (out : Parsed)
  /-- What is read on behind an operand, as far as it binds more tightly than a power. -/
  | climb (power : Nat) (left out : Parsed)
  /-- What one rule reads on behind an operand. -/
  | join (power : Nat) (left out : Parsed)
  /-- An operand that may be missing. -/
  | optionalOperand (power : Nat) (out : Option Parsed)
  /-- An expression that may be missing. -/
  | optional (power : Nat) (out : Option Expr)
  /-- An expression. -/
  | expr (power : Nat) (out : Expr)
  /-- A target that may be missing. -/
  | optionalTarget (context : Context) (power : Nat) (out : Option Expr)
  /-- A target. -/
  | target (context : Context) (power : Nat) (out : Expr)
  /-- Further targets, each behind a comma. -/
  | moreTargets (found out : List Expr)
  /-- A target and what it runs over. -/
  | forIn (power : Nat) (target iter : Expr)
  /-- The conditions of a clause. -/
  | conditions (found out : List Expr)
  /-- A clause of a comprehension. -/
  | clause (out : Comprehension)
  /-- The elements up to a square bracket. -/
  | elements (found : List Expr) (out : Parsed)
  /-- What stands behind an opening brace. -/
  | braces (out : Parsed)
  /-- An entry with a key, or a mapping that is unpacked. -/
  | pair (key : Option Expr) (value : Expr)
  /-- The entries of a dictionary up to a brace. -/
  | pairs (keys : List (Option Expr)) (values : List Expr) (out : Parsed)
  /-- The elements of a set up to a brace. -/
  | members (found : List Expr) (out : Parsed)
  /-- The elements of a tuple behind a comma. -/
  | tuple (power : Nat) (found out : List Expr)
  /-- The words of a comparison. -/
  | comparison (operator : Comparison)
  /-- One dimension of a subscript. -/
  | dimension (out : Slice)
  /-- The dimensions of a subscript. -/
  | dimensions (found : List Slice) (commas : Bool) (out : List Slice × Bool)
  /-- An argument of a call. -/
  | argument (found out : CallArguments)
  /-- The arguments of a call. -/
  | arguments (found out : CallArguments)
  /-- A parameter with its annotation. -/
  | parameter (signature : Signature) (out : Arg)
  /-- A default that may be missing. -/
  | default (out : Option Expr)
  /-- A parameter with its stars or its default. -/
  | nextParameter (signature : Signature) (found out : Collected)
  /-- Parameters. -/
  | parameters (signature : Signature) (found : Collected) (out : Arguments)
  /-- Targets of an assignment and its value. -/
  | assignment (found : List Expr) (value : Expr) (targets : List Expr) (last : Expr)
  /-- Targets of a deletion. -/
  | deleteTargets (found out : List Expr)
  /-- Names behind commas. -/
  | names (found out : List String)
  /-- Names behind points. -/
  | dotted (found out : String)
  /-- The name of a module. -/
  | dottedName (out : String)
  /-- The word as and a name, which may be missing. -/
  | asName (out : Option String)
  /-- Modules that are imported. -/
  | modules (found out : List Alias)
  /-- Points before the name of a module. -/
  | points (found out : Nat)
  /-- Names that are imported. -/
  | importedNames (parenthesized : Bool) (found out : List Alias)
  /-- What is imported from a module. -/
  | importedList (out : List Alias)
  /-- A simple statement. -/
  | small (out : Stmt)
  /-- Further simple statements of a line. -/
  | moreSmall (found out : List Stmt)
  /-- A line of simple statements. -/
  | line (out : List Stmt)
  /-- The statements of an indented block. -/
  | block (found out : List Stmt)
  /-- A block behind a colon. -/
  | suite (out : List Stmt)
  /-- A colon and the block behind it. -/
  | colonSuite (out : List Stmt)
  /-- A word and the block behind it, which may be missing. -/
  | optionalSuite (word : String) (out : List Stmt)
  /-- An arrow and an annotation, which may be missing. -/
  | returns (out : Option Expr)
  /-- The definition of a function, from the word def on. -/
  | functionDef (isAsync : Bool) (line : Nat) (decorators : List Expr) (out : Stmt)
  /-- The arguments of a class in parentheses, which may be missing. -/
  | classArguments (out : CallArguments)
  /-- A loop over a sequence, from the word for on. -/
  | forLoop (isAsync : Bool) (out : Stmt)
  /-- A context with its target. -/
  | withItem (out : WithItem)
  /-- Contexts between commas. -/
  | withItems (found out : List WithItem)
  /-- Contexts and the block inside them, from the word with on. -/
  | withBlock (isAsync : Bool) (out : Stmt)
  /-- A word, a condition and its block. -/
  | condition (word : String) (test : Expr) (body : List Stmt)
  /-- Further conditions of a choice. -/
  | elifs (found out : List (Expr × List Stmt))
  /-- A handler, behind the word except. -/
  | handler (out : ExceptHandler)
  /-- Handlers. -/
  | handlers (found out : List ExceptHandler)
  /-- A compound statement, with the decorators before it. -/
  | compound (decorators : List Expr) (out : Stmt)
  /-- Decorators. -/
  | decorators (found out : List Expr)
  /-- A statement line. -/
  | statement (out : List Stmt)
  /-- The statements of a module. -/
  | body (found out : List Stmt)
  /-- Line ends. -/
  | lineEnds
  /-- All of a text. -/
  | root (out : Root)

/-- A part of a production. -/
inductive Symbol where
  /-- One token. -/
  | terminal (terminal : Terminal)
  /-- A phrase. -/
  | phrase (phrase : Phrase)
  /-- No token: expressions that have been found are dropped. -/
  | dropped (elements : List Expr)

namespace Symbol

/-- The given name or operator. -/
abbrev text (text : String) : Symbol := .terminal (.text text)

/-- A name that is no reserved word. -/
abbrev identifier (id : String) : Symbol := .terminal (.identifier id)

/-- An expression. -/
abbrev expr (power : Nat) (out : Expr) : Symbol := .phrase (.expr power out)

/-- An expression that may be missing. -/
abbrev optional (power : Nat) (out : Option Expr) : Symbol := .phrase (.optional power out)

/-- An operand. -/
abbrev operand (power : Nat) (out : Parsed) : Symbol := .phrase (.operand power out)

/-- The end of a logical line. -/
abbrev newline : Symbol := .terminal (.layout .newline)

end Symbol

/-- The texts of the tokens whose operands a rule reads. -/
def PrefixRule.texts (rule : PrefixRule) : List String :=
  (Grammar.standard.byText.filter fun entry => entry.2.prefixRule = some rule).map Prod.fst

/-- The expression is no comprehension without brackets. -/
def Parsed.Bare (parsed : Parsed) : Prop := parsed.form ≠ .comprehension

/-- The productions of expressions and parameters. -/
inductive ExprProduction : Phrase → List Symbol → Prop where
  /-- An operand starts and is read on. -/
  | operand {power : Nat} {first out : Parsed} :
      ExprProduction (.operand power out) [.phrase (.start first), .phrase (.climb power first out)]
  /-- Nothing is read on. -/
  | climbed {power : Nat} {out : Parsed} : ExprProduction (.climb power out out) []
  /-- An operator that binds more tightly is read on. -/
  | climb {power found : Nat} {left next out : Parsed} (tighter : power < found) :
      ExprProduction (.climb power left out)
        [.phrase (.join found left next), .phrase (.climb power next out)]
  /-- A name. -/
  | name {id : String} : ExprProduction (.start (.plain (.name id .load))) [.identifier id]
  /-- A number. -/
  | number {value : Number} :
      ExprProduction (.start (.plain (.num value))) [.terminal (.number value)]
  /-- A string literal. -/
  | string {value : Quoted} :
      ExprProduction (.start (.plain value.expr)) [.terminal (.string value)]
  /-- A constant. -/
  | constant {text : String} (listed : text ∈ PrefixRule.constant.texts) :
      ExprProduction (.start (.plain (.constant (.ofWord text)))) [.text text]
  /-- Three points. -/
  | ellipsis : ExprProduction (.start (.plain .ellipsis)) [.text "..."]
  /-- An operator before its operand. -/
  | unary {text : String} {operand : Expr} (listed : text ∈ PrefixRule.unary.texts) :
      ExprProduction (.start (.plain (.unaryOp (unaryOperator text).1 operand)))
        [.text text, .expr (unaryOperator text).2 operand]
  /-- A star before an expression. -/
  | starred {value : Expr} :
      ExprProduction (.start (.plain (.starred value .load))) [.text "*", .expr Power.target value]
  /-- The word await. -/
  | await {value : Expr} :
      ExprProduction (.start (.plain (.await value))) [.text "await", .expr Power.await value]
  /-- The words yield from. -/
  | yieldFrom {value : Expr} :
      ExprProduction (.start (.plain (.yieldFrom value)))
        [.text "yield", .text "from", .expr Power.yieldValue value]
  /-- The word yield. -/
  | yield {value : Option Expr} :
      ExprProduction (.start (.plain (.yield value)))
        [.text "yield", .optional Power.yieldValue value]
  /-- A function without a name. -/
  | lambda {parameters : Arguments} {body : Expr} :
      ExprProduction (.start (.plain (.lambda parameters body)))
        [.text "lambda", .phrase (.parameters .lambda ⟨.none, false⟩ parameters), .text ":",
          .expr Power.lambda body]
  /-- The empty tuple. -/
  | emptyTuple : ExprProduction (.start (.plain (.tuple [] .load))) [.text "(", .text ")"]
  /-- An operand in parentheses. -/
  | grouped {parsed : Parsed} :
      ExprProduction (.start ⟨parsed.expr, .grouped⟩)
        [.text "(", .operand Power.any parsed, .text ")"]
  /-- A display in square brackets. -/
  | list {out : Parsed} : ExprProduction (.start out) [.text "[", .phrase (.elements [] out)]
  /-- A display in braces. -/
  | brace {out : Parsed} : ExprProduction (.start out) [.text "\x7b", .phrase (.braces out)]
  /-- A comma. -/
  | tuple {left : Parsed} {elements : List Expr} (bare : left.Bare) :
      ExprProduction (.join Power.comma left (.plain (.tuple elements .load)))
        [.text ",", .phrase (.tuple Power.comma [left.expr] elements)]
  /-- The first clause of a comprehension. -/
  | firstClause {left : Parsed} {clause : Comprehension} (bare : left.Bare) :
      ExprProduction (.join Power.comprehension left (.comprehension left.expr [clause]))
        [.phrase (.clause clause)]
  /-- A further clause of a comprehension. -/
  | furtherClause {left : Parsed} {element : Expr} {clauses : List Comprehension}
      {clause : Comprehension} (open_ : left.clauses? = some (element, clauses)) :
      ExprProduction (.join Power.comprehension left (.comprehension element (clauses ++ [clause])))
        [.phrase (.clause clause)]
  /-- A condition and the other expression. -/
  | conditional {left : Parsed} {test orelse : Expr} (bare : left.Bare) :
      ExprProduction (.join Power.conditional left (.plain (.ifExp test left.expr orelse)))
        [.text "if", .expr Power.conditional test, .text "else", .expr Power.orelse orelse]
  /-- A condition that is joined to another one. -/
  | boolean {left : Parsed} {operator : BooleanOperator} {right : Expr} (bare : left.Bare) :
      ExprProduction (.join operator.power left (.plain (.boolOp operator [left.expr, right])))
        [.text operator.text, .expr operator.power right]
  /-- A further condition in a chain. -/
  | booleanChain {operator : BooleanOperator} {values : List Expr} {right : Expr} :
      ExprProduction (.join operator.power (.plain (.boolOp operator values))
          (.plain (.boolOp operator (values ++ [right]))))
        [.text operator.text, .expr operator.power right]
  /-- A comparison. -/
  | compare {left : Parsed} {operator : Comparison} {right : Expr} (bare : left.Bare) :
      ExprProduction (.join Power.comparison left (.plain (.compare left.expr [operator] [right])))
        [.phrase (.comparison operator), .expr Power.comparison right]
  /-- A further comparison in a chain. -/
  | compareChain {first : Expr} {operators : List Comparison} {comparators : List Expr}
      {operator : Comparison} {right : Expr} :
      ExprProduction (.join Power.comparison (.plain (.compare first operators comparators))
          (.plain (.compare first (operators ++ [operator]) (comparators ++ [right]))))
        [.phrase (.comparison operator), .expr Power.comparison right]
  /-- A comparison of one word. -/
  | comparison {text : String} {operator : Comparison}
      (written : Comparison.ofText? text = some operator) :
      ExprProduction (.comparison operator) [.text text]
  /-- The words not in. -/
  | notIn : ExprProduction (.comparison .notIn) [.text "not", .text "in"]
  /-- The words is not. -/
  | isNot : ExprProduction (.comparison .isNot) [.text "is", .text "not"]
  /-- A binary operator that groups to the left. -/
  | binary {left : Parsed} {operator : BinaryOperator} {right : Expr} (bare : left.Bare)
      (leftward : operator ≠ .pow) :
      ExprProduction (.join operator.power left (.plain (.binOp left.expr operator right)))
        [.text operator.text, .expr operator.power right]
  /-- The binary operator that groups to the right. -/
  | power {left : Parsed} {right : Expr} (bare : left.Bare) :
      ExprProduction (.join Power.power left (.plain (.binOp left.expr .pow right)))
        [.text "**", .expr Power.power.rightAssociative right]
  /-- A further text literal. -/
  | adjacentText {first second : String} {form : Form} :
      ExprProduction (.join Power.adjacent ⟨.str first, form⟩ ⟨.str (first ++ second), form⟩)
        [.terminal (.string (.text second))]
  /-- A further bytes literal. -/
  | adjacentBytes {first second : List UInt8} {form : Form} :
      ExprProduction (.join Power.adjacent ⟨.bytes first, form⟩ ⟨.bytes (first ++ second), form⟩)
        [.terminal (.string (.bytes second))]
  /-- A member. -/
  | member {left : Parsed} {id : String} (bare : left.Bare) :
      ExprProduction (.join Power.postfixed left (.plain (.attribute left.expr id .load)))
        [.text ".", .terminal (.name id)]
  /-- A subscript. -/
  | subscript {left : Parsed} {found : List Slice} {commas : Bool} (bare : left.Bare) :
      ExprProduction
        (.join Power.postfixed left
          (.plain (.subscript left.expr (.ofDimensions found commas) .load)))
        [.text "[", .phrase (.dimensions [] false (found, commas)), .text "]"]
  /-- A call. -/
  | call {left : Parsed} {found : CallArguments} (bare : left.Bare) :
      ExprProduction
        (.join Power.postfixed left (.plain (.call left.expr found.positional found.keywords)))
        [.text "(", .phrase (.arguments ⟨[], []⟩ found), .text ")"]
  /-- No operand. -/
  | noOperand {power : Nat} : ExprProduction (.optionalOperand power none) []
  /-- An operand. -/
  | someOperand {power : Nat} {parsed : Parsed} :
      ExprProduction (.optionalOperand power (some parsed)) [.operand power parsed]
  /-- No expression. -/
  | noExpr {power : Nat} :
      ExprProduction (.optional power none) [.phrase (.optionalOperand power none)]
  /-- An expression. -/
  | someExpr {power : Nat} {parsed : Parsed} (bare : parsed.Bare) :
      ExprProduction (.optional power (some parsed.expr))
        [.phrase (.optionalOperand power (some parsed))]
  /-- An expression that is not missing. -/
  | expr {power : Nat} {out : Expr} : ExprProduction (.expr power out) [.optional power (some out)]
  /-- No target. -/
  | noTarget {context : Context} {power : Nat} :
      ExprProduction (.optionalTarget context power none) [.optional power none]
  /-- A target. -/
  | someTarget {context : Context} {power : Nat} {value out : Expr}
      (fits : value.withContext context = .ok out) :
      ExprProduction (.optionalTarget context power (some out)) [.optional power (some value)]
  /-- A target that is not missing. -/
  | target {context : Context} {power : Nat} {out : Expr} :
      ExprProduction (.target context power out)
        [.phrase (.optionalTarget context power (some out))]
  /-- No further target. -/
  | lastTarget {out : List Expr} : ExprProduction (.moreTargets out out) []
  /-- A trailing comma. -/
  | commaTarget {out : List Expr} : ExprProduction (.moreTargets out out) [.text ","]
  /-- A further target. -/
  | moreTargets {found out : List Expr} {target : Expr} :
      ExprProduction (.moreTargets found out)
        [.text ",", .phrase (.target .store Power.target target),
          .phrase (.moreTargets (found ++ [target]) out)]
  /-- One target. -/
  | forIn {power : Nat} {target iter : Expr} :
      ExprProduction (.forIn power target iter)
        [.phrase (.target .store Power.target target), .text "in", .expr power iter]
  /-- Several targets. -/
  | forInTuple {power : Nat} {first iter : Expr} {targets : List Expr} :
      ExprProduction (.forIn power (.tuple targets .store) iter)
        [.phrase (.target .store Power.target first), .phrase (.moreTargets [first] targets),
          .text "in", .expr power iter]
  /-- No further condition. -/
  | lastCondition {out : List Expr} : ExprProduction (.conditions out out) []
  /-- A further condition. -/
  | conditions {found out : List Expr} {test : Expr} :
      ExprProduction (.conditions found out)
        [.text "if", .expr Power.conditional test, .phrase (.conditions (found ++ [test]) out)]
  /-- A clause. -/
  | clause {target iter : Expr} {conditions : List Expr} :
      ExprProduction (.clause ⟨target, iter, conditions, 0⟩)
        [.text "for", .phrase (.forIn Power.conditional target iter),
          .phrase (.conditions [] conditions)]
  /-- An asynchronous clause. -/
  | asyncClause {target iter : Expr} {conditions : List Expr} :
      ExprProduction (.clause ⟨target, iter, conditions, 1⟩)
        [.text "async", .text "for", .phrase (.forIn Power.conditional target iter),
          .phrase (.conditions [] conditions)]
  /-- The end of a list. -/
  | listEnd {found : List Expr} :
      ExprProduction (.elements found (.plain (.list found .load))) [.text "]"]
  /-- A comprehension in square brackets. It drops the elements before it. -/
  | listComprehension {found : List Expr} {parsed : Parsed} {element : Expr}
      {clauses : List Comprehension} (open_ : parsed.clauses? = some (element, clauses)) :
      ExprProduction (.elements found (.plain (.listComp element clauses)))
        [.operand Power.untilComma parsed, .text "]", .dropped found]
  /-- The last element of a list. -/
  | lastElement {found : List Expr} {parsed : Parsed} (bare : parsed.Bare) :
      ExprProduction (.elements found (.plain (.list (found ++ [parsed.expr]) .load)))
        [.operand Power.untilComma parsed, .text "]"]
  /-- An element of a list and a comma. -/
  | elements {found : List Expr} {parsed out : Parsed} (bare : parsed.Bare) :
      ExprProduction (.elements found out)
        [.operand Power.untilComma parsed, .text ",",
          .phrase (.elements (found ++ [parsed.expr]) out)]
  /-- A comprehension of elements. -/
  | setComprehension {parsed : Parsed} {element : Expr} {clauses : List Comprehension}
      (open_ : parsed.clauses? = some (element, clauses)) :
      ExprProduction (.braces (.plain (.setComp element clauses)))
        [.operand Power.untilComma parsed, .text "\x7d"]
  /-- A comprehension of keys and values. -/
  | dictComprehension {key parsed : Parsed} {value : Expr} {clauses : List Comprehension}
      (bare : key.Bare) (open_ : parsed.clauses? = some (value, clauses)) :
      ExprProduction (.braces (.plain (.dictComp key.expr value clauses)))
        [.operand Power.untilComma key, .text ":", .operand Power.untilComma parsed,
          .text "\x7d"]
  /-- Nothing in braces. -/
  | emptyBraces : ExprProduction (.braces (.plain (.dict [] []))) [.text "\x7d"]
  /-- One entry of a dictionary. -/
  | onePair {key : Option Expr} {value : Expr} :
      ExprProduction (.braces (.plain (.dict [key] [value])))
        [.phrase (.pair key value), .text "\x7d"]
  /-- The first entry of a dictionary and a comma. -/
  | firstPair {key : Option Expr} {value : Expr} {out : Parsed} :
      ExprProduction (.braces out)
        [.phrase (.pair key value), .text ",", .phrase (.pairs [key] [value] out)]
  /-- One element of a set. -/
  | oneMember {parsed : Parsed} (bare : parsed.Bare) :
      ExprProduction (.braces (.plain (.set [parsed.expr])))
        [.operand Power.untilComma parsed, .text "\x7d"]
  /-- The first element of a set and a comma. -/
  | firstMember {parsed out : Parsed} (bare : parsed.Bare) :
      ExprProduction (.braces out)
        [.operand Power.untilComma parsed, .text ",", .phrase (.members [parsed.expr] out)]
  /-- A mapping that is unpacked. -/
  | mapping {value : Expr} :
      ExprProduction (.pair none value) [.text "**", .expr Power.untilComma value]
  /-- A key and a value. -/
  | pair {key value : Parsed} (named : key.Bare) (bare : value.Bare) :
      ExprProduction (.pair (some key.expr) value.expr)
        [.operand Power.untilComma key, .text ":", .operand Power.untilComma value]
  /-- The end of a dictionary. -/
  | dictEnd {keys : List (Option Expr)} {values : List Expr} :
      ExprProduction (.pairs keys values (.plain (.dict keys values))) [.text "\x7d"]
  /-- The last entry of a dictionary. -/
  | lastPair {keys : List (Option Expr)} {values : List Expr} {key : Option Expr} {value : Expr} :
      ExprProduction (.pairs keys values (.plain (.dict (keys ++ [key]) (values ++ [value]))))
        [.phrase (.pair key value), .text "\x7d"]
  /-- An entry of a dictionary and a comma. -/
  | pairs {keys : List (Option Expr)} {values : List Expr} {key : Option Expr} {value : Expr}
      {out : Parsed} :
      ExprProduction (.pairs keys values out)
        [.phrase (.pair key value), .text ",",
          .phrase (.pairs (keys ++ [key]) (values ++ [value]) out)]
  /-- The end of a set. -/
  | setEnd {found : List Expr} (some_ : found ≠ []) :
      ExprProduction (.members found (.plain (.set found))) [.text "\x7d"]
  /-- The last element of a set. -/
  | lastMember {found : List Expr} {parsed : Parsed} (bare : parsed.Bare) :
      ExprProduction (.members found (.plain (.set (found ++ [parsed.expr]))))
        [.operand Power.untilComma parsed, .text "\x7d"]
  /-- An element of a set and a comma. -/
  | members {found : List Expr} {parsed out : Parsed} (bare : parsed.Bare) :
      ExprProduction (.members found out)
        [.operand Power.untilComma parsed, .text ",",
          .phrase (.members (found ++ [parsed.expr]) out)]
  /-- The end of a tuple. -/
  | tupleEnd {power : Nat} {out : List Expr} : ExprProduction (.tuple power out out) []
  /-- The last element of a tuple. -/
  | tupleLast {power : Nat} {found : List Expr} {value : Expr} :
      ExprProduction (.tuple power found (found ++ [value])) [.expr power value]
  /-- An element of a tuple and a comma. -/
  | tupleMore {power : Nat} {found out : List Expr} {value : Expr} :
      ExprProduction (.tuple power found out)
        [.expr power value, .text ",", .phrase (.tuple power (found ++ [value]) out)]
  /-- An index. -/
  | index {value : Expr} :
      ExprProduction (.dimension (.index value)) [.optional Power.untilComma (some value)]
  /-- A range without a step. -/
  | range {lower upper : Option Expr} :
      ExprProduction (.dimension (.range lower upper none))
        [.optional Power.untilComma lower, .text ":", .optional Power.untilComma upper]
  /-- A range with a second colon. -/
  | steppedRange {lower upper step : Option Expr} :
      ExprProduction (.dimension (.range lower upper step))
        [.optional Power.untilComma lower, .text ":", .optional Power.untilComma upper,
          .text ":", .optional Power.untilComma step]
  /-- The last dimension. -/
  | lastDimension {found : List Slice} {commas : Bool} {slice : Slice} :
      ExprProduction (.dimensions found commas (found ++ [slice], commas))
        [.phrase (.dimension slice)]
  /-- The last dimension and a comma. -/
  | commaDimension {found : List Slice} {commas : Bool} {slice : Slice} :
      ExprProduction (.dimensions found commas (found ++ [slice], true))
        [.phrase (.dimension slice), .text ","]
  /-- A dimension and a comma. -/
  | dimensions {found : List Slice} {commas : Bool} {slice : Slice} {out : List Slice × Bool} :
      ExprProduction (.dimensions found commas out)
        [.phrase (.dimension slice), .text ",", .phrase (.dimensions (found ++ [slice]) true out)]
  /-- A mapping that is unpacked. -/
  | mappingArgument {found : CallArguments} {value : Expr} :
      ExprProduction (.argument found (found.addKeyword none value))
        [.text "**", .expr Power.untilComma value]
  /-- A sequence that is unpacked. -/
  | starredArgument {found : CallArguments} {value : Expr} :
      ExprProduction (.argument found (found.addPositional (.starred value .load)))
        [.text "*", .expr Power.untilComma value]
  /-- An argument by name. -/
  | keywordArgument {found : CallArguments} {parsed : Parsed} {id : String} {context : Context}
      {value : Expr} (named : parsed.expr = .name id context) :
      ExprProduction (.argument found (found.addKeyword (some id) value))
        [.operand Power.untilComma parsed, .text "=", .expr Power.untilComma value]
  /-- A comprehension without parentheses of its own. -/
  | generatorArgument {found : CallArguments} {parsed : Parsed} {element : Expr}
      {clauses : List Comprehension} (open_ : parsed.clauses? = some (element, clauses)) :
      ExprProduction (.argument found (found.addPositional (.generator element clauses)))
        [.operand Power.untilComma parsed]
  /-- An argument by position. -/
  | plainArgument {found : CallArguments} {parsed : Parsed} (bare : parsed.Bare) :
      ExprProduction (.argument found (found.addPositional parsed.expr))
        [.operand Power.untilComma parsed]
  /-- The end of the arguments. -/
  | argumentsEnd {out : CallArguments} : ExprProduction (.arguments out out) []
  /-- The last argument. -/
  | lastArgument {found out : CallArguments} :
      ExprProduction (.arguments found out) [.phrase (.argument found out)]
  /-- An argument and a comma. -/
  | arguments {found next out : CallArguments} :
      ExprProduction (.arguments found out)
        [.phrase (.argument found next), .text ",", .phrase (.arguments next out)]
  /-- A parameter. -/
  | parameter {signature : Signature} {name : String} :
      ExprProduction (.parameter signature ⟨name, none⟩) [.identifier name]
  /-- A parameter with an annotation. -/
  | annotatedParameter {name : String} {hint : Expr} :
      ExprProduction (.parameter .definition ⟨name, some hint⟩)
        [.identifier name, .text ":", .expr Power.untilComma hint]
  /-- No default. -/
  | noDefault : ExprProduction (.default none) []
  /-- A default. -/
  | someDefault {value : Expr} :
      ExprProduction (.default (some value)) [.text "=", .expr Power.untilComma value]
  /-- A star alone. -/
  | bareStar {signature : Signature} {found : Collected} (first : found.starred = false) :
      ExprProduction (.nextParameter signature found { found with starred := true }) [.text "*"]
  /-- A parameter behind a star. -/
  | starParameter {signature : Signature} {found : Collected} {arg : Arg}
      (first : found.starred = false) (fresh : found.parameters.vararg = none) :
      ExprProduction
        (.nextParameter signature found ⟨{ found.parameters with vararg := some arg }, true⟩)
        [.text "*", .phrase (.parameter signature arg)]
  /-- A parameter behind two stars. -/
  | doubleStarParameter {signature : Signature} {found : Collected} {arg : Arg}
      (fresh : found.parameters.kwarg = none) :
      ExprProduction
        (.nextParameter signature found
          { found with parameters := { found.parameters with kwarg := some arg } })
        [.text "**", .phrase (.parameter signature arg)]
  /-- A parameter that is given by name alone. -/
  | namedParameter {signature : Signature} {found : Collected} {arg : Arg}
      {default : Option Expr} (behind : found.starred = true) :
      ExprProduction
        (.nextParameter signature found
          { found with
            parameters := { found.parameters with
              kwonlyargs := found.parameters.kwonlyargs ++ [arg]
              kwDefaults := found.parameters.kwDefaults ++ [default] } })
        [.phrase (.parameter signature arg), .phrase (.default default)]
  /-- A parameter with a default. -/
  | defaultParameter {signature : Signature} {found : Collected} {arg : Arg} {value : Expr}
      (before : found.starred = false) :
      ExprProduction
        (.nextParameter signature found
          { found with
            parameters := { found.parameters with
              args := found.parameters.args ++ [arg]
              defaults := found.parameters.defaults ++ [value] } })
        [.phrase (.parameter signature arg), .phrase (.default (some value))]
  /-- A parameter without a default. -/
  | plainParameter {signature : Signature} {found : Collected} {arg : Arg}
      (before : found.starred = false) (first : found.parameters.defaults = []) :
      ExprProduction
        (.nextParameter signature found
          { found with
            parameters := { found.parameters with args := found.parameters.args ++ [arg] } })
        [.phrase (.parameter signature arg), .phrase (.default none)]
  /-- The end of the parameters. -/
  | parametersEnd {signature : Signature} {found : Collected} :
      ExprProduction (.parameters signature found found.parameters) []
  /-- The last parameter. -/
  | lastParameter {signature : Signature} {found next : Collected} :
      ExprProduction (.parameters signature found next.parameters)
        [.phrase (.nextParameter signature found next)]
  /-- A parameter and a comma. -/
  | parameters {signature : Signature} {found next : Collected} {out : Arguments} :
      ExprProduction (.parameters signature found out)
        [.phrase (.nextParameter signature found next), .text ",",
          .phrase (.parameters signature next out)]

/-- What an annotated target is made, simple or not, if it can be annotated. -/
def Expr.annotated? (target annotation : Expr) (value : Option Expr) (grouped : Bool) :
    Option Stmt :=
  match target with
  | .tuple .. | .list .. => none
  | .name .. => some (.annAssign target annotation value (!grouped).toUInt8)
  | _ => some (.annAssign target annotation value 0)

/-- The choice of a first condition or, where it does not hold, of others. -/
def Stmt.choice (test : Expr) (body : List Stmt) (others : List (Expr × List Stmt))
    (last : List Stmt) : Stmt :=
  .ifElse test body (others.foldr (fun (test, body) orelse => [.ifElse test body orelse]) last)

/-- The productions of statements and of all of a text. -/
inductive StmtProduction : Phrase → List Symbol → Prop where
  /-- An expression alone. -/
  | evaluate {parsed : Parsed} (bare : parsed.Bare) :
      StmtProduction (.small (.expr parsed.expr))
        [.phrase (.optionalOperand Power.any (some parsed))]
  /-- An assignment. -/
  | assign {parsed : Parsed} {target next value : Expr} {targets : List Expr} (bare : parsed.Bare)
      (fits : parsed.expr.withContext .store = .ok target) :
      StmtProduction (.small (.assign targets value))
        [.phrase (.optionalOperand Power.any (some parsed)), .text "=", .expr Power.any next,
          .phrase (.assignment [target] next targets value)]
  /-- An annotated target. -/
  | annotate {parsed : Parsed} {hint target : Expr} {out : Stmt} (bare : parsed.Bare)
      (fits : parsed.expr.withContext .store = .ok target)
      (made : target.annotated? hint none (parsed.form = .grouped) = some out) :
      StmtProduction (.small out)
        [.phrase (.optionalOperand Power.any (some parsed)), .text ":",
          .expr Power.any hint]
  /-- An annotated target with a value. -/
  | annotateAssign {parsed : Parsed} {hint first target next value : Expr} {out : Stmt}
      (bare : parsed.Bare) (fits : parsed.expr.withContext .store = .ok first)
      (made : target.annotated? hint (some value) (parsed.form = .grouped) = some out) :
      StmtProduction (.small out)
        [.phrase (.optionalOperand Power.any (some parsed)), .text ":",
          .expr Power.any hint, .text "=", .expr Power.any next,
          .phrase (.assignment [first] next [target] value)]
  /-- An augmented assignment. -/
  | augment {parsed : Parsed} {operator : BinaryOperator} {target value : Expr}
      (bare : parsed.Bare) (fits : parsed.expr.withContext .store = .ok target) :
      StmtProduction (.small (.augAssign target operator value))
        [.phrase (.optionalOperand Power.any (some parsed)), .terminal (.augmented operator),
          .expr Power.any value]
  /-- The value of an assignment. -/
  | assignmentEnd {targets : List Expr} {value : Expr} :
      StmtProduction (.assignment targets value targets value) []
  /-- An equals sign, before which a target stands. -/
  | assignment {found targets : List Expr} {value target next last : Expr}
      (fits : value.withContext .store = .ok target) :
      StmtProduction (.assignment found value targets last)
        [.text "=", .expr Power.any next,
          .phrase (.assignment (found ++ [target]) next targets last)]
  /-- Nothing. -/
  | pass : StmtProduction (.small .pass) [.text "pass"]
  /-- The end of a loop. -/
  | breakLoop : StmtProduction (.small .breakLoop) [.text "break"]
  /-- The next turn of a loop. -/
  | continueLoop : StmtProduction (.small .continueLoop) [.text "continue"]
  /-- The end of a function. -/
  | returnValue {value : Option Expr} :
      StmtProduction (.small (.returnValue value)) [.text "return", .optional Power.any value]
  /-- An exception, which may be missing. -/
  | raise {exception : Option Expr} :
      StmtProduction (.small (.raise exception none))
        [.text "raise", .optional Power.any exception]
  /-- An exception with its cause. -/
  | raiseFrom {exception cause : Expr} :
      StmtProduction (.small (.raise (some exception) (some cause)))
        [.text "raise", .optional Power.any (some exception), .text "from",
          .expr Power.any cause]
  /-- An assertion. -/
  | assert {test : Expr} :
      StmtProduction (.small (.assert test none)) [.text "assert", .expr Power.untilComma test]
  /-- An assertion with a message. -/
  | assertMessage {test message : Expr} :
      StmtProduction (.small (.assert test (some message)))
        [.text "assert", .expr Power.untilComma test, .text ",", .expr Power.untilComma message]
  /-- A deletion. -/
  | delete {targets : List Expr} (some_ : targets ≠ []) :
      StmtProduction (.small (.delete targets)) [.text "del", .phrase (.deleteTargets [] targets)]
  /-- No further target. -/
  | deleteEnd {found : List Expr} :
      StmtProduction (.deleteTargets found found)
        [.phrase (.optionalTarget .del Power.untilComma none)]
  /-- The last target. -/
  | deleteLast {found : List Expr} {target : Expr} :
      StmtProduction (.deleteTargets found (found ++ [target]))
        [.phrase (.optionalTarget .del Power.untilComma (some target))]
  /-- A target and a comma. -/
  | deleteTargets {found out : List Expr} {target : Expr} :
      StmtProduction (.deleteTargets found out)
        [.phrase (.optionalTarget .del Power.untilComma (some target)), .text ",",
          .phrase (.deleteTargets (found ++ [target]) out)]
  /-- Names of the module. -/
  | globals {first : String} {names : List String} :
      StmtProduction (.small (.globals names))
        [.text "global", .identifier first, .phrase (.names [first] names)]
  /-- Names of an enclosing function. -/
  | nonlocals {first : String} {names : List String} :
      StmtProduction (.small (.nonlocals names))
        [.text "nonlocal", .identifier first, .phrase (.names [first] names)]
  /-- No further name. -/
  | namesEnd {out : List String} : StmtProduction (.names out out) []
  /-- A further name. -/
  | names {found out : List String} {name : String} :
      StmtProduction (.names found out)
        [.text ",", .identifier name, .phrase (.names (found ++ [name]) out)]
  /-- No further part of a name. -/
  | dottedEnd {out : String} : StmtProduction (.dotted out out) []
  /-- A further part of a name. -/
  | dotted {found name out : String} :
      StmtProduction (.dotted found out)
        [.text ".", .identifier name, .phrase (.dotted (found ++ "." ++ name) out)]
  /-- The name of a module. -/
  | dottedName {first out : String} :
      StmtProduction (.dottedName out) [.identifier first, .phrase (.dotted first out)]
  /-- No other name. -/
  | noName : StmtProduction (.asName none) []
  /-- Another name. -/
  | asName {name : String} :
      StmtProduction (.asName (some name)) [.text "as", .identifier name]
  /-- The import of modules. -/
  | importModules {names : List Alias} :
      StmtProduction (.small (.importModules names)) [.text "import", .phrase (.modules [] names)]
  /-- The last module. -/
  | lastModule {found : List Alias} {name : String} {asname : Option String} :
      StmtProduction (.modules found (found ++ [⟨name, asname⟩]))
        [.phrase (.dottedName name), .phrase (.asName asname)]
  /-- A module and a comma. -/
  | modules {found out : List Alias} {name : String} {asname : Option String} :
      StmtProduction (.modules found out)
        [.phrase (.dottedName name), .phrase (.asName asname), .text ",",
          .phrase (.modules (found ++ [⟨name, asname⟩]) out)]
  /-- No further point. -/
  | pointsEnd {out : Nat} : StmtProduction (.points out out) []
  /-- A point. -/
  | point {found out : Nat} :
      StmtProduction (.points found out) [.text ".", .phrase (.points (found + 1) out)]
  /-- Three points in one token. -/
  | threePoints {found out : Nat} :
      StmtProduction (.points found out) [.text "...", .phrase (.points (found + 3) out)]
  /-- The import of names from a module. -/
  | importFrom {level : Nat} {name : String} {names : List Alias} :
      StmtProduction (.small (.importFrom (some name) names level))
        [.text "from", .phrase (.points 0 level), .phrase (.dottedName name), .text "import",
          .phrase (.importedList names)]
  /-- The import of names from a package. -/
  | importPackage {level : Nat} {names : List Alias} (some_ : 0 < level) :
      StmtProduction (.small (.importFrom none names level))
        [.text "from", .phrase (.points 0 level), .text "import", .phrase (.importedList names)]
  /-- A star for all names. -/
  | importStar : StmtProduction (.importedList [⟨"*", none⟩]) [.text "*"]
  /-- Names in parentheses. -/
  | importGrouped {names : List Alias} :
      StmtProduction (.importedList names)
        [.text "(", .phrase (.importedNames true [] names), .text ")"]
  /-- Names without parentheses. -/
  | importBare {names : List Alias} :
      StmtProduction (.importedList names) [.phrase (.importedNames false [] names)]
  /-- The last name. -/
  | lastImport {parenthesized : Bool} {found : List Alias} {name : String}
      {asname : Option String} :
      StmtProduction (.importedNames parenthesized found (found ++ [⟨name, asname⟩]))
        [.identifier name, .phrase (.asName asname)]
  /-- The last name and a comma, in parentheses. -/
  | commaImport {found : List Alias} {name : String} {asname : Option String} :
      StmtProduction (.importedNames true found (found ++ [⟨name, asname⟩]))
        [.identifier name, .phrase (.asName asname), .text ","]
  /-- A name and a comma. -/
  | importedNames {parenthesized : Bool} {found out : List Alias} {name : String}
      {asname : Option String} :
      StmtProduction (.importedNames parenthesized found out)
        [.identifier name, .phrase (.asName asname), .text ",",
          .phrase (.importedNames parenthesized (found ++ [⟨name, asname⟩]) out)]
  /-- A line of simple statements. -/
  | line {first : Stmt} {out : List Stmt} :
      StmtProduction (.line out)
        [.phrase (.small first), .phrase (.moreSmall [first] out), .newline]
  /-- No further statement. -/
  | smallEnd {out : List Stmt} : StmtProduction (.moreSmall out out) []
  /-- A trailing semicolon. -/
  | smallSemicolon {out : List Stmt} : StmtProduction (.moreSmall out out) [.text ";"]
  /-- A further statement. -/
  | moreSmall {found out : List Stmt} {stmt : Stmt} :
      StmtProduction (.moreSmall found out)
        [.text ";", .phrase (.small stmt), .phrase (.moreSmall (found ++ [stmt]) out)]
  /-- The end of a block. -/
  | blockEnd {out : List Stmt} : StmtProduction (.block out out) [.terminal (.layout .dedent)]
  /-- A statement line in a block. -/
  | block {found more out : List Stmt} :
      StmtProduction (.block found out)
        [.phrase (.statement more), .phrase (.block (found ++ more) out)]
  /-- An indented block. -/
  | indented {out : List Stmt} :
      StmtProduction (.suite out)
        [.newline, .terminal (.layout .indent), .phrase (.block [] out)]
  /-- A block on the rest of the line. -/
  | inline {out : List Stmt} : StmtProduction (.suite out) [.phrase (.line out)]
  /-- A colon and a block. -/
  | colonSuite {out : List Stmt} :
      StmtProduction (.colonSuite out) [.text ":", .phrase (.suite out)]
  /-- No block. -/
  | noSuite {word : String} : StmtProduction (.optionalSuite word []) []
  /-- A word and a block. -/
  | someSuite {word : String} {out : List Stmt} :
      StmtProduction (.optionalSuite word out) [.text word, .phrase (.colonSuite out)]
  /-- No annotation. -/
  | noReturns : StmtProduction (.returns none) []
  /-- An arrow and an annotation. -/
  | someReturns {hint : Expr} :
      StmtProduction (.returns (some hint)) [.text "->", .expr Power.any hint]
  /-- The definition of a function. Without the word async its line is that of the word def. -/
  | functionDef {isAsync : Bool} {line place : Nat} {name : String} {parameters : Arguments}
      {returns : Option Expr} {body : List Stmt} {decorators : List Expr}
      (same : isAsync = false → place = line) :
      StmtProduction
        (.functionDef isAsync line decorators
          (.functionDef isAsync name parameters body decorators returns line))
        [.terminal (.word "def" place), .identifier name, .text "(",
          .phrase (.parameters .definition ⟨.none, false⟩ parameters), .text ")",
          .phrase (.returns returns), .text ":", .phrase (.suite body)]
  /-- No arguments of a class. -/
  | noArguments : StmtProduction (.classArguments ⟨[], []⟩) []
  /-- Arguments of a class. -/
  | someArguments {found : CallArguments} :
      StmtProduction (.classArguments found)
        [.text "(", .phrase (.arguments ⟨[], []⟩ found), .text ")"]
  /-- A loop over a sequence. -/
  | forLoop {isAsync : Bool} {target iter : Expr} {body orelse : List Stmt} :
      StmtProduction (.forLoop isAsync (.forLoop isAsync target iter body orelse))
        [.text "for", .phrase (.forIn Power.any target iter), .phrase (.colonSuite body),
          .phrase (.optionalSuite "else" orelse)]
  /-- A context. -/
  | withItem {context : Expr} :
      StmtProduction (.withItem ⟨context, none⟩) [.expr Power.untilComma context]
  /-- A context with a target. -/
  | boundItem {context target : Expr} :
      StmtProduction (.withItem ⟨context, some target⟩)
        [.expr Power.untilComma context, .text "as",
          .phrase (.optionalTarget .store Power.untilComma (some target))]
  /-- The last context. -/
  | lastItem {found : List WithItem} {item : WithItem} :
      StmtProduction (.withItems found (found ++ [item])) [.phrase (.withItem item)]
  /-- A context and a comma. -/
  | withItems {found out : List WithItem} {item : WithItem} :
      StmtProduction (.withItems found out)
        [.phrase (.withItem item), .text ",", .phrase (.withItems (found ++ [item]) out)]
  /-- Contexts and the block inside them. -/
  | withBlock {isAsync : Bool} {items : List WithItem} {body : List Stmt} :
      StmtProduction (.withBlock isAsync (.withItems isAsync items body))
        [.text "with", .phrase (.withItems [] items), .phrase (.colonSuite body)]
  /-- A condition and its block. -/
  | condition {word : String} {test : Expr} {body : List Stmt} :
      StmtProduction (.condition word test body)
        [.text word, .expr Power.any test, .phrase (.colonSuite body)]
  /-- No further condition. -/
  | elifsEnd {out : List (Expr × List Stmt)} : StmtProduction (.elifs out out) []
  /-- A further condition. -/
  | elifs {found out : List (Expr × List Stmt)} {test : Expr} {body : List Stmt} :
      StmtProduction (.elifs found out)
        [.phrase (.condition "elif" test body), .phrase (.elifs (found ++ [(test, body)]) out)]
  /-- A handler of all exceptions. -/
  | handleAll {body : List Stmt} :
      StmtProduction (.handler ⟨none, none, body⟩) [.phrase (.colonSuite body)]
  /-- A handler. -/
  | handler {type : Expr} {name : Option String} {body : List Stmt} :
      StmtProduction (.handler ⟨some type, name, body⟩)
        [.expr Power.any type, .phrase (.asName name), .phrase (.colonSuite body)]
  /-- No further handler. -/
  | handlersEnd {out : List ExceptHandler} : StmtProduction (.handlers out out) []
  /-- A further handler. -/
  | handlers {found out : List ExceptHandler} {handler : ExceptHandler} :
      StmtProduction (.handlers found out)
        [.text "except", .phrase (.handler handler), .phrase (.handlers (found ++ [handler]) out)]
  /-- The definition of a function. -/
  | define {line : Nat} {decorators : List Expr} {out : Stmt} :
      StmtProduction (.compound decorators out) [.phrase (.functionDef false line decorators out)]
  /-- The definition of an asynchronous function. -/
  | defineAsync {line : Nat} {decorators : List Expr} {out : Stmt} :
      StmtProduction (.compound decorators out)
        [.terminal (.word "async" line), .phrase (.functionDef true line decorators out)]
  /-- The definition of a class. -/
  | classDef {line : Nat} {name : String} {found : CallArguments} {body : List Stmt}
      {decorators : List Expr} :
      StmtProduction
        (.compound decorators
          (.classDef name found.positional found.keywords body decorators line))
        [.terminal (.word "class" line), .identifier name, .phrase (.classArguments found),
          .text ":", .phrase (.suite body)]
  /-- A loop over a sequence. -/
  | loopOver {out : Stmt} : StmtProduction (.compound [] out) [.phrase (.forLoop false out)]
  /-- An asynchronous loop over a sequence. -/
  | loopOverAsync {line : Nat} {out : Stmt} :
      StmtProduction (.compound [] out)
        [.terminal (.word "async" line), .phrase (.forLoop true out)]
  /-- Contexts. -/
  | inside {out : Stmt} : StmtProduction (.compound [] out) [.phrase (.withBlock false out)]
  /-- Asynchronous contexts. -/
  | insideAsync {line : Nat} {out : Stmt} :
      StmtProduction (.compound [] out)
        [.terminal (.word "async" line), .phrase (.withBlock true out)]
  /-- A choice. -/
  | choice {test : Expr} {body last : List Stmt} {others : List (Expr × List Stmt)} :
      StmtProduction (.compound [] (.choice test body others last))
        [.phrase (.condition "if" test body), .phrase (.elifs [] others),
          .phrase (.optionalSuite "else" last)]
  /-- A loop under a condition. -/
  | whileLoop {test : Expr} {body orelse : List Stmt} :
      StmtProduction (.compound [] (.whileLoop test body orelse))
        [.phrase (.condition "while" test body), .phrase (.optionalSuite "else" orelse)]
  /-- Handled exceptions. -/
  | tryExcept {body orelse : List Stmt} {handlers : List ExceptHandler}
      (some_ : handlers ≠ []) :
      StmtProduction (.compound [] (.tryExcept body handlers orelse []))
        [.text "try", .phrase (.colonSuite body), .phrase (.handlers [] handlers),
          .phrase (.optionalSuite "else" orelse)]
  /-- Handled exceptions with a final block. -/
  | tryFinally {body orelse final : List Stmt} {handlers : List ExceptHandler} :
      StmtProduction (.compound [] (.tryExcept body handlers orelse final))
        [.text "try", .phrase (.colonSuite body), .phrase (.handlers [] handlers),
          .phrase (.optionalSuite "else" orelse), .text "finally", .phrase (.colonSuite final)]
  /-- No further decorator. -/
  | decoratorsEnd {out : List Expr} : StmtProduction (.decorators out out) []
  /-- A further decorator. -/
  | decorators {found out : List Expr} {decorator : Expr} :
      StmtProduction (.decorators found out)
        [.text "@", .expr Power.target decorator, .newline,
          .phrase (.decorators (found ++ [decorator]) out)]
  /-- A compound statement with its decorators. -/
  | compound {decorators : List Expr} {stmt : Stmt} :
      StmtProduction (.statement [stmt])
        [.phrase (.decorators [] decorators), .phrase (.compound decorators stmt)]
  /-- A line of simple statements. -/
  | simple {out : List Stmt} :
      StmtProduction (.statement out) [.phrase (.decorators [] []), .phrase (.line out)]
  /-- The end of a module. -/
  | bodyEnd {out : List Stmt} : StmtProduction (.body out out) []
  /-- A statement line of a module. -/
  | body {found more out : List Stmt} :
      StmtProduction (.body found out)
        [.phrase (.statement more), .phrase (.body (found ++ more) out)]
  /-- No further line end. -/
  | lineEndsEnd : StmtProduction .lineEnds []
  /-- A line end. -/
  | lineEnds : StmtProduction .lineEnds [.newline, .phrase .lineEnds]
  /-- A module. -/
  | module {body : List Stmt} : StmtProduction (.root (.module body)) [.phrase (.body [] body)]
  /-- One expression. -/
  | expression {value : Expr} :
      StmtProduction (.root (.expression value)) [.expr Power.any value, .phrase .lineEnds]
  /-- A statement line of a dialogue. -/
  | interactive {body : List Stmt} :
      StmtProduction (.root (.interactive body)) [.phrase (.statement body)]

/-- The productions of the language. -/
inductive Production (phrase : Phrase) (body : List Symbol) : Prop where
  /-- Of expressions and parameters. -/
  | expr (production : ExprProduction phrase body)
  /-- Of statements. -/
  | stmt (production : StmtProduction phrase body)

/-- Symbols cover the tokens in front of others, by productions. The expressions that are dropped
on the way are told. -/
inductive Derives : List Symbol → List Expr → List Token → List Token → Prop where
  /-- No symbol covers no token. -/
  | nil {tokens : List Token} : Derives [] [] tokens tokens
  /-- A terminal covers a token. -/
  | terminal {terminal : Terminal} {symbols : List Symbol} {dropped : List Expr} {token : Token}
      {ahead behind : List Token} (admits : terminal.Admits token)
      (rest : Derives symbols dropped ahead behind) :
      Derives (.terminal terminal :: symbols) dropped (token :: ahead) behind
  /-- A phrase covers what a production of it covers. -/
  | phrase {phrase : Phrase} {body symbols : List Symbol} {first second : List Expr}
      {ahead between behind : List Token} (production : Production phrase body)
      (inside : Derives body first ahead between)
      (rest : Derives symbols second between behind) :
      Derives (.phrase phrase :: symbols) (first ++ second) ahead behind
  /-- Expressions are dropped. -/
  | dropped {elements dropped : List Expr} {symbols : List Symbol} {ahead behind : List Token}
      (rest : Derives symbols dropped ahead behind) :
      Derives (.dropped elements :: symbols) (elements ++ dropped) ahead behind

/-- Symbols in order cover tokens in order. -/
theorem Derives.append {first second : List Symbol} {head tail : List Expr}
    {ahead between behind : List Token} (front : Derives first head ahead between)
    (back : Derives second tail between behind) :
    Derives (first ++ second) (head ++ tail) ahead behind := by
  induction front with
  | nil => exact back
  | terminal admits _ ih => exact .terminal admits (ih back)
  | phrase production inside _ _ ih =>
    rw [List.append_assoc]
    exact .phrase production inside (ih back)
  | dropped _ ih =>
    rw [List.append_assoc]
    exact .dropped (ih back)

/-- Tokens that symbols in order cover are tokens in order that they cover. -/
theorem Derives.of_append {first second : List Symbol} {dropped : List Expr}
    {ahead behind : List Token} (whole : Derives (first ++ second) dropped ahead behind) :
    ∃ head tail between, dropped = head ++ tail ∧ Derives first head ahead between ∧
      Derives second tail between behind := by
  induction first generalizing dropped ahead with
  | nil => exact ⟨[], dropped, ahead, rfl, .nil, whole⟩
  | cons symbol first ih =>
    cases whole with
    | terminal admits rest =>
      obtain ⟨head, tail, between, rfl, front, back⟩ := ih rest
      exact ⟨head, tail, between, rfl, .terminal admits front, back⟩
    | phrase production inside rest =>
      obtain ⟨head, tail, between, rfl, front, back⟩ := ih rest
      exact ⟨_, tail, between, (List.append_assoc _ _ _).symm, .phrase production inside front,
        back⟩
    | dropped rest =>
      obtain ⟨head, tail, between, rfl, front, back⟩ := ih rest
      exact ⟨_, tail, between, (List.append_assoc _ _ _).symm, .dropped front, back⟩

/-- Symbols cover the tokens in front of others, whatever is dropped on the way. -/
def Covers (symbols : List Symbol) (ahead behind : List Token) : Prop :=
  ∃ dropped, Derives symbols dropped ahead behind

namespace Covers

variable {first second body : List Symbol} {ahead between behind : List Token}

/-- Symbols in order cover tokens in order. -/
theorem append (front : Covers first ahead between) (back : Covers second between behind) :
    Covers (first ++ second) ahead behind := by
  obtain ⟨head, front⟩ := front
  obtain ⟨tail, back⟩ := back
  exact ⟨head ++ tail, front.append back⟩

/-- A phrase covers what a production of it covers. -/
theorem phrase {phrase : Phrase} (production : Production phrase body)
    (inside : Covers body ahead behind) : Covers [.phrase phrase] ahead behind := by
  obtain ⟨dropped, inside⟩ := inside
  exact ⟨dropped ++ [], .phrase production inside .nil⟩

/-- Behind other symbols a phrase covers what a production of it covers. -/
theorem phrase_last {phrase : Phrase} (production : Production phrase body)
    (inside : Covers (first ++ body) ahead behind) :
    Covers (first ++ [.phrase phrase]) ahead behind := by
  obtain ⟨dropped, whole⟩ := inside
  obtain ⟨head, tail, between, -, front, back⟩ := whole.of_append
  exact append ⟨head, front⟩ (.phrase production ⟨tail, back⟩)

end Covers

/-- The tokens of a text derive a tree: the root covers them up to the end marks, and the given
elements are dropped. -/
def Root.DerivesFrom (root : Root) (tokens : List Token) (dropped : List Expr) : Prop :=
  ∃ behind, Derives [.phrase (.root root)] dropped (tokens.filter Token.isSignificant) behind ∧
    ∀ token ∈ behind, token.kind = .endMarker

end Offside
