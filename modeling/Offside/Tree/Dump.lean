import Offside.Text.Quoted
import Offside.Tree.Node

/-!
# Written trees

A tree is written as `Kind(field=value, ...)`: fields in order, lists in square brackets, texts
and identifiers quoted, and a missing part as `None`. `pretty` breaks such a text into lines
after every opening bracket and every comma, and leaves quoted text alone.
-/
namespace Offside

open Text

mutual

/-- The characters of a written node, before the given ones. -/
def Node.write : Node → List Char → List Char
  | ⟨kind, fields⟩, rest => kind.toList ++ '(' :: writeFields fields (')' :: rest)

/-- The characters of written fields, before the given ones. -/
def writeFields : List Field → List Char → List Char
  | [], rest => rest
  | [field], rest => field.write rest
  | field :: fields, rest => field.write (',' :: ' ' :: writeFields fields rest)

/-- The characters of a written field, before the given ones. -/
def Field.write : Field → List Char → List Char
  | ⟨name, value⟩, rest => name.toList ++ '=' :: value.write rest

/-- The characters of a written value, before the given ones. -/
def Value.write : Value → List Char → List Char
  | .node value, rest => value.write rest
  | .list items, rest => '[' :: writeItems items (']' :: rest)
  | .identifier text, rest | .text text, rest => quoteChars text.toList ++ rest
  | .bytes value, rest => quoteByteChars value ++ rest
  | .number value, rest => value.text.toList ++ rest
  | .constant value, rest => value.text.toList ++ rest
  | .count value, rest => decimalDigits value ++ rest
  | .absent, rest => Constant.none.text.toList ++ rest

/-- The characters of written items, before the given ones. -/
def writeItems : List Value → List Char → List Char
  | [], rest => rest
  | [item], rest => item.write rest
  | item :: items, rest => item.write (',' :: ' ' :: writeItems items rest)

end

/-- A node as text. -/
def Node.dump (node : Node) : String :=
  String.ofList (node.write [])

/-- An expression as text. -/
def Expr.dump (expr : Expr) : String := expr.node.dump

/-- A statement as text. -/
def Stmt.dump (stmt : Stmt) : String := stmt.node.dump

/-- A tree as text. -/
def Root.dump (root : Root) : String := root.node.dump

/-- The state of breaking a written tree into lines. -/
structure Breaking where
  /-- The number of open brackets. -/
  depth : Nat
  /-- The mark of the quoted text that is open. -/
  quote : Option Char
  /-- The last character was a backslash in quoted text that is not itself escaped. -/
  escaped : Bool
  /-- The next space is dropped. -/
  dropSpace : Bool

/-- A line break, and the indentation of two spaces for each open bracket. -/
def lineBreak (depth : Nat) : List Char :=
  '\n' :: List.replicate (2 * depth) ' '

/-- What is written for one character, and the state behind it. -/
def Breaking.step (state : Breaking) (c : Char) : List Char × Breaking :=
  match state.quote with
  | some mark =>
    if state.escaped then ([c], { state with escaped := false })
    else if c = '\\' then ([c], { state with escaped := true })
    else if c = mark then ([c], { state with quote := none })
    else ([c], state)
  | none =>
    if isQuote c then ([c], { state with quote := some c })
    else if c = '(' || c = '[' then
      (c :: lineBreak (state.depth + 1), { state with depth := state.depth + 1 })
    else if c = ')' || c = ']' then
      (lineBreak (state.depth - 1) ++ [c], { state with depth := state.depth - 1 })
    else if c = ',' then (c :: lineBreak state.depth, { state with dropSpace := true })
    else if c = ' ' && state.dropSpace then ([], { state with dropSpace := false })
    else ([c], state)

/-- The characters of a written tree with line breaks, from a state on. -/
def Breaking.run : Breaking → List Char → List Char
  | _, [] => []
  | state, c :: rest =>
    let (written, next) := state.step c
    written ++ next.run rest

/-- A written tree with line breaks. -/
def pretty (text : String) : String :=
  String.ofList (Breaking.run ⟨0, none, false, false⟩ text.toList)

end Offside
