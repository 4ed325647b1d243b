import Offside.Proofs.Tree.Atoms
import Offside.Tree.Walk

/-!
# Words and operands of a part

What one part of a tree holds itself, apart from the parts below it: the words that name something
(`Part.words`), the member that an expression asks for (`Part.member?`), and the expressions that
its operator, its call or its member works on (`Part.operands`).
-/
namespace Offside

/-- The word of an expression that is a name. -/
def Expr.words : Expr → List String
  | .name id _ => [id]
  | .boolOp .. | .binOp .. | .unaryOp .. | .lambda .. | .ifExp .. | .dict .. | .set _
  | .listComp .. | .setComp .. | .dictComp .. | .generator .. | .await _ | .yield _ | .yieldFrom _
  | .compare .. | .call .. | .num _ | .str _ | .bytes _ | .constant _ | .ellipsis | .attribute ..
  | .subscript .. | .starred .. | .list .. | .tuple .. => []

/-- The words that a statement defines or declares, and those of the module it imports from. -/
def Stmt.words : Stmt → List String
  | .functionDef _ name _ _ _ _ _ | .classDef name _ _ _ _ _ => [name]
  | .importFrom module _ _ => module.elim [] dottedWords
  | .globals names | .nonlocals names => names
  | .returnValue _ | .delete _ | .assign .. | .augAssign .. | .annAssign .. | .forLoop ..
  | .whileLoop .. | .ifElse .. | .withItems .. | .raise .. | .tryExcept .. | .assert ..
  | .importModules _ | .expr _ | .pass | .breakLoop | .continueLoop => []

/-- The words of a part that name something, apart from members. -/
def Part.words : Part → List String
  | .expr value => value.words
  | .stmt value => value.words
  | .arg value => [value.name]
  | .keyword value => value.name.toList
  | .imported value => dottedWords value.name ++ value.asname.toList
  | .handler value => value.name.toList
  | .root _ | .slice _ | .arguments _ | .withItem _ | .comprehension _ => []

/-- The member that an expression asks for. -/
def Expr.member? : Expr → Option String
  | .attribute _ id _ => some id
  | .boolOp .. | .binOp .. | .unaryOp .. | .lambda .. | .ifExp .. | .dict .. | .set _
  | .listComp .. | .setComp .. | .dictComp .. | .generator .. | .await _ | .yield _ | .yieldFrom _
  | .compare .. | .call .. | .num _ | .str _ | .bytes _ | .constant _ | .ellipsis | .name ..
  | .subscript .. | .starred .. | .list .. | .tuple .. => none

/-- The member that a part asks for. -/
def Part.member? : Part → Option String
  | .expr value => value.member?
  | .stmt _ | .arg _ | .keyword _ | .imported _ | .handler _ | .root _ | .slice _ | .arguments _
  | .withItem _ | .comprehension _ => none

/-- The identifiers of a part. -/
def Part.identifiers (part : Part) : List String :=
  part.words ++ part.member?.toList

/-- The expressions that an operator, a condition, a call or a member works on. -/
def Expr.operands : Expr → List Expr
  | .boolOp _ values => values
  | .binOp left _ right => [left, right]
  | .unaryOp _ operand => [operand]
  | .ifExp test body orelse => [test, body, orelse]
  | .await value => [value]
  | .compare left _ comparators => left :: comparators
  | .call function _ _ => [function]
  | .attribute value _ _ => [value]
  | .lambda .. | .dict .. | .set _ | .listComp .. | .setComp .. | .dictComp .. | .generator ..
  | .yield _ | .yieldFrom _ | .num _ | .str _ | .bytes _ | .constant _ | .ellipsis | .name ..
  | .subscript .. | .starred .. | .list .. | .tuple .. => []

/-- The expressions that a part works on. -/
def Part.operands : Part → List Expr
  | .expr value => value.operands
  | .stmt _ | .arg _ | .keyword _ | .imported _ | .handler _ | .root _ | .slice _ | .arguments _
  | .withItem _ | .comprehension _ => []

end Offside
