import Offside.Fault
import Offside.Tree

/-!
# Targets

A target is what can be assigned to, deleted or looped over: a name, an attribute, a subscript,
or a list, a tuple or a starred form of targets. An expression is read as a value first, and
`Expr.withContext` makes a target of it afterwards by giving these nodes a context. What stands
inside an attribute or a subscript is used as a value still.
-/
namespace Offside

/-- How a message calls an expression that is no target. Targets go by their kinds. -/
def Expr.description : Expr → String
  | .call .. => "function call"
  | .num _ | .str _ | .bytes _ | .ellipsis => "literal"
  | .constant _ => "keyword"
  | .binOp .. | .unaryOp .. | .boolOp .. => "operator"
  | .compare .. => "comparison"
  | .lambda .. => "lambda"
  | .ifExp .. => "conditional expression"
  | .listComp .. => "list comprehension"
  | .setComp .. => "set comprehension"
  | .dictComp .. => "dict comprehension"
  | .generator .. => "generator expression"
  | .dict .. => "dict display"
  | .set .. => "set display"
  | .await _ => "await expression"
  | .yield _ | .yieldFrom _ => "yield expression"
  | target => target.kind

mutual

/-- An expression as a target with a context, or the first expression in it that is no
target. -/
def Expr.withContext (context : Context) : Expr → Except Cause Expr
  | .name id _ => .ok (.name id context)
  | .attribute value name _ => .ok (.attribute value name context)
  | .subscript value slice _ => .ok (.subscript value slice context)
  | .starred value _ => do return .starred (← value.withContext context) context
  | .list elements _ => do return .list (← withContexts context elements) context
  | .tuple elements _ => do return .tuple (← withContexts context elements) context
  | other => .error (.invalidTarget other.description)

/-- Expressions as targets with a context. -/
def withContexts (context : Context) : List Expr → Except Cause (List Expr)
  | [] => .ok []
  | element :: rest => do
    let element ← element.withContext context
    return element :: (← withContexts context rest)

end

end Offside
