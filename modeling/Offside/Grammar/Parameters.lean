import Offside.Grammar.Expression

/-!
# Parameter lists

The parameters of a definition stand before a closing parenthesis and those of a lambda before a
colon. The parameters without a star come first, and those with a default stand behind those
without one; behind a single star parameters are given by name alone; and the parameter with two
stars is the last one.
-/
namespace Offside

open Parse

/-- Where parameters stand. -/
inductive Signature where
  /-- In a definition, where parameters may have annotations. -/
  | definition
  /-- In a lambda. -/
  | lambda
  deriving DecidableEq, Inhabited, Repr

/-- The text behind the last parameter. -/
def Signature.closing : Signature → String
  | .definition => ")"
  | .lambda => ":"

/-- Parameters that are being collected, and whether a star has been met. -/
structure Collected where
  /-- The parameters. -/
  parameters : Arguments
  /-- Further parameters are given by name alone. -/
  starred : Bool

namespace Inner

/-- A parameter with its annotation. -/
def parameter (inner : Inner) (signature : Signature) : Parse Arg := do
  let name ← expectName
  if signature = .definition && (← check ":") then
    let _ ← advance
    return ⟨name, some (← inner.expr Power.untilComma)⟩
  else return ⟨name, none⟩

/-- A default behind an equals sign, if there is one. -/
def parameterDefault (inner : Inner) : Parse (Option Expr) := do
  if ← eat "=" then return some (← inner.expr Power.untilComma) else return none

/-- Add the parameter behind a star. A comma directly behind the star means that there is
none. -/
def starParameter (inner : Inner) (signature : Signature) (collected : Collected) :
    Parse Collected := do
  if collected.starred then fail .duplicateVarArg
  else if ← check "," then return { collected with starred := true }
  else
    let arg ← inner.parameter signature
    return ⟨{ collected.parameters with vararg := some arg }, true⟩

/-- Add the parameter behind two stars. -/
def doubleStarParameter (inner : Inner) (signature : Signature) (collected : Collected) :
    Parse Collected := do
  let arg ← inner.parameter signature
  return { collected with parameters := { collected.parameters with kwarg := some arg } }

/-- Add a parameter without a star. -/
def plainParameter (inner : Inner) (signature : Signature) (collected : Collected) :
    Parse Collected := do
  let arg ← inner.parameter signature
  let given ← inner.parameterDefault
  let parameters := collected.parameters
  if collected.starred then
    return { collected with
      parameters := { parameters with
        kwonlyargs := parameters.kwonlyargs ++ [arg]
        kwDefaults := parameters.kwDefaults ++ [given] } }
  else
    match given with
    | some value =>
      return { collected with
        parameters := { parameters with
          args := parameters.args ++ [arg]
          defaults := parameters.defaults ++ [value] } }
    | none =>
      if parameters.defaults.isEmpty then
        return { collected with
          parameters := { parameters with args := parameters.args ++ [arg] } }
      else fail .nonDefaultArgument

/-- Add the parameter in front. -/
def nextParameter (inner : Inner) (signature : Signature) (collected : Collected) :
    Parse Collected := do
  if collected.parameters.kwarg.isSome then
    if ← check "**" then fail .duplicateKwArg else fail .argumentAfterKwArg
  else if ← eat "*" then inner.starParameter signature collected
  else if ← eat "**" then inner.doubleStarParameter signature collected
  else inner.plainParameter signature collected

/-- The parameters in front of the closing text, which is not taken. -/
def parameters (inner : Inner) (signature : Signature) : Parse Arguments :=
  loop (fun collected => do
    if ← check signature.closing then return .done collected.parameters
    let collected ← inner.nextParameter signature collected
    if ← eat "," then return .again collected else return .done collected.parameters)
    inner.bound ⟨.none, false⟩

end Inner

end Offside
