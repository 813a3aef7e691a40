import StageLink.Shader

/-!
# Static use

Whether a shader writes or mentions a variable of some name.  A variable is written by an
assignment, by the result of a call, and by an argument that a call can write through.
-/

namespace StageLink

/-- The place that an argument denotes, if a call could write through it; a swizzle denotes the
place it takes components of. -/
def Expr.writtenPlace? : Expr → Option Place
  | .load place => some place
  | .swizzle value _ _ => value.writtenPlace?
  | _ => none

namespace Shader

def liesIn (shader : Shader) (name : String) (place : Place) : Checked Bool :=
  return (← shader.fetchVariable place.root).name = name

/-- Whether an optional place lies in a variable of the given name. -/
def optionLiesIn (shader : Shader) (name : String) : Option Place → Checked Bool
  | some place => shader.liesIn name place
  | none => return false

/-- Whether one of some arguments lets a call write to a variable of the given name. -/
def argumentsWrite (shader : Shader) (name : String) :
    List Expr → List VariableId → Checked Bool
  | argument :: arguments, parameter :: parameters => do
      if (← shader.fetchVariable parameter).mode.isWritableParameter then
        if ← shader.optionLiesIn name argument.writtenPlace? then
          return true
      shader.argumentsWrite name arguments parameters
  | _, _ => return false

/-- Whether a node writes to a variable of the given name. -/
def nodeWrites (shader : Shader) (name : String) : Node → Checked Bool
  | .instruction (.assign target _ _) => shader.liesIn name target
  | .instruction (.call callee arguments result) => do
      let parameters := (← shader.fetchSignature callee).parameters
      if ← shader.argumentsWrite name arguments parameters then
        return true
      shader.optionLiesIn name result
  | _ => return false

/-- Whether a shader statically writes to a variable of the given name. -/
def writes (shader : Shader) (name : String) : Checked Bool :=
  shader.nodes.anyM (shader.nodeWrites name)

def nodeMentions (shader : Shader) (name : String) : Node → Checked Bool
  | .place (.whole id) => return (← shader.fetchVariable id).name = name
  | _ => return false

/-- Whether a variable of the given name occurs as a place anywhere. -/
def mentions (shader : Shader) (name : String) : Checked Bool :=
  shader.nodes.anyM (shader.nodeMentions name)

def endsPrimitive : Node → Bool
  | .instruction .endPrimitive => true
  | _ => false

def usesEndPrimitive (shader : Shader) : Bool := shader.nodes.any endsPrimitive

end Shader
end StageLink
