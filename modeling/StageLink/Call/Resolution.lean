import StageLink.Clone
import StageLink.Diagnostic.Judged
import StageLink.Optimize.DeadFunctions

/-!
# Resolution of calls

A call of a signature that is only announced is resolved by cloning a definition of the same name
and parameter types from the first library that has one.  The cloned body can contain calls that
have to be resolved in turn.  Every step defines one more signature, and all signatures that a step
announces belong to a library, so there are at most as many steps as signatures altogether.
-/

namespace StageLink
namespace Resolution

def firstUndefined (shader : Shader) : List Callee → Checked (Option Callee)
  | [] => return none
  | callee :: rest => do
      if (← shader.fetchSignature callee).isDefined then firstUndefined shader rest
      else return some callee

def definitionIn (library : Shader) (name : String) (types : List Ty) :
    Checked (Option Signature) := do
  match library.symbols.functions.get? name with
  | none => return none
  | some function =>
      match ← library.findSignature function types with
      | none => return none
      | some position =>
          return ((library.signaturesOf function)[position]?).filter (·.isDefined)

/-- The definition of a function in the first library that has one. -/
def definitionAmong (name : String) (types : List Ty) :
    List Shader → Checked (Option (Shader × Signature))
  | [] => return none
  | library :: libraries => do
      match ← definitionIn library name types with
      | some signature => return some (library, signature)
      | none => definitionAmong name types libraries

/-- Give an announced signature the body of a definition. -/
def define (shader : Shader) (target : Callee) (library : Shader) (definition : Signature) :
    Checked Shader := do
  let parameters := (← shader.fetchSignature target).parameters
  let renamed := (definition.parameters.zip parameters).reverse
  let (body, cloned) ← (CloneM.block library definition.body).runOn shader renamed
  return cloned.modifySignature target fun signature =>
    { signature with body := body, isDefined := true, isBuiltin := definition.isBuiltin }

def step (libraries : List Shader) (shader : Shader) : Judged (Option Shader) := do
  match ← firstUndefined shader (Shader.callees shader.nodes) with
  | none => return none
  | some target =>
      let name := (← shader.fetchFunction target.function).name
      let types ← shader.parameterTypes target
      match ← definitionAmong name types libraries with
      | none => Judged.reject (.unresolvedFunction name)
      | some (library, definition) => return some (← define shader target library definition)

/-- Resolve calls in at most a number of steps. -/
def steps (libraries : List Shader) : Nat → Shader → Judged Shader
  | 0, shader => return shader
  | count + 1, shader => do
      match ← step libraries shader with
      | none => return shader
      | some resolved => steps libraries count resolved

def signatureCount (shader : Shader) : Nat :=
  total (shader.functions.entries.map (·.signatures.length))

def resolveCalls (libraries : List Shader) (shader : Shader) : Judged Shader :=
  steps libraries (signatureCount shader + total (libraries.map signatureCount)) shader

end Resolution
end StageLink
