import StageLink.Diagnostic.Judged
import StageLink.Shader

/-!
# Multiple definitions

No two units may both define a signature of the same function with the same parameter types.
Signatures provided by the library of built-in functions do not count as definitions.
-/

namespace StageLink

namespace Signature

/-- Whether the unit itself defines the signature. -/
def isOwnDefinition (signature : Signature) : Bool := signature.isDefined && !signature.isBuiltin

end Signature

namespace Definition

/-- Whether the first signature of a function with the given parameter types is defined by the unit
itself. -/
def definesFirst (unit : Shader) (function : FunctionId) (types : List Ty) : Checked Bool := do
  match ← unit.findSignature function types with
  | none => return false
  | some position =>
      return ((unit.signaturesOf function)[position]?).any Signature.isOwnDefinition

def duplicatesOf (unit other : Shader) (name : String) (function : FunctionId) :
    List Signature → Checked (List LinkError)
  | [] => return []
  | signature :: signatures => do
      let later ← duplicatesOf unit other name function signatures
      if signature.isOwnDefinition then
        let types ← unit.typesOf signature.parameters
        if ← definesFirst other function types then
          return .multiplyDefined name :: later
      return later

/-- The definitions of some functions of a unit that another unit repeats. -/
def duplicates (unit other : Shader) : List FunctionId → Checked (List LinkError)
  | [] => return []
  | id :: ids => do
      let function ← unit.fetchFunction id
      let found ←
        match other.symbols.functions.get? function.name with
        | none => pure []
        | some counterpart =>
            duplicatesOf unit other function.name counterpart function.signatures
      return found ++ (← duplicates unit other ids)

/-- The definitions of a unit that some later units repeat. -/
def duplicatesAmong (unit : Shader) : List Shader → Checked (List LinkError)
  | [] => return []
  | other :: others => do
      let found ← duplicates unit other unit.declaredFunctions
      return found ++ (← duplicatesAmong unit others)

/-- All definitions that a later unit repeats. -/
def allDuplicates : List Shader → Checked (List LinkError)
  | [] => return []
  | unit :: units => do
      let found ← duplicatesAmong unit units
      return found ++ (← allDuplicates units)

/-- Check that the units define every signature only once. -/
def check (units : List Shader) : Judged Unit := do
  Judged.rejectAll (← allDuplicates units)

end Definition
end StageLink
