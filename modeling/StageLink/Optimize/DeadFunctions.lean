import StageLink.Shader

/-!
# Dead functions

A signature that nothing calls is removed, unless it is the defined `main`.  The remaining
signatures of its function move up, and calls follow them.  A function that has lost its last
signature loses its declaration too.
-/

namespace StageLink
namespace Shader

def callees (nodes : List Node) : List Callee :=
  nodes.filterMap fun
    | .instruction (.call callee _ _) => some callee
    | _ => none

/-- The signatures that stay: those that are called, and the defined `main`. -/
def liveCallees (shader : Shader) : List Callee :=
  shader.mainSignature?.toList ++ callees shader.nodes

/-- The signatures of a function that stay, with their positions. -/
def liveSignatures (live : List Callee) (function : FunctionId) (signatures : List Signature) :
    List (Signature × Nat) :=
  signatures.zipIdx.filter fun pair => live.contains ⟨function, pair.2⟩

/-- Where a callee moves when the signatures before it that do not stay are removed. -/
def movedCallee (shader : Shader) (live : List Callee) (callee : Callee) : Callee :=
  let before := (shader.signaturesOf callee.function).take callee.signature
  if live.contains callee && callee.signature < (shader.signaturesOf callee.function).length then
    { callee with signature := (liveSignatures live callee.function before).length }
  else
    callee

def emptiedFunctions (shader : Shader) (live : List Callee) : List FunctionId :=
  (shader.functions.indexed.filter fun pair =>
    !pair.2.signatures.isEmpty && (liveSignatures live pair.1 pair.2.signatures).isEmpty).map (·.1)

def unbindFunctions (shader : Shader) : SymbolTable → List FunctionId → SymbolTable
  | symbols, [] => symbols
  | symbols, id :: ids =>
      match shader.functions.get? id with
      | some function =>
          if symbols.functions.get? function.name = some id then
            shader.unbindFunctions (symbols.removeFunction function.name) ids
          else
            shader.unbindFunctions symbols ids
      | none => shader.unbindFunctions symbols ids

/-- Let the call in an instruction itself follow its callee. -/
def moveCall (shader : Shader) (live : List Callee) : Instruction → Instruction
  | .call callee arguments result => .call (shader.movedCallee live callee) arguments result
  | other => other

def keepsFunction (emptied : List FunctionId) : Instruction → Bool
  | .function id => !emptied.contains id
  | _ => true

def removeDeadFunctions (shader : Shader) : Shader :=
  let live := shader.liveCallees
  let emptied := shader.emptiedFunctions live
  let functions := shader.functions.indexed.map fun pair =>
    { pair.2 with signatures := (liveSignatures live pair.1 pair.2.signatures).map (·.1) }
  let pruned :=
    { shader with
      functions := ⟨functions⟩
      symbols := shader.unbindFunctions shader.symbols emptied
      topLevel := shader.topLevel.filter (keepsFunction emptied) }
  pruned.updateBodies (Block.updateInstructions (shader.moveCall live))

end Shader
end StageLink
