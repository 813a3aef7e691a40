import StageLink.Shader

/-!
# Compaction

Compaction drops the variables and functions that no instruction list reaches any more and renumbers
every handle.  Functions stay if they are declared at the top level; variables stay if they are
declared, dereferenced, or a parameter of a function that stays.
-/

namespace StageLink
namespace Shader

/-- The parameters of the functions declared at the top level, in arena order. -/
def liveParameters (shader : Shader) : List VariableId :=
  let declared := shader.declaredFunctions
  shader.functions.indexed.flatMap fun pair =>
    if declared.contains pair.1 then pair.2.signatures.flatMap (·.parameters) else []

/-- Where the tables of a compaction send a handle: a row that is absent is a fault, and a handle
whose entry was dropped is left alone. -/
def renumber (table : List (Option Nat)) (fault : Nat → Fault) (id : Nat) : Checked Nat :=
  match table[id]? with
  | some (some target) => .ok target
  | some none => .ok id
  | none => .error (fault id)

/-- Renumber the handles in an instruction itself. -/
def renumberInstruction (vars functions : List (Option Nat)) :
    Instruction → Checked Instruction
  | .declare id => return .declare (← renumber vars .noVariable id)
  | .function id => return .function (← renumber functions .noFunction id)
  | .call callee arguments result => do
      let function ← renumber functions .noFunction callee.function
      return .call { callee with function := function } arguments result
  | other => return other

/-- Renumber the handle in a place itself. -/
def renumberPlace (vars : List (Option Nat)) : Place → Checked Place
  | .whole id => return .whole (← renumber vars .noVariable id)
  | other => return other

def renumberBlock (vars functions : List (Option Nat)) (block : Block) : Checked Block := do
  let block ← Block.mapInstructions (renumberInstruction vars functions) block
  Block.mapPlaces (renumberPlace vars) block

/-- Drop what is not reached and renumber every handle.  The symbol table is rebuilt. -/
def compact (shader : Shader) : Checked Shader := do
  let parameters := shader.liveParameters
  let _ ← parameters.mapM shader.fetchVariable
  let live := parameters ++ mentioned shader.nodes
  let declared := shader.declaredFunctions
  let (vars, variableTable) := shader.vars.compact live.contains
  let (functions, functionTable) := shader.functions.compact declared.contains
  let functions ← functions.entries.mapM fun function => do
    let signatures ← function.signatures.mapM fun signature => do
      let parameters ← signature.parameters.mapM (renumber variableTable .noVariable)
      return { signature with parameters := parameters }
    return { function with signatures := signatures }
  let kept := { shader with vars := vars, functions := ⟨functions⟩ }
  let renumbered ← kept.mapBodies (renumberBlock variableTable functionTable)
  return renumbered.populateSymbols

end Shader
end StageLink
