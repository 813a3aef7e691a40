import StageLink.Diagnostic.Judged
import StageLink.Optimize.DeadFunctions

/-!
# Recursion

Signatures that call nothing, or are called by nothing, are pruned from the graph of calls over and
over.  What survives lies on cycles or between them, so the graph has no cycle exactly if nothing
survives.
-/

namespace StageLink
namespace Recursion

def definedSignatures (shader : Shader) : List FunctionId → Checked (List Callee)
  | [] => return []
  | id :: ids => do
      let function ← shader.fetchFunction id
      let defined := (function.signatures.zipIdx.filter (·.1.isDefined)).map fun pair =>
        Callee.mk id pair.2
      return defined ++ (← definedSignatures shader ids)

/-- The calls in the bodies of some signatures. -/
def calls (shader : Shader) : List Callee → Checked (List (Callee × Callee))
  | [] => return []
  | caller :: callers => do
      let body := (← shader.fetchSignature caller).body
      let found := (Shader.callees (Block.ownNodes body)).map fun callee => (caller, callee)
      return found ++ (← calls shader callers)

def isEntangled (edges : List (Callee × Callee)) (alive : List Callee) (signature : Callee) :
    Bool :=
  (edges.any fun edge => edge.1 = signature && alive.contains edge.2)
    && edges.any fun edge => edge.2 = signature && alive.contains edge.1

/-- The signatures that are entangled. -/
def entangled (edges : List (Callee × Callee)) (alive : List Callee) : List Callee :=
  alive.filter (isEntangled edges alive)

/-- Prune the signatures that are not entangled until all are. -/
def prune (edges : List (Callee × Callee)) (alive : List Callee) : List Callee :=
  if _shrinks : (entangled edges alive).length < alive.length then
    prune edges (entangled edges alive)
  else
    alive
termination_by alive.length
decreasing_by assumption

/-- The distinct names among some names, in the order of their first occurrence. -/
def distinct : List String → List String → List String
  | _, [] => []
  | seen, name :: names =>
      if seen.contains name then distinct seen names
      else name :: distinct (name :: seen) names

/-- Check that no function can come to call itself. -/
def check (shader : Shader) : Judged Unit := do
  let signatures ← definedSignatures shader shader.declaredFunctions
  let edges ← calls shader signatures
  let alive := prune edges signatures
  let names ← (signatures.filter alive.contains).mapM fun signature =>
    return (← shader.fetchFunction signature.function).name
  Judged.rejectAll ((distinct [] names).map .staticRecursion)

end Recursion
end StageLink
