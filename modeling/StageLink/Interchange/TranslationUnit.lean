import StageLink.Interchange.Shader
import StageLink.Stage.Merge

/-!
# Translation units as documents

A translation unit is a shader that may bring along a list of libraries.  A library has the same
form, but what it brings along itself is not searched.
-/

namespace StageLink
namespace TranslationUnit

open Document

def ofDocument (document : Document) : Decoded TranslationUnit := do
  let members ← document.membersInOrder Shader.memberNames
  let shader ← Shader.ofDocument document
  match members.get? "builtins" with
  | none => return { shader := shader }
  | some ⟨null, _⟩ => return { shader := shader }
  | some ⟨libraries, _⟩ => do
      let units ← (← libraries.items).mapM fun ⟨library, _⟩ => ofDocument library
      return { shader := shader, libraries := units.map (·.shader) }
termination_by sizeOf document

end TranslationUnit
end StageLink
