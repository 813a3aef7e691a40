import StageLink.ArraySize
import StageLink.Declaration.Agreement

/-!
# Sizes of uniform arrays

Arrays in the default uniform block are cut, or extended, to one past the highest index that any
stage uses.  Arrays of atomic counters keep their sizes.
-/

namespace StageLink
namespace Uniform

/-- Whether the length of a variable follows its use. -/
def isResizable (declared : Variable) : Bool :=
  declared.mode = .uniform && declared.ty.isArray && !declared.isInUniformBlock
    && !declared.ty.containsAtomic

def highestAccess (executables : List Shader) (name : String) : Nat :=
  let declared := executables.filterMap fun executable => executable.findVariable? name
  ((declared.filter (·.mode = .uniform)).map (·.maxArrayAccess)).foldl max 0

/-- Give the arrays of one executable the lengths that their use asks for.  Element places follow if
there is such an array. -/
def resizeArrays (highest : String → Nat) (shader : Shader) : Checked Shader := do
  let declared ← shader.globals.mapM fun id => return (id, ← shader.fetchVariable id)
  let resized := declared.filter fun pair =>
    isResizable pair.2 && pair.2.ty.length? ≠ some (wrap (highest pair.2.name + 1))
  if resized.isEmpty then
    return shader
  else
    let changed ← shader.modifyVariables
      (fun declared =>
        { declared with ty := declared.ty.withLength (wrap (highest declared.name + 1)) })
      (resized.map (·.1))
    ArraySize.retypeElements changed

end Uniform
end StageLink
