import StageLink.Proofs.DeadFunctions
import StageLink.Proofs.Touches

/-!
# Where bodies come from

The signatures that a pass or a retyping leaves have come from signatures that were there before,
and so have their bodies.  What is said here about single bodies carries over to shaders, whatever
moves where.
-/

namespace StageLink
namespace Shader

/-- The signatures of declared functions have come from such signatures, with the same parameters
and a body that the original leaves. -/
def Derives (moves : Callee → Callee → Prop) (leaves : Block → Block → Prop)
    (before after : Shader) : Prop :=
  ∀ other carried, other.function ∈ after.declaredFunctions → after.At other carried →
    ∃ one signature, moves one other ∧ one.function ∈ before.declaredFunctions ∧
      before.At one signature ∧ carried.parameters = signature.parameters ∧
      leaves signature.body carried.body

variable {shader before after : Shader} {moves : Callee → Callee → Prop}

theorem Derives.imp {leaves weaker : Block → Block → Prop}
    (implies : ∀ block left, leaves block left → weaker block left)
    (derives : Derives moves leaves before after) : Derives moves weaker before after := by
  intro other carried is_declared there
  obtain ⟨one, signature, moved, was_declared, was, same, left⟩ :=
    derives other carried is_declared there
  exact ⟨one, signature, moved, was_declared, was, same, implies _ _ left⟩

/-- Signatures that are related place by place derive. -/
theorem derives_of_forall₂ {leaves : Block → Block → Prop}
    (declared : after.declaredFunctions = before.declaredFunctions)
    (signatures : ∀ id, List.Forall₂ (fun before after => after.parameters = before.parameters ∧
      leaves before.body after.body) (before.signaturesOf id) (after.signaturesOf id)) :
    Derives Eq leaves before after := by
  intro other carried is_declared there
  have related := rel_getElem? (signatures other.function) other.signature
  obtain ⟨signature, was, same, left⟩ := exists_of_rel_some (there ▸ related)
  exact ⟨other, signature, rfl, declared ▸ is_declared, was, same, left⟩

/-! ## Passes -/

theorem derives_foldConstants (flat : shader.topLevel.Flat) :
    Derives Eq (fun block left => ∃ halfway, Block.Shrinks folding block halfway ∧
      Block.Shrinks folding halfway left) shader shader.foldConstants := by
  refine derives_of_forall₂ (recast_foldConstants flat).declared fun id => ?_
  rw [foldConstants, signaturesOf_updateBodies]
  exact List.forall₂_map_right_iff.mpr (List.forall₂_same.mpr fun signature _ =>
    ⟨rfl, shrinks_fold signature.body⟩)

theorem derives_removeDeadCode (keepUniforms : Bool) (flat : shader.topLevel.Flat) :
    Derives Eq (Block.Shrinks (removing (shader.deadDeclarations keepUniforms))) shader
      (shader.removeDeadCode keepUniforms) := by
  refine derives_of_forall₂ (recast_removeDeadCode keepUniforms flat).declared fun id => ?_
  rw [removeDeadCode, signaturesOf_updateBodies]
  exact List.forall₂_map_right_iff.mpr (List.forall₂_same.mpr fun signature _ =>
    ⟨rfl, Block.shrinks_survives _ _ signature.body⟩)

theorem derives_removeDeadFunctions :
    Derives shader.Follows
      (Block.Shrinks (following (shader.movedCallee shader.liveCallees))) shader
      shader.removeDeadFunctions := by
  intro other carried is_declared there
  obtain ⟨one, signature, follows, was, rfl⟩ := at_removeDeadFunctions.mp there
  rw [declaredFunctions_removeDeadFunctions, follows.function] at is_declared
  exact ⟨one, signature, follows, (List.mem_filter.mp is_declared).1, was, rfl,
    Block.shrinks_moveCall shader shader.liveCallees signature.body⟩

/-! ## Retyping -/

theorem derives_of_revised {relation : Variable → Variable → Prop}
    (revised : Revised relation before after) : Derives Eq Eq before after := by
  rw [revised.same]
  exact derives_of_forall₂ rfl fun _ => List.forall₂_same.mpr fun _ _ => ⟨rfl, rfl⟩

theorem derives_retypeElements {result : Shader} (flat : shader.topLevel.Flat)
    (runs : ArraySize.retypeElements shader = .ok result) :
    Derives Eq (Block.Alike unchanged) shader result := by
  refine derives_of_forall₂ (recast_retypeElements flat runs).declared fun id => ?_
  refine (signaturesOf_retypeElements runs id).imp fun signature carried ⟨same,
    alike⟩ => ⟨?_, alike⟩
  rw [same]

end Shader
end StageLink
