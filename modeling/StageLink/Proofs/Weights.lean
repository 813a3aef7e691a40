import StageLink.Proofs.DeadFunctions

/-!
# Weights

The weight of a shader counts its nodes and signatures, those of each function for itself.  Removing
dead functions takes some away unless all signatures are live.
-/

namespace StageLink

/-- What a signature adds to the weight of a shader. -/
def Signature.weight (signature : Signature) : Nat := (Block.ownNodes signature.body).length + 1

/-- What a function adds to the weight of a shader. -/
def Function.weight (function : Function) : Nat := total (function.signatures.map (·.weight))

theorem Function.weight_eq (function : Function) :
    total ((function.signatures.map (·.body)).map fun body => (Block.ownNodes body).length) +
      function.signatures.length = function.weight := by
  rw [weight]
  induction function.signatures with
  | nil => rfl
  | cons signature signatures ih =>
      simp only [List.map_cons, total_cons, List.length_cons, Signature.weight] at ih ⊢
      omega

namespace Shader

variable {shader : Shader}

theorem weight_eq (shader : Shader) : shader.weight =
    (Block.ownNodes shader.topLevel).length + total (shader.functions.entries.map (·.weight)) := by
  have functions : total (shader.functions.entries.map (·.weight)) = _ :=
    congrArg (fun weigh => total (shader.functions.entries.map weigh))
      (funext fun function => (Function.weight_eq function).symm)
  rw [functions, ← total_map_add, ← total_flatMap, weight, bodies, List.map_cons, total_cons]
  omega

/-! ## Dead functions -/

theorem weight_follow_le (signature : Signature) :
    (shader.follow signature).weight ≤ signature.weight :=
  Nat.succ_le_succ (Block.shrinks_moveCall shader shader.liveCallees signature.body).noMore.length

theorem functions_removeDeadFunctions : shader.removeDeadFunctions.functions.entries =
    shader.functions.entries.zipIdx.map fun pair =>
      { pair.1 with signatures :=
          (keptAt (shader.staysAt pair.2) 0 pair.1.signatures).map fun kept =>
            shader.follow kept.1 } := by
  simp only [removeDeadFunctions, updateBodies, Arena.map, Arena.indexed, List.map_map]
  refine List.map_congr_left fun pair _ => ?_
  simp [liveSignatures_eq, follow]

theorem total_zipIdx {Item : Type} (weight : Item → Nat) (items : List Item) :
    total (items.zipIdx.map fun pair => weight pair.1) = total (items.map weight) := by
  conv_rhs => rw [← List.zipIdx_map_fst 0 items, List.map_map]
  rfl

/-- What is left of a function weighs no more, and less if a signature is gone. -/
theorem weight_kept_le (id : FunctionId) (signatures : List Signature) :
    total (((keptAt (shader.staysAt id) 0 signatures).map fun kept => shader.follow kept.1).map
      (·.weight)) ≤ total (signatures.map (·.weight)) := by
  rw [List.map_map, keptAt, total_filter, ← total_zipIdx (·.weight) signatures]
  refine total_map_le fun pair _ => ?_
  split
  · exact weight_follow_le pair.1
  · exact Nat.zero_le _

theorem weight_kept_lt {id : FunctionId} {signatures : List Signature} {position : Nat}
    {signature : Signature} (there : signatures[position]? = some signature)
    (gone : shader.staysAt id position = false) :
    total (((keptAt (shader.staysAt id) 0 signatures).map fun kept => shader.follow kept.1).map
      (·.weight)) < total (signatures.map (·.weight)) := by
  rw [List.map_map, keptAt, total_filter, ← total_zipIdx (·.weight) signatures]
  refine @total_map_lt _ _ _ _ (signature, position) (fun pair _ => ?_)
    (List.mem_zipIdx_iff_getElem?.mpr there) ?_
  · split
    · exact weight_follow_le pair.1
    · exact Nat.zero_le _
  · simp [gone, Signature.weight]

theorem weight_topLevel_le (shader : Shader) :
    (Block.ownNodes shader.removeDeadFunctions.topLevel).length ≤
      (Block.ownNodes shader.topLevel).length := by
  let kept := shader.topLevel.filter (keepsFunction (shader.emptiedFunctions shader.liveCallees))
  have follows := (Block.shrinks_moveCall shader shader.liveCallees kept).noMore.length
  exact Nat.le_trans follows (Block.ownNodes_sublist List.filter_sublist).length_le

/-- Removing a signature makes a shader lighter. -/
theorem weight_removeDeadFunctions_lt {one : Callee} {signature : Signature}
    (there : shader.At one signature) (dead : one ∉ shader.liveCallees) :
    shader.removeDeadFunctions.weight < shader.weight := by
  obtain ⟨function, found, held⟩ := there.function
  rw [weight_eq, weight_eq, functions_removeDeadFunctions,
    ← total_zipIdx (·.weight) shader.functions.entries, List.map_map]
  refine Nat.add_lt_add_of_le_of_lt (weight_topLevel_le shader) ?_
  refine @total_map_lt _ _ _ _ (function, one.function)
    (fun pair _ => weight_kept_le pair.2 pair.1.signatures) ?_ (weight_kept_lt held ?_)
  · exact List.mem_zipIdx_iff_getElem?.mpr found
  · exact Bool.eq_false_iff.mpr fun stays => dead (staysAt_iff.mp stays)

end Shader
end StageLink
