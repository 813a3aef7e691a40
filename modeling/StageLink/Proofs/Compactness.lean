import StageLink.Proofs.BodyNodes
import StageLink.Proofs.Connected
import StageLink.Proofs.Problems
import StageLink.Proofs.Scopes

/-!
# Compact shaders

The nodes of a shader can be listed body by body, and compaction renames them one by one.  So a
shader without problems still has none once it has been compacted, and then everything in its arenas
is in use.
-/

namespace StageLink
namespace Shader

/-! ## Renaming nodes one by one -/

variable {before after : Shader}

theorem compaction_functional {shader : Shader} {id one other : VariableId}
    (first : shader.compaction.mentions id one) (second : shader.compaction.mentions id other) :
    one = other :=
  Except.ok.inj (first.symm.trans second)

namespace Compacted

/-- The signatures of the functions that are declared before and after. -/
theorem bodies (compacted : Compacted before after) : List.Forall₂ (fun id other =>
    List.Forall₂ (SignatureMoved before.compaction) (before.signaturesOf id)
      (after.signaturesOf other))
    before.declaredFunctions after.declaredFunctions := by
  have both := (List.forall₂_and_left _ _).mpr
    ⟨fun _ (listed : _ ∈ before.declaredFunctions) => listed, compacted.declaredFunctions⟩
  exact both.imp fun _ _ ⟨is_declared, moves⟩ => compacted.signaturesOf is_declared moves

/-- Compaction renames the nodes of a shader one by one. -/
theorem listedNodes (compacted : Compacted before after) :
    AlikeInOrder before.compaction before.listedNodes after.listedNodes := by
  refine List.rel_append compacted.topLevel.ownNodes (List.rel_flatMap compacted.bodies ?_)
  exact fun _ _ signatures => List.rel_flatMap signatures fun _ _ moved => moved.body.ownNodes

theorem declaredParameters (compacted : Compacted before after) :
    List.Forall₂ before.compaction.mentions before.declaredParameters after.declaredParameters := by
  refine List.rel_flatMap compacted.bodies fun _ _ signatures => ?_
  exact List.rel_flatMap signatures fun _ _ moved => moved.parameters

end Compacted

/-! ## What compaction keeps -/

theorem mentioned_of_declared {nodes : List Node} {id : VariableId}
    (listed : id ∈ declaredIn nodes) :
    id ∈ mentioned nodes :=
  List.mem_filterMap.mpr ⟨_, mem_declaredIn.mp listed, rfl⟩

theorem mentioned_of_dereferenced {nodes : List Node} {id : VariableId}
    (listed : id ∈ dereferenced nodes) : id ∈ mentioned nodes :=
  List.mem_filterMap.mpr ⟨_, mem_dereferenced.mp listed, rfl⟩

theorem mem_mentioned {nodes : List Node} {id : VariableId} :
    id ∈ mentioned nodes ↔ id ∈ declaredIn nodes ∨ id ∈ dereferenced nodes := by
  constructor
  · intro listed
    obtain ⟨node, there, chosen⟩ := List.mem_filterMap.mp listed
    cases node with
    | instruction instruction =>
        cases instruction <;> cases chosen
        exact .inl (mem_declaredIn.mpr there)
    | place place =>
        cases place <;> cases chosen
        exact .inr (mem_dereferenced.mpr there)
    | expr _ => cases chosen
  · exact fun either => either.elim mentioned_of_declared mentioned_of_dereferenced

/-- The calls of a shader that runs by itself have signatures. -/
theorem SelfContained.callee_there {shader : Shader} (contained : shader.SelfContained)
    {callee : Callee} {arguments : List Expr} {result : Option Place}
    (listed : Node.instruction (.call callee arguments result) ∈ shader.nodes) :
    ∃ function, shader.functions.get? callee.function = some function ∧
      callee.signature < function.signatures.length := by
  obtain ⟨caller, invokes⟩ := contained.mem_callees.mp (Shader.mem_callees listed)
  obtain ⟨-, signature, there, -⟩ := contained.settled invokes
  obtain ⟨function, found, inside⟩ := there.function
  exact ⟨function, found, (List.getElem?_eq_some_iff.mp inside).1⟩

theorem jumps_of_flat {block : Block} (flat : block.Flat) :
    Block.orphanedJumps false block = [] := by
  induction flat using Block.Flat.induction with
  | nil => rfl
  | declare id rest _ _ tail | function id rest _ _ tail =>
      rw [Block.orphanedJumps, tail, List.append_nil]
      rfl

namespace Compacted

variable {id other : VariableId}

/-- What is in use keeps a place in the arena. -/
theorem below (compacted : Compacted before after) (live : before.isLive id = true)
    (moves : before.compaction.mentions id other) : other < after.vars.size := by
  obtain ⟨-, declared, -, found⟩ := row_of_live live moves
  rw [← compacted.vars] at found
  exact Arena.lt_of_get? found

/-- The declarations before and after, one by one. -/
theorem declarations (compacted : Compacted before after) (on_top : before.FunctionsOnTop) :
    List.Forall₂ (fun id other => before.isLive id = true ∧ before.compaction.mentions id other)
      (declaredIn before.listedNodes) (declaredIn after.listedNodes) := by
  refine (List.forall₂_and_left _ _).mpr ⟨fun id listed => ?_, compacted.listedNodes.declaredIn⟩
  have there := ((nodes_perm on_top).filterMap _).mem_iff.mpr listed
  exact isLive_of_mentioned (mentioned_of_declared there)

/-- What is dereferenced afterwards is declared afterwards, or is a parameter, if it was so
before. -/
theorem known (compacted : Compacted before after) (contained : before.SelfContained)
    (moves : before.compaction.mentions id other)
    (was_known : id ∈ declaredIn before.nodes ++ before.declaredParameters) :
    other ∈ declaredIn after.nodes ++ after.declaredParameters := by
  have was := nodes_perm contained.on_top
  have now := nodes_perm (compacted.selfContained contained).on_top
  rw [List.mem_append]
  rcases List.mem_append.mp was_known with local_to | parameter
  · obtain ⟨again, listed_now, -, moves_again⟩ := exists_of_forall₂
      (compacted.declarations contained.on_top).flip ((was.filterMap _).mem_iff.mp local_to)
    rw [compaction_functional moves moves_again]
    exact .inl ((now.filterMap _).mem_iff.mpr listed_now)
  · obtain ⟨again, listed_now, moves_again⟩ :=
      exists_of_forall₂ compacted.declaredParameters.flip parameter
    rw [compaction_functional moves moves_again]
    exact .inr listed_now

end Compacted

/-- Compaction makes no problems. -/
theorem NoProblems.compacted (sound : before.NoProblems) (contained : before.SelfContained)
    (compacted : Compacted before after) : after.NoProblems := by
  have after_contained := compacted.selfContained contained
  have was := nodes_perm contained.on_top
  have now := nodes_perm after_contained.on_top
  have declarations := compacted.declarations contained.on_top
  refine ⟨fun other listed => ?_, ?_, fun other listed => ?_, ⟨fun other listed => ?_, ?_⟩,
    jumps_of_flat after_contained.flat, fun other is_declared carried listed => ?_⟩
  · obtain ⟨id, -, live, moves⟩ :=
      exists_of_forall₂ declarations ((now.filterMap _).mem_iff.mp listed)
    exact compacted.below live moves
  · have unique : Relator.BiUnique fun id other => before.isLive id = true ∧
        before.compaction.mentions id other :=
      ⟨fun _ _ _ one two => compaction_injective one.1 two.1 one.2 two.2,
        fun _ _ _ one two => compaction_functional one.2 two.2⟩
    have distinct := (was.filterMap _).nodup_iff.mp sound.distinct
    exact (now.filterMap _).nodup_iff.mpr ((List.rel_nodup unique declarations).mp distinct)
  · obtain ⟨id, is_declared, moves⟩ := exists_of_forall₂ compacted.declaredFunctions listed
    obtain ⟨_, _, -, found, -⟩ := compacted.function_of is_declared moves
    exact Arena.lt_of_get? found
  · obtain ⟨id, there, moves⟩ := exists_of_forall₂ compacted.listedNodes.dereferenced
      (mem_dereferenced.mpr (now.mem_iff.mp listed))
    have placed := was.mem_iff.mpr (mem_dereferenced.mp there)
    have live := isLive_of_mentioned (mentioned_of_dereferenced (mem_dereferenced.mpr placed))
    exact ⟨compacted.below live moves, compacted.known contained moves (sound.uses.1 id placed).2⟩
  · exact fun callee _ _ called => after_contained.callee_there called
  · obtain ⟨id, was_declared, signatures⟩ := exists_of_forall₂ compacted.bodies is_declared
    obtain ⟨signature, was_listed, moved⟩ := exists_of_forall₂ signatures listed
    rw [moved.body.jumps]
    exact sound.body_jumps id was_declared signature was_listed

/-! ## Nothing is left over -/

/-- Every variable in the arena is declared, a parameter of a declared function or dereferenced, and
every function is declared. -/
structure Compact (shader : Shader) : Prop where
  vars : ∀ id < shader.vars.size, id ∈ declaredIn shader.nodes ∨ id ∈ shader.declaredParameters ∨
    id ∈ dereferenced shader.nodes
  functions : ∀ id < shader.functions.size, id ∈ shader.declaredFunctions

theorem mem_liveParameters {shader : Shader} {id : VariableId}
    (listed : id ∈ shader.liveParameters) :
    id ∈ shader.declaredParameters := by
  obtain ⟨⟨function_id, function⟩, indexed, inside⟩ := List.mem_flatMap.mp listed
  split at inside
  · next is_declared =>
      have found := Arena.mem_indexed.mp indexed
      obtain ⟨signature, there, parameter⟩ := List.mem_flatMap.mp inside
      refine List.mem_flatMap.mpr ⟨function_id, by simpa using is_declared, ?_⟩
      exact List.mem_flatMap.mpr ⟨signature, (signaturesOf_eq found).symm ▸ there, parameter⟩
  · cases inside

/-- Compaction leaves only what is in use. -/
theorem Compacted.compact (compacted : Compacted before after) (contained : before.SelfContained) :
    after.Compact where
  vars other inside := by
    have was := nodes_perm contained.on_top
    have now := nodes_perm (compacted.selfContained contained).on_top
    obtain ⟨declared, found⟩ := Arena.exists_get? inside
    rw [compacted.vars] at found
    obtain ⟨id, -, live, row⟩ := Arena.compact_origin found
    have moves : before.compaction.mentions id other := by
      change renumber before.variableTable _ id = _
      rw [renumber, variableTable, row]
    have either : id ∈ before.liveParameters ∨ id ∈ mentioned before.nodes := by
      simpa [isLive] using live
    rcases either with parameter | occurs
    · obtain ⟨again, listed, moves_again⟩ :=
        exists_of_forall₂ compacted.declaredParameters.flip (mem_liveParameters parameter)
      exact .inr (.inl (compaction_functional moves moves_again ▸ listed))
    rcases mem_mentioned.mp occurs with is_declared | placed
    · obtain ⟨again, listed, moves_again⟩ := exists_of_forall₂ compacted.listedNodes.declaredIn.flip
        ((was.filterMap _).mem_iff.mp is_declared)
      exact .inl (compaction_functional moves moves_again ▸ (now.filterMap _).mem_iff.mpr listed)
    · obtain ⟨again, listed, moves_again⟩ :=
        exists_of_forall₂ compacted.listedNodes.dereferenced.flip
        ((was.filterMap _).mem_iff.mp placed)
      exact .inr
        (.inr (compaction_functional moves moves_again ▸ (now.filterMap _).mem_iff.mpr listed))
  functions _ inside := compacted.declared inside

end Shader
end StageLink
