import StageLink.Proofs.Nodes
import StageLink.Proofs.Pruning

/-!
# Functions at the top level

Where functions are declared only at the top level, the nodes of a shader are those of its top-level
list and of the bodies of the functions declared there.  A shader that grows keeps its layout: it
gets further declarations at both ends of the list, and announces signatures without bodies.
-/

namespace StageLink

/-- No function is declared in the instruction list. -/
def Block.FunctionFree (block : Block) : Prop :=
  ∀ id, Node.instruction (.function id) ∉ block.ownNodes

section Free

variable {inside : FunctionId → List Node}

mutual

theorem Instruction.nodes_of_free : (instruction : Instruction) →
    (∀ id, Node.instruction (.function id) ∉ instruction.nodes fun _ => []) →
    instruction.nodes inside = instruction.nodes fun _ => []
  | .function id, free => absurd (List.mem_singleton.mpr rfl) (free id)
  | .branch condition accept reject, free => by
      simp only [Instruction.nodes, List.mem_cons, List.mem_append, not_or] at free
      rw [Instruction.nodes, Instruction.nodes,
        Block.nodes_of_free accept fun id => (free id).2.1.2,
        Block.nodes_of_free reject fun id => (free id).2.2]
      rfl
  | .loop body, free => by
      simp only [Instruction.nodes, List.mem_cons, not_or] at free
      rw [Instruction.nodes, Instruction.nodes, Block.nodes_of_free body fun id => (free id).2]
      rfl
  | .assign _ _ _, _ | .call _ _ _, _ | .yield _, _ | .declare _, _ | .leave, _ | .next, _
  | .discard, _ | .emitVertex, _ | .endPrimitive, _ => rfl

/-- What is inside functions does not matter where none is declared. -/
theorem Block.nodes_of_free : (block : List Instruction) → Block.FunctionFree block →
    Block.nodes inside block = Block.ownNodes block
  | [], _ => rfl
  | instruction :: rest, free => by
      simp only [Block.FunctionFree, Block.ownNodes, Block.nodes, List.mem_append, not_or] at free
      rw [Block.nodes, Block.ownNodes, Block.nodes,
        instruction.nodes_of_free fun id => (free id).1,
        Block.nodes_of_free rest fun id => (free id).2]
      rfl

end

end Free

mutual

theorem Instruction.withoutFunctions_of_free : (instruction : Instruction) →
    (∀ id, Node.instruction (.function id) ∉ instruction.nodes fun _ => []) →
    Id.run (instruction.mapInnerBlocks fun inner => pure (List.filter CloneM.isNoFunction inner)) =
      instruction
  | .branch condition accept reject, free => by
      simp only [Instruction.nodes, List.mem_cons, List.mem_append, not_or] at free
      have first := Block.withoutFunctions_of_free accept fun id => (free id).2.1.2
      have second := Block.withoutFunctions_of_free reject fun id => (free id).2.2
      simp only [Block.updateBlocks, Block.mapBlocks, Id.run_bind, Id.run_pure] at first second
      simp [Instruction.mapInnerBlocks, first, second]
  | .loop body, free => by
      simp only [Instruction.nodes, List.mem_cons, not_or] at free
      have inner := Block.withoutFunctions_of_free body fun id => (free id).2
      simp only [Block.updateBlocks, Block.mapBlocks, Id.run_bind, Id.run_pure] at inner
      simp [Instruction.mapInnerBlocks, inner]
  | .declare _, _ | .function _, _ | .assign _ _ _, _ | .call _ _ _, _ | .leave, _ | .next, _
  | .yield _, _ | .discard, _ | .emitVertex, _ | .endPrimitive, _ => rfl

/-- Leaving out function declarations changes nothing where there are none. -/
theorem Block.withoutFunctions_of_free : (block : List Instruction) → Block.FunctionFree block →
    Block.updateBlocks (List.filter CloneM.isNoFunction) block = block
  | [], _ => rfl
  | instruction :: rest, free => by
      simp only [Block.FunctionFree, Block.ownNodes, Block.nodes, List.mem_append, not_or] at free
      have head := instruction.withoutFunctions_of_free fun id => (free id).1
      have tail := Block.withoutFunctions_of_free rest fun id => (free id).2
      have kept : CloneM.isNoFunction instruction = true := by
        cases instruction with
        | function id => exact absurd (List.mem_singleton.mpr rfl) (free id).1
        | _ => rfl
      simp only [Block.updateBlocks, Block.mapBlocks, Block.mapInnerBlocks, Id.run_bind,
        Id.run_pure] at head tail ⊢
      rw [head, List.filter_cons_of_pos kept, tail]

end

/-- A node of an instruction list belongs to one of its instructions. -/
theorem Block.mem_ownNodes {block : Block} {node : Node} :
    node ∈ block.ownNodes ↔ ∃ instruction ∈ block, node ∈ instruction.nodes fun _ => [] := by
  induction block with
  | nil => simp [Block.ownNodes, Block.nodes]
  | cons instruction rest ih =>
      rw [Block.ownNodes] at ih
      simp [Block.ownNodes, Block.nodes, ih]

/-- What is alike to an instruction list without functions has none either. -/
theorem Block.FunctionFree.alike {renames : Renaming} {block other : Block}
    (free : block.FunctionFree) (alike : Block.Alike renames block other) :
    other.FunctionFree := by
  intro id listed
  obtain ⟨node, there, related⟩ := exists_of_forall₂ alike.ownNodes listed
  cases related with
  | instruction related =>
      cases related with
      | function _ => exact free _ there

namespace Shader

/-- Functions are declared at the top level itself and nowhere else. -/
structure FunctionsOnTop (shader : Shader) : Prop where
  statements : Block.FunctionFree (shader.topLevel.filter CloneM.isNoFunction)
  bodies : ∀ id ∈ shader.declaredFunctions, ∀ signature ∈ shader.signaturesOf id,
    signature.body.FunctionFree

theorem FunctionsOnTop.declared {shader : Shader} (on_top : shader.FunctionsOnTop) {id : FunctionId}
    (listed : Node.instruction (.function id) ∈ shader.topLevel.ownNodes) :
    id ∈ shader.declaredFunctions := by
  obtain ⟨instruction, there, inner⟩ := Block.mem_ownNodes.mp listed
  by_cases kept : CloneM.isNoFunction instruction = true
  · exact absurd (Block.mem_ownNodes.mpr ⟨instruction, List.mem_filter.mpr ⟨there, kept⟩, inner⟩)
      (on_top.statements id)
  · cases instruction with
    | function other =>
        obtain rfl : id = other := by simpa [Instruction.nodes] using inner
        exact mem_declaredFunctions.mpr there
    | _ => exact absurd rfl kept

theorem nodes_topLevel_perm (inside : FunctionId → List Node) :
    (block : Block) → Block.FunctionFree (block.filter CloneM.isNoFunction) →
    (Block.nodes inside block).Perm (block.ownNodes ++
      (block.filterMap fun | .function id => some id | _ => none).flatMap inside)
  | [], _ => .refl _
  | instruction :: rest, free => by
      by_cases is_function : ∃ id, instruction = .function id
      · obtain ⟨id, rfl⟩ := is_function
        have tail := nodes_topLevel_perm inside rest free
        rw [Block.nodes, Block.ownNodes_cons]
        refine .cons _ ?_
        calc
          (inside id ++ Block.nodes inside rest).Perm (inside id ++ (Block.ownNodes rest ++ _)) :=
            tail.append_left _
          List.Perm _ (Block.ownNodes rest ++ (inside id ++ _)) := by
            rw [← List.append_assoc, ← List.append_assoc]
            exact List.perm_append_comm.append_right _
      · have kept : CloneM.isNoFunction instruction = true := by
          cases instruction with
          | function id => exact absurd ⟨id, rfl⟩ is_function
          | _ => rfl
        rw [List.filter_cons_of_pos kept] at free
        simp only [Block.FunctionFree, Block.ownNodes, Block.nodes, List.mem_append, not_or] at free
        have tail := nodes_topLevel_perm inside rest fun id => (free id).2
        have skipped : (instruction :: rest).filterMap (fun | .function id => some id | _ => none) =
            rest.filterMap fun | .function id => some id | _ => none := by
          cases instruction with
          | function id => exact absurd ⟨id, rfl⟩ is_function
          | _ => rfl
        rw [skipped, Block.nodes, Block.ownNodes_cons, instruction.nodes_of_free
          fun id => (free id).1,
          List.append_assoc]
        exact tail.append_left _

theorem mem_nodes_topLevel {inside : FunctionId → List Node} {node : Node} {block : Block}
    (free : Block.FunctionFree (block.filter CloneM.isNoFunction)) :
    node ∈ Block.nodes inside block ↔ node ∈ Block.ownNodes block ∨
      ∃ id, Instruction.function id ∈ block ∧ node ∈ inside id := by
  rw [(nodes_topLevel_perm inside block free).mem_iff, List.mem_append, List.mem_flatMap]
  refine or_congr_right (exists_congr fun id => and_congr_left' ?_)
  rw [List.mem_filterMap]
  constructor
  · rintro ⟨instruction, listed, is_function⟩
    cases instruction with
    | function other =>
        obtain rfl := Option.some.inj is_function
        exact listed
    | _ => cases is_function
  · exact fun listed => ⟨_, listed, rfl⟩

/-- The nodes of a shader are those at its top level and of the bodies of the functions declared
there. -/
theorem mem_nodes {shader : Shader} (on_top : shader.FunctionsOnTop) {node : Node} :
    node ∈ shader.nodes ↔ node ∈ shader.topLevel.ownNodes ∨ ∃ id ∈ shader.declaredFunctions,
      ∃ signature ∈ shader.signaturesOf id, node ∈ signature.body.ownNodes := by
  constructor
  · intro listed
    rcases (mem_nodes_topLevel on_top.statements).mp listed with own | ⟨id, there, inside⟩
    · exact .inl own
    · have is_declared := mem_declaredFunctions.mpr there
      refine .inr ⟨id, is_declared, ?_⟩
      cases size : shader.functions.size with
      | zero =>
          rw [size] at inside
          cases inside
      | succ depth =>
          rw [size, insideFunction] at inside
          obtain ⟨signature, here, inner⟩ := List.mem_flatMap.mp inside
          rw [Block.nodes_of_free signature.body
            (on_top.bodies id is_declared signature here)] at inner
          exact ⟨signature, here, inner⟩
  · rintro (own | ⟨id, is_declared, signature, here, inner⟩)
    · exact Block.nodes_of_own shader.topLevel node own
    · exact nodes_of_body is_declared here node inner

theorem mem_callees_iff {nodes : List Node} {callee : Callee} :
    callee ∈ callees nodes ↔
      ∃ arguments result, Node.instruction (.call callee arguments result) ∈ nodes := by
  constructor
  · intro listed
    obtain ⟨node, there, chosen⟩ := List.mem_filterMap.mp listed
    cases node with
    | instruction instruction =>
        cases instruction with
        | call other arguments result =>
            obtain rfl := Option.some.inj chosen
            exact ⟨arguments, result, there⟩
        | _ => cases chosen
    | _ => cases chosen
  · rintro ⟨_, _, listed⟩
    exact mem_callees listed

theorem callees_append (nodes more : List Node) :
    callees (nodes ++ more) = callees nodes ++ callees more :=
  List.filterMap_append

/-- The callees of a shader are those at its top level and of the bodies of the functions declared
there. -/
theorem mem_callees_nodes {shader : Shader} (on_top : shader.FunctionsOnTop) {callee : Callee} :
    callee ∈ callees shader.nodes ↔ callee ∈ callees shader.topLevel.ownNodes ∨
      ∃ id ∈ shader.declaredFunctions, ∃ signature ∈ shader.signaturesOf id,
        callee ∈ callees signature.body.ownNodes := by
  simp only [mem_callees_iff, mem_nodes on_top]
  constructor
  · rintro ⟨arguments, result, own | ⟨id, is_declared, signature, there, inner⟩⟩
    · exact .inl ⟨arguments, result, own⟩
    · exact .inr ⟨id, is_declared, signature, there, arguments, result, inner⟩
  · rintro (⟨arguments, result, own⟩ | ⟨id, is_declared, signature, there,
      arguments, result, inner⟩)
    · exact ⟨arguments, result, .inl own⟩
    · exact ⟨arguments, result, .inr ⟨id, is_declared, signature, there, inner⟩⟩

/-! ## Growing -/

variable {source before after : Shader} {free : VariableId → Prop}

/-- A grown shader has further declarations at both ends of its top-level list. -/
theorem Grows.topLevel (grows : Grows source free before after) :
    ∃ (globals : List VariableId) (functions : List FunctionId), after.topLevel =
      globals.map .declare ++ before.topLevel ++ functions.map .function := by
  induction grows with
  | refl => exact ⟨[], [], by simp⟩
  | @tail halfway last so_far growth ih =>
      obtain ⟨globals, functions, extended⟩ := ih
      cases growth with
      | copy _ => exact ⟨globals, functions, extended⟩
      | global _ _ _ =>
          refine ⟨halfway.vars.size :: globals, functions, ?_⟩
          simp [declareFirst, extended]
      | function unknown =>
          refine ⟨globals, functions ++ [halfway.functions.size], ?_⟩
          simp [declareFunction, unknown, extended]
      | announce _ => exact ⟨globals, functions, extended⟩

/-- What stands between the declarations that have been added. -/
theorem Grows.mem_topLevel (grows : Grows source free before after) {instruction : Instruction} :
    (instruction ∈ before.topLevel → instruction ∈ after.topLevel) ∧
      (instruction ∈ after.topLevel → instruction ∈ before.topLevel ∨
        instruction.isDeclaration = true) := by
  obtain ⟨globals, functions, extended⟩ := grows.topLevel
  simp only [extended, List.mem_append, List.mem_map]
  constructor
  · exact fun listed => .inl (.inr listed)
  · rintro ((⟨id, -, rfl⟩ | listed) | ⟨id, -, rfl⟩)
    · exact .inr rfl
    · exact .inl listed
    · exact .inr rfl

end Shader

theorem Instruction.nodes_of_isDeclaration {instruction : Instruction}
    (declares : instruction.isDeclaration = true) :
    instruction.nodes (fun _ => []) = [.instruction instruction] := by
  cases instruction <;> first | rfl | cases declares

namespace Shader

variable {source before after : Shader} {free : VariableId → Prop}

theorem Grows.mem_ownNodes (grows : Grows source free before after) {node : Node}
    (listed : node ∈ before.topLevel.ownNodes) : node ∈ after.topLevel.ownNodes := by
  obtain ⟨instruction, there, inner⟩ := Block.mem_ownNodes.mp listed
  exact Block.mem_ownNodes.mpr ⟨instruction, grows.mem_topLevel.1 there, inner⟩

theorem FunctionsOnTop.grows (on_top : before.FunctionsOnTop)
    (grows : Grows source free before after) :
    after.FunctionsOnTop where
  statements := by
    intro id listed
    obtain ⟨instruction, there, inner⟩ := Block.mem_ownNodes.mp listed
    obtain ⟨in_after, kept⟩ := List.mem_filter.mp there
    rcases grows.mem_topLevel.2 in_after with old | declares
    · exact on_top.statements id
        (Block.mem_ownNodes.mpr ⟨instruction, List.mem_filter.mpr ⟨old, kept⟩, inner⟩)
    · rw [Instruction.nodes_of_isDeclaration declares, List.mem_singleton] at inner
      cases inner
      cases kept
  bodies := by
    intro id is_declared signature listed
    obtain ⟨more, extended, announced⟩ := grows.signaturesOf id
    rw [extended] at listed
    rcases List.mem_append.mp listed with old | new
    · rcases grows.mem_declaredFunctions is_declared with was_declared | beyond
      · exact on_top.bodies id was_declared signature old
      · rw [signaturesOf_eq_nil beyond] at old
        cases old
    · rw [(announced signature new).body]
      intro other inner
      cases inner

/-- Growing adds no calls. -/
theorem FunctionsOnTop.callees_grows (on_top : before.FunctionsOnTop)
    (grows : Grows source free before after) {callee : Callee}
    (listed : callee ∈ callees after.nodes) :
    callee ∈ callees before.nodes := by
  rw [mem_callees_nodes on_top]
  rcases (mem_callees_nodes (on_top.grows grows)).mp listed
    with own | ⟨id, is_declared, signature, there, inner⟩
  · obtain ⟨arguments, result, own⟩ := mem_callees_iff.mp own
    obtain ⟨instruction, in_after, inner⟩ := Block.mem_ownNodes.mp own
    rcases grows.mem_topLevel.2 in_after with old | declares
    · exact .inl (mem_callees (Block.mem_ownNodes.mpr ⟨instruction, old, inner⟩))
    · rw [Instruction.nodes_of_isDeclaration declares, List.mem_singleton] at inner
      cases inner
      cases declares
  · obtain ⟨more, extended, announced⟩ := grows.signaturesOf id
    rw [extended] at there
    rcases List.mem_append.mp there with old | new
    · rcases grows.mem_declaredFunctions is_declared with was_declared | beyond
      · exact .inr ⟨id, was_declared, signature, old, inner⟩
      · rw [signaturesOf_eq_nil beyond] at old
        cases old
    · rw [(announced signature new).body] at inner
      cases inner

/-! ## Changing a body -/

variable {shader : Shader} {target : Callee} {change : Signature → Signature} {body : Block}

/-- A signature of the changed shader has been there, or has the new body. -/
theorem mem_signaturesOf_modifySignature (renewed : ∀ signature, (change signature).body = body)
    {id : FunctionId} {signature : Signature}
    (listed : signature ∈ (shader.modifySignature target change).signaturesOf id) :
    signature ∈ shader.signaturesOf id ∨ signature.body = body := by
  rw [signaturesOf_modifySignature] at listed
  split at listed
  · obtain ⟨position, there⟩ := List.mem_iff_getElem?.mp listed
    rw [List.getElem?_modify] at there
    obtain ⟨old, held, equal⟩ := Option.map_eq_some_iff.mp there
    split at equal
    · exact .inr (equal ▸ renewed old)
    · exact .inl (List.mem_of_getElem? (held.trans (congrArg some equal)))
  · exact .inl listed

theorem FunctionsOnTop.modifySignature (on_top : shader.FunctionsOnTop)
    (renewed : ∀ signature, (change signature).body = body) (body_free : body.FunctionFree) :
    (shader.modifySignature target change).FunctionsOnTop where
  statements := on_top.statements
  bodies := by
    intro id is_declared signature listed
    rcases mem_signaturesOf_modifySignature renewed listed with old | new
    · exact on_top.bodies id is_declared signature old
    · rw [new]
      exact body_free

theorem FunctionsOnTop.callees_modifySignature (on_top : shader.FunctionsOnTop)
    (renewed : ∀ signature, (change signature).body = body) (body_free : body.FunctionFree)
    {callee : Callee} (listed : callee ∈ callees (shader.modifySignature target change).nodes) :
    callee ∈ callees shader.nodes ∨ callee ∈ callees body.ownNodes := by
  rw [mem_callees_nodes on_top]
  rcases (mem_callees_nodes (on_top.modifySignature renewed body_free)).mp listed with
    own | ⟨id, is_declared, signature, there, inner⟩
  · exact .inl (.inl own)
  · rcases mem_signaturesOf_modifySignature renewed there with old | new
    · exact .inl (.inr ⟨id, is_declared, signature, old, inner⟩)
    · rw [new] at inner
      exact .inr inner

end Shader
end StageLink
