import StageLink.Proofs.Bodies
import StageLink.Proofs.Layout
import StageLink.Proofs.Passes

/-!
# Where calls go

Lists that are alike call related signatures in the same order, and a list that shrinks calls
nothing new.  A shader whose bodies are changed in such a way keeps its calls, or some of them.
-/

namespace StageLink

open Shader (callees)

/-! ## Instruction lists -/

section Blocks

variable {may : Simplification} {renames : Renaming}

theorem callees_of_operands {nodes : List Node}
    (operands : ∀ instruction, Node.instruction instruction ∉ nodes) : callees nodes = [] := by
  refine List.filterMap_eq_nil_iff.mpr fun node listed => ?_
  cases node with
  | instruction instruction => exact absurd listed (operands instruction)
  | _ => rfl

def Instruction.callee? : Instruction → Option Callee
  | .call callee _ _ => some callee
  | _ => none

theorem callees_cons (instruction : Instruction) (nodes : List Node) :
    callees (.instruction instruction :: nodes) = instruction.callee?.toList ++ callees nodes := by
  cases instruction <;> rfl

/-- The second nodes declare no function that the first do not, and each call in them has come from
one whose place it may take. -/
structure TracesBack (may : Simplification) (before after : List Node) : Prop where
  functions : ∀ id, Node.instruction (.function id) ∈ after →
    Node.instruction (.function id) ∈ before
  calls : ∀ callee ∈ callees after, ∃ original ∈ callees before, may.calls original callee

namespace TracesBack

variable {before after more others : List Node}

theorem nil (nodes : List Node) : TracesBack may nodes [] :=
  ⟨fun _ listed => (by cases listed), fun _ listed => (by cases listed)⟩

theorem append (first : TracesBack may before after) (second : TracesBack may more others) :
    TracesBack may (before ++ more) (after ++ others) where
  functions id listed :=
    List.mem_append.mpr ((List.mem_append.mp listed).imp (first.functions id) (second.functions id))
  calls callee listed := by
    rw [Shader.callees_append] at listed ⊢
    rcases List.mem_append.mp listed with here | there
    · obtain ⟨original, was, moved⟩ := first.calls callee here
      exact ⟨original, List.mem_append_left _ was, moved⟩
    · obtain ⟨original, was, moved⟩ := second.calls callee there
      exact ⟨original, List.mem_append_right _ was, moved⟩

/-- More nodes may have gone. -/
theorem mono (traces : TracesBack may before after) (fewer : before.Sublist more) :
    TracesBack may more after where
  functions id listed := fewer.subset (traces.functions id listed)
  calls callee listed := by
    obtain ⟨original, was, moved⟩ := traces.calls callee listed
    exact ⟨original, (fewer.filterMap _).subset was, moved⟩

/-- Operands neither declare functions nor call anything. -/
theorem operands (nodes : List Node)
    (operands : ∀ instruction, Node.instruction instruction ∉ after) :
    TracesBack may nodes after where
  functions id listed := absurd listed (operands _)
  calls callee listed := by rw [callees_of_operands operands] at listed; cases listed

/-- An instruction takes the place of another with its operands, or with its blocks. -/
theorem instruction (traces : TracesBack may before after) {one other : Instruction}
    (function : ∀ id, other = .function id → one = other)
    (called : ∀ callee ∈ other.callee?, ∃ original ∈ one.callee?, may.calls original callee) :
    TracesBack may (.instruction one :: before) (.instruction other :: after) where
  functions id listed := by
    rcases List.mem_cons.mp listed with here | later
    · obtain rfl : .function id = other := Node.instruction.inj here
      rw [function id rfl]
      exact List.mem_cons_self ..
    · exact List.mem_cons_of_mem _ (traces.functions id later)
  calls callee listed := by
    rw [callees_cons] at listed ⊢
    rcases List.mem_append.mp listed with here | later
    · obtain ⟨original, was, moved⟩ := called callee (Option.mem_toList.mp here)
      exact ⟨original, List.mem_append_left _ (Option.mem_toList.mpr was), moved⟩
    · obtain ⟨original, was, moved⟩ := traces.calls callee later
      exact ⟨original, List.mem_append_right _ was, moved⟩

end TracesBack

mutual

theorem Instruction.Shrinks.tracesBack : {instruction : Instruction} → {left : List Instruction} →
    Instruction.Shrinks may instruction left →
    TracesBack may (instruction.nodes fun _ => []) (Block.ownNodes left)
  | _, _, .drop _ => .nil _
  | instruction, _, .keep plain => by
      have alone : instruction.nodes (fun _ => []) = [.instruction instruction] := by
        cases instruction <;> first | rfl | cases plain
      rw [Block.ownNodes_singleton, alone]
      refine (TracesBack.nil []).instruction (fun _ _ => rfl) fun callee called => ?_
      cases instruction with
      | call callee arguments result => cases plain
      | _ => cases called
  | _, _, .assign _ => by
      rw [Block.ownNodes_singleton]
      exact (TracesBack.operands _ (Instruction.operands_no_instruction _)).instruction (by simp)
        fun _ called => by cases called
  | _, _, .call moves _ => by
      rw [Block.ownNodes_singleton]
      refine (TracesBack.operands _ (Instruction.operands_no_instruction _)).instruction
        (by simp) ?_
      rintro _ ⟨⟩
      exact ⟨_, rfl, moves⟩
  | _, _, .yield _ => by
      rw [Block.ownNodes_singleton]
      exact (TracesBack.operands _ (Instruction.operands_no_instruction _)).instruction (by simp)
        fun _ called => by cases called
  | .branch condition _ _, _,
      @Instruction.Shrinks.branch _ _ condition' _ _ _ _ _ accept reject => by
      rw [Block.ownNodes_singleton, Instruction.nodes_branch, Instruction.nodes_branch]
      have blocks := accept.tracesBack.append reject.tracesBack
      have inner := (TracesBack.operands condition.nodes condition'.no_instruction).append blocks
      rw [← List.append_assoc, ← List.append_assoc] at inner
      exact inner.instruction (by simp) fun _ called => by cases called
  | _, _, .accept accept => by
      refine accept.tracesBack.mono ?_
      exact ((List.sublist_append_right _ _).trans (List.sublist_append_left _ _)).cons _
  | _, _, .reject reject => reject.tracesBack.mono ((List.sublist_append_right _ _).cons _)
  | _, _, .loop body => by
      rw [Block.ownNodes_singleton, Instruction.nodes_loop, Instruction.nodes_loop]
      exact body.tracesBack.instruction (by simp) fun _ called => by cases called

/-- What is left of a list declares no new functions and has no new calls. -/
theorem Block.Shrinks.tracesBack : {block left : List Instruction} → Block.Shrinks may block left →
    TracesBack may (Block.ownNodes block) (Block.ownNodes left)
  | _, _, .nil => .nil _
  | _, _, .cons head tail => by
      rw [Block.ownNodes_append]
      exact head.tracesBack.append tail.tracesBack

end

theorem Block.Shrinks.functionFree {block left : Block} (shrinks : Block.Shrinks may block left)
    (free : block.FunctionFree) : left.FunctionFree :=
  fun id listed => free id (shrinks.tracesBack.functions id listed)

/-- Removing dead code removes no call. -/
theorem Block.callees_prune {targets declarations : List VariableId} (block : Block) :
    callees (Block.ownNodes (block.prune targets declarations)) = callees block.ownNodes := by
  have nothing : ∀ _ : FunctionId, bareInstructions [] =
      (bareInstructions []).filter (Shader.survives targets declarations) := fun _ => rfl
  have pruned : bareInstructions (Block.ownNodes (block.prune targets declarations)) = _ :=
    Block.bareInstructions_prune nothing block
  rw [Shader.callees_eq, pruned, Shader.callees_eq block.ownNodes]
  simp only [callees, List.filterMap_map, List.filterMap_filter]
  refine List.filterMap_congr fun instruction _ => ?_
  cases instruction <;> simp [Shader.survives]

theorem AlikeInOrder.declaredIn {nodes others : List Node}
    (alike : AlikeInOrder renames nodes others) :
    List.Forall₂ renames.declares (Shader.declaredIn nodes) (Shader.declaredIn others) := by
  refine List.rel_filterMap (fun one other related => ?_) alike
  cases related with
  | instruction related =>
      cases related with
      | declare declares => exact .some declares
      | _ => exact .none
  | _ => exact .none

theorem AlikeInOrder.callees {nodes others : List Node}
    (alike : AlikeInOrder renames nodes others) :
    List.Forall₂ renames.calls (Shader.callees nodes) (Shader.callees others) := by
  refine List.rel_filterMap (fun one other related => ?_) alike
  cases related with
  | instruction related =>
      cases related with
      | call same _ _ => exact .some same
      | _ => exact .none
  | _ => exact .none

/-- Lists that are alike call related signatures in the same order. -/
theorem Block.Alike.callees {block other : Block} (alike : Block.Alike renames block other) :
    List.Forall₂ renames.calls (Shader.callees block.ownNodes) (Shader.callees other.ownNodes) :=
  alike.ownNodes.callees

end Blocks

mutual

theorem Instruction.withoutFunctions_free : (instruction : Instruction) →
    CloneM.isNoFunction instruction = true → ∀ id, Node.instruction (.function id) ∉
      (Id.run (instruction.mapInnerBlocks fun inner =>
        pure (List.filter CloneM.isNoFunction inner))).nodes fun _ => []
  | .branch condition accept reject, _ => by
      intro id
      have first := Block.withoutFunctions_free accept id
      have second := Block.withoutFunctions_free reject id
      have operand := condition.no_instruction (.function id)
      simp only [Block.updateBlocks, Block.mapBlocks, Id.run_bind, Id.run_pure,
        Block.ownNodes] at first second
      simp [Instruction.mapInnerBlocks, Instruction.nodes, first, second, operand]
  | .loop body, _ => by
      intro id
      have inner := Block.withoutFunctions_free body id
      simp only [Block.updateBlocks, Block.mapBlocks, Id.run_bind, Id.run_pure,
        Block.ownNodes] at inner
      simp [Instruction.mapInnerBlocks, Instruction.nodes, inner]
  | .function _, no_function => by cases no_function
  | .assign target value guard, _ => fun id listed =>
      (Instruction.assign target value guard).operands_no_instruction _
        (List.mem_of_ne_of_mem (by simp) listed)
  | .call callee arguments result, _ => fun id listed =>
      (Instruction.call callee arguments result).operands_no_instruction _
        (List.mem_of_ne_of_mem (by simp) listed)
  | .yield value, _ => fun id listed =>
      (Instruction.yield value).operands_no_instruction _ (List.mem_of_ne_of_mem (by simp) listed)
  | .declare _, _ | .leave, _ | .next, _ | .discard, _ | .emitVertex, _ | .endPrimitive, _ => by
      simp [Instruction.mapInnerBlocks, Instruction.nodes]

/-- Leaving out function declarations leaves none. -/
theorem Block.withoutFunctions_free : (block : List Instruction) →
    Block.FunctionFree (Block.updateBlocks (List.filter CloneM.isNoFunction) block)
  | [] => fun id listed => by cases listed
  | instruction :: rest => by
      intro id
      have head := Instruction.withoutFunctions_free instruction
      have tail := Block.withoutFunctions_free rest id
      simp only [Block.updateBlocks, Block.mapBlocks, Block.mapInnerBlocks,
        Id.run_bind, Id.run_pure,
        List.filter_cons] at head tail ⊢
      split
      · next kept =>
          have is_kept : CloneM.isNoFunction instruction = true := by
            cases instruction with
            | function id => exact kept
            | _ => rfl
          rw [Block.ownNodes_cons, List.mem_append, not_or]
          exact ⟨head is_kept id, tail⟩
      · exact tail

end

end StageLink
