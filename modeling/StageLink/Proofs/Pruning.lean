import StageLink.Optimize.DeadCode
import StageLink.Proofs.Nodes
import StageLink.Proofs.Semantics
import StageLink.Proofs.Shrinking

/-!
# Pruning

Removing dead code drops assignments and declarations and keeps every other instruction.  What makes
an assignment dead is a count: each assignment mentions the variable it goes to once, so a variable
that is mentioned no more often than it is assigned to is not mentioned in any other way.
-/

namespace StageLink

/-! ## Counting -/

def Instruction.readNodes : Instruction → List Node
  | .assign target value guard =>
      Semantics.indexNodes target ++ value.nodes ++ guard.toList.flatMap Expr.nodes
  | other => other.operandNodes

def Node.reads (id : VariableId) : Node → Nat
  | .instruction found => found.readNodes.countP (Node.refersTo id)
  | _ => 0

/-- A variable is mentioned once by each assignment to it, and otherwise where it is read. -/
def Balanced (id : VariableId) (nodes : List Node) : Prop :=
  nodes.countP (Node.refersTo id) =
    nodes.countP (Node.assignsTo id) + total (nodes.map (Node.reads id))

theorem Balanced.append {id : VariableId} {nodes more : List Node} (first : Balanced id nodes)
    (second : Balanced id more) : Balanced id (nodes ++ more) := by
  unfold Balanced at *
  rw [List.countP_append, List.countP_append, List.map_append, total_append, first, second]
  omega

theorem countP_refersTo_place (id : VariableId) (place : Place) :
    place.nodes.countP (Node.refersTo id) =
      (if place.root = id then 1 else 0) +
        (Semantics.indexNodes place).countP (Node.refersTo id) := by
  cases place with
  | whole found =>
      by_cases same : found = id <;> simp [Place.nodes, Place.root, Semantics.indexNodes,
        Node.refersTo, same]
  | element array index ty =>
      have deeper := countP_refersTo_place id array
      by_cases same : array.root = id <;>
        simp [Place.nodes, Place.root, Semantics.indexNodes, Node.refersTo, same, deeper]
      all_goals omega
  | field record name ty =>
      have deeper := countP_refersTo_place id record
      by_cases same : record.root = id <;>
        simp [Place.nodes, Place.root, Semantics.indexNodes, Node.refersTo, same, deeper]

/-- Nodes without instructions neither assign nor read by themselves. -/
theorem countP_assignsTo_of_operands (id : VariableId) {nodes : List Node}
    (operands : ∀ instruction, Node.instruction instruction ∉ nodes) :
    nodes.countP (Node.assignsTo id) = 0 ∧ total (nodes.map (Node.reads id)) = 0 := by
  induction nodes with
  | nil => exact ⟨rfl, rfl⟩
  | cons node nodes ih =>
      obtain ⟨assigns, reads⟩ := ih fun instruction listed =>
        operands instruction (List.mem_cons_of_mem node listed)
      cases node with
      | instruction instruction => exact absurd (List.mem_cons_self ..) (operands instruction)
      | expr expression => simp [Node.assignsTo, Node.reads, assigns, reads]
      | place place => simp [Node.assignsTo, Node.reads, assigns, reads]

theorem Instruction.balanced_operands (id : VariableId) (instruction : Instruction) :
    Balanced id (.instruction instruction :: instruction.operandNodes) := by
  obtain ⟨assigns, reads⟩ := countP_assignsTo_of_operands id instruction.operands_no_instruction
  rw [Balanced, List.countP_cons, List.countP_cons, List.map_cons, total_cons, assigns, reads]
  cases instruction with
  | assign target value guard =>
      have once := countP_refersTo_place id target
      by_cases same : target.root = id <;>
        simp [operandNodes, Node.refersTo, Node.assignsTo, Node.reads, readNodes, once, same]
      all_goals omega
  | _ => simp [Node.refersTo, Node.assignsTo, Node.reads, readNodes]

section Nodes

variable {id : VariableId} {inside : FunctionId → List Node}

mutual

theorem Instruction.balanced (each : ∀ function, Balanced id (inside function)) :
    (instruction : Instruction) → Balanced id (instruction.nodes inside)
  | .function function =>
      (Instruction.balanced_operands id (.function function)).append (each function)
  | .branch condition accept reject => by
      have own := Instruction.balanced_operands id (.branch condition accept reject)
      have blocks := (Block.balanced each accept).append (Block.balanced each reject)
      have together := own.append blocks
      rwa [← List.append_assoc] at together
  | .loop body => (Instruction.balanced_operands id (.loop body)).append (Block.balanced each body)
  | .declare found => Instruction.balanced_operands id (.declare found)
  | .assign target value guard => Instruction.balanced_operands id (.assign target value guard)
  | .call callee arguments result =>
      Instruction.balanced_operands id (.call callee arguments result)
  | .yield value => Instruction.balanced_operands id (.yield value)
  | .leave => Instruction.balanced_operands id .leave
  | .next => Instruction.balanced_operands id .next
  | .discard => Instruction.balanced_operands id .discard
  | .emitVertex => Instruction.balanced_operands id .emitVertex
  | .endPrimitive => Instruction.balanced_operands id .endPrimitive

theorem Block.balanced (each : ∀ function, Balanced id (inside function)) :
    (block : List Instruction) → Balanced id (Block.nodes inside block)
  | [] => rfl
  | instruction :: rest => (Instruction.balanced each instruction).append (Block.balanced each rest)

end

end Nodes

namespace Shader

theorem balanced_insideFunction (shader : Shader) (id : VariableId) (depth : Nat)
    (function : FunctionId) : Balanced id (shader.insideFunction depth function) := by
  induction depth generalizing function with
  | zero => rfl
  | succ depth ih =>
      rw [insideFunction]
      induction shader.signaturesOf function with
      | nil => rfl
      | cons signature signatures rest =>
          rw [List.flatMap_cons]
          exact (Block.balanced ih signature.body).append rest

/-- A variable without more mentions than assignments is read by no instruction. -/
theorem avoids_of_isUnread {shader : Shader} {id : VariableId}
    (unread : isUnread shader.nodes id = true) {instruction : Instruction}
    (listed : Node.instruction instruction ∈ shader.nodes) :
    Node.place (.whole id) ∉ instruction.readNodes := by
  have balance : Balanced id shader.nodes :=
    Block.balanced (shader.balanced_insideFunction id _) shader.topLevel
  rw [isUnread, Bool.and_eq_true, decide_eq_true_eq] at unread
  have nothing : total (shader.nodes.map (Node.reads id)) = 0 := by
    unfold Balanced at balance
    omega
  have none_here := le_total_of_mem (List.mem_map_of_mem (f := Node.reads id) listed)
  intro here
  have some_here : 0 < instruction.readNodes.countP (Node.refersTo id) :=
    List.countP_pos_iff.mpr ⟨_, here, by simp [Node.refersTo]⟩
  rw [nothing] at none_here
  exact absurd (Nat.le_zero.mp none_here) (Nat.ne_of_gt some_here)

end Shader

/-! ## Dropping instructions -/

section Prune

variable {targets declarations : List VariableId}

/-- Drop all assignments to some targets and all declarations of some variables. -/
def Block.prune (targets declarations : List VariableId) (block : Block) : Block :=
  Block.updateBlocks (List.filter (Shader.survives targets declarations)) block

theorem Block.prune_cons (instruction : Instruction) (rest : Block) :
    Block.prune targets declarations (instruction :: rest) =
      Block.prune targets declarations [instruction] ++ Block.prune targets declarations rest := by
  change List.filter _ (Id.run _ :: Id.run _) = List.filter _ [Id.run _] ++ List.filter _ (Id.run _)
  rw [← List.filter_append, List.singleton_append]

@[simp]
theorem Block.prune_branch (condition : Expr) (accept reject : Block) :
    Block.prune targets declarations [.branch condition accept reject] =
      [.branch condition (Block.prune targets declarations accept)
        (Block.prune targets declarations reject)] := rfl

@[simp]
theorem Block.prune_loop (body : Block) :
    Block.prune targets declarations [.loop body] =
      [.loop (Block.prune targets declarations body)] := rfl

theorem Block.prune_assign (target : Place) (value : Expr) (guard : Option Expr) :
    Block.prune targets declarations [.assign target value guard] =
      if target.root ∈ targets then [] else [.assign target value guard] := by
  change List.filter (Shader.survives targets declarations) [.assign target value guard] = _
  by_cases dead : target.root ∈ targets <;> simp [Shader.survives, dead]

theorem Block.prune_declare (id : VariableId) :
    Block.prune targets declarations [.declare id] =
      if id ∈ declarations then [] else [.declare id] := by
  change List.filter (Shader.survives targets declarations) [.declare id] = _
  by_cases dead : id ∈ declarations <;> simp [Shader.survives, dead]

/-- The instructions among some nodes, without the blocks inside them. -/
def bareInstructions (nodes : List Node) : List Instruction :=
  nodes.filterMap fun
    | .instruction instruction => some instruction.bare
    | _ => none

@[simp]
theorem bareInstructions_append (nodes more : List Node) :
    bareInstructions (nodes ++ more) = bareInstructions nodes ++ bareInstructions more :=
  List.filterMap_append

theorem bareInstructions_cons (instruction : Instruction) (nodes : List Node) :
    bareInstructions (.instruction instruction :: nodes) =
      instruction.bare :: bareInstructions nodes := rfl

theorem bareInstructions_of_operands {nodes : List Node}
    (operands : ∀ instruction, Node.instruction instruction ∉ nodes) :
    bareInstructions nodes = [] := by
  refine List.filterMap_eq_nil_iff.mpr fun node listed => ?_
  cases node with
  | instruction instruction => exact absurd listed (operands instruction)
  | _ => rfl

/-- Without functions inside, an instruction without blocks contributes itself. -/
theorem bareInstructions_nodes {inside : FunctionId → List Node} {instruction : Instruction}
    (plain : instruction.nodes inside = .instruction instruction :: instruction.operandNodes) :
    bareInstructions (instruction.nodes inside) = [instruction.bare] := by
  rw [plain, bareInstructions_cons,
    bareInstructions_of_operands instruction.operands_no_instruction]

variable {inside inner : FunctionId → List Node}

mutual

theorem Instruction.bareInstructions_prune
    (each : ∀ function, bareInstructions (inner function) =
      (bareInstructions (inside function)).filter (Shader.survives targets declarations)) :
    (instruction : Instruction) →
      bareInstructions (Block.nodes inner (Block.prune targets declarations [instruction])) =
        (bareInstructions (instruction.nodes inside)).filter
          (Shader.survives targets declarations)
  | .branch condition accept reject => by
      have first := Block.bareInstructions_prune each accept
      have second := Block.bareInstructions_prune each reject
      rw [Block.prune_branch]
      simp only [Block.nodes, Instruction.nodes, List.append_nil, bareInstructions_cons,
        bareInstructions_append, bareInstructions_of_operands condition.no_instruction, first,
          second,
        List.filter_cons, List.filter_append, List.nil_append]
      rfl
  | .loop body => by
      have deeper := Block.bareInstructions_prune each body
      rw [Block.prune_loop]
      simp only [Block.nodes, Instruction.nodes, List.append_nil, bareInstructions_cons, deeper]
      rfl
  | .function function => by
      change bareInstructions (Block.nodes inner [.function function]) = _
      simp only [Block.nodes, Instruction.nodes, List.append_nil, bareInstructions_cons, each]
      rfl
  | .assign target value guard => by
      rw [bareInstructions_nodes rfl, Block.prune_assign]
      by_cases dead : target.root ∈ targets
      · simp [Instruction.bare, Instruction.withBlocks, Shader.survives, dead, Block.nodes,
          bareInstructions]
      · rw [if_neg dead, Block.nodes, Block.nodes, List.append_nil, bareInstructions_nodes rfl]
        simp [Instruction.bare, Instruction.withBlocks, Shader.survives, dead]
  | .declare id => by
      rw [bareInstructions_nodes rfl, Block.prune_declare]
      by_cases dead : id ∈ declarations
      · simp [Instruction.bare, Instruction.withBlocks, Shader.survives, dead, Block.nodes,
          bareInstructions]
      · rw [if_neg dead, Block.nodes, Block.nodes, List.append_nil, bareInstructions_nodes rfl]
        simp [Instruction.bare, Instruction.withBlocks, Shader.survives, dead]
  | .call callee arguments result => by
      change bareInstructions (Block.nodes inner [.call callee arguments result]) = _
      rw [Block.nodes, Block.nodes, List.append_nil, bareInstructions_nodes rfl,
        bareInstructions_nodes rfl]
      rfl
  | .yield value => by
      change bareInstructions (Block.nodes inner [.yield value]) = _
      rw [Block.nodes, Block.nodes, List.append_nil, bareInstructions_nodes rfl,
        bareInstructions_nodes rfl]
      rfl
  | .leave | .next | .discard | .emitVertex | .endPrimitive => rfl

/-- The instructions that are left are those that survive. -/
theorem Block.bareInstructions_prune
    (each : ∀ function, bareInstructions (inner function) =
      (bareInstructions (inside function)).filter (Shader.survives targets declarations)) :
    (block : List Instruction) →
      bareInstructions (Block.nodes inner (Block.prune targets declarations block)) =
        (bareInstructions (Block.nodes inside block)).filter
          (Shader.survives targets declarations)
  | [] => rfl
  | instruction :: rest => by
      rw [Block.prune_cons, Block.nodes_append, bareInstructions_append, Block.nodes,
        bareInstructions_append, List.filter_append,
        Instruction.bareInstructions_prune each instruction, Block.bareInstructions_prune each rest]

end

end Prune

/-! ## Shaders -/

theorem Arena.mem_indexed {Entry : Type} {arena : Arena Entry} {pair : Nat × Entry} :
    pair ∈ arena.indexed ↔ arena.get? pair.1 = some pair.2 := by
  obtain ⟨position, entry⟩ := pair
  simp [indexed, get?, List.mem_zipIdx_iff_getElem?]

theorem Arena.get?_map {Entry Result : Type} (arena : Arena Entry) (change : Entry → Result)
    (position : Nat) : (arena.map change).get? position = (arena.get? position).map change := by
  simp [map, get?]

theorem countP_assignsTo_eq (id : VariableId) (nodes : List Node) :
    nodes.countP (Node.assignsTo id) =
      (bareInstructions nodes).countP fun instruction =>
      (Node.instruction instruction).assignsTo id := by
  induction nodes with
  | nil => rfl
  | cons node nodes ih =>
      cases node with
      | instruction instruction =>
          rw [bareInstructions_cons, List.countP_cons, List.countP_cons, ih]
          cases instruction <;> rfl
      | _ => simpa [bareInstructions, Node.assignsTo] using ih

namespace Shader

theorem callees_eq (nodes : List Node) :
    callees nodes = callees ((bareInstructions nodes).map .instruction) := by
  induction nodes with
  | nil => rfl
  | cons node nodes ih =>
      cases node with
      | instruction instruction =>
          rw [bareInstructions_cons, List.map_cons]
          cases instruction <;> simpa [callees, Instruction.bare, Instruction.withBlocks] using ih
      | _ => simpa [callees, bareInstructions] using ih

theorem mem_callees {nodes : List Node} {callee : Callee} {arguments : List Expr}
    {result : Option Place} (listed : Node.instruction (.call callee arguments result) ∈ nodes) :
    callee ∈ callees nodes :=
  List.mem_filterMap.mpr ⟨_, listed, rfl⟩

theorem mem_deadTargets {shader : Shader} {id : VariableId} :
    id ∈ shader.deadTargets ↔ ∃ declaration, shader.vars.get? id = some declaration ∧
      isUnread shader.nodes id = true ∧ shader.nodes.any (Node.assignsTo id) = true ∧
      declaration.isOutput = false := by
  simp only [deadTargets, List.mem_map, List.mem_filter, Arena.mem_indexed, Bool.and_eq_true,
    Bool.not_eq_true']
  constructor
  · rintro ⟨⟨found, declaration⟩, ⟨there, ⟨unread, assigned⟩, no_output⟩, rfl⟩
    exact ⟨declaration, there, unread, assigned, no_output⟩
  · rintro ⟨declaration, there, unread, assigned, no_output⟩
    exact ⟨(id, declaration), ⟨there, ⟨unread, assigned⟩, no_output⟩, rfl⟩

theorem mem_deadDeclarations {shader : Shader} {keepUniforms : Bool} {id : VariableId} :
    id ∈ shader.deadDeclarations keepUniforms ↔ ∃ declaration,
      shader.vars.get? id = some declaration ∧ isUnread shader.nodes id = true ∧
      shader.nodes.any (Node.assignsTo id) = false ∧
      declaration.keepsDeclaration keepUniforms = false := by
  simp only [deadDeclarations, List.mem_map, List.mem_filter, Arena.mem_indexed, Bool.and_eq_true,
    Bool.not_eq_true']
  constructor
  · rintro ⟨⟨found, declaration⟩, ⟨there, ⟨unread, unassigned⟩, dropped⟩, rfl⟩
    exact ⟨declaration, there, unread, unassigned, dropped⟩
  · rintro ⟨declaration, there, unread, unassigned, dropped⟩
    exact ⟨(id, declaration), ⟨there, ⟨unread, unassigned⟩, dropped⟩, rfl⟩

theorem signaturesOf_updateBodies (shader : Shader) (change : Block → Block) (id : FunctionId) :
    (shader.updateBodies change).signaturesOf id =
      (shader.signaturesOf id).map fun signature =>
        { signature with body := change signature.body } := by
  simp only [signaturesOf, updateBodies, Arena.get?_map]
  cases shader.functions.get? id <;> rfl

section RemoveDeadCode

variable (shader : Shader) (keepUniforms : Bool)

theorem signaturesOf_removeDeadCode (id : FunctionId) :
    (shader.removeDeadCode keepUniforms).signaturesOf id =
      (shader.signaturesOf id).map fun signature =>
        { signature with
          body :=
            signature.body.prune shader.deadTargets (shader.deadDeclarations keepUniforms) } :=
  signaturesOf_updateBodies _ _ id

theorem bareInstructions_insideFunction (depth : Nat) (id : FunctionId) :
    bareInstructions ((shader.removeDeadCode keepUniforms).insideFunction depth id) =
      (bareInstructions (shader.insideFunction depth id)).filter
        (survives shader.deadTargets (shader.deadDeclarations keepUniforms)) := by
  induction depth generalizing id with
  | zero => rfl
  | succ depth ih =>
      rw [insideFunction, insideFunction, signaturesOf_removeDeadCode]
      induction shader.signaturesOf id with
      | nil => rfl
      | cons signature signatures rest =>
          rw [List.map_cons, List.flatMap_cons, List.flatMap_cons, bareInstructions_append,
            bareInstructions_append, List.filter_append, rest,
            Block.bareInstructions_prune ih signature.body]

theorem bareInstructions_removeDeadCode :
    bareInstructions (shader.removeDeadCode keepUniforms).nodes =
      (bareInstructions shader.nodes).filter
        (survives shader.deadTargets (shader.deadDeclarations keepUniforms)) := by
  have size : (shader.removeDeadCode keepUniforms).functions.size = shader.functions.size :=
    Arena.size_map _ _
  rw [nodes, nodes, size]
  exact Block.bareInstructions_prune (shader.bareInstructions_insideFunction keepUniforms _) _

/-- All calls are left. -/
theorem callees_removeDeadCode :
    callees (shader.removeDeadCode keepUniforms).nodes = callees shader.nodes := by
  rw [callees_eq, callees_eq shader.nodes, bareInstructions_removeDeadCode]
  simp only [callees, List.filterMap_map, List.filterMap_filter]
  refine List.filterMap_congr fun instruction _ => ?_
  cases instruction <;> simp [survives]

end RemoveDeadCode

/-- Some assignments to the variable have been removed. -/
def LosesStores (before after : Shader) (id : VariableId) : Prop :=
  after.nodes.countP (Node.assignsTo id) < before.nodes.countP (Node.assignsTo id)

instance (before after : Shader) (id : VariableId) : Decidable (LosesStores before after id) :=
  inferInstanceAs (Decidable (_ < _))

/-- Exactly the dead targets lose assignments. -/
theorem losesStores_removeDeadCode {shader : Shader} {keepUniforms : Bool} {id : VariableId} :
    LosesStores shader (shader.removeDeadCode keepUniforms) id ↔ id ∈ shader.deadTargets := by
  rw [LosesStores, countP_assignsTo_eq, countP_assignsTo_eq id shader.nodes,
    bareInstructions_removeDeadCode, List.countP_filter]
  by_cases dead : id ∈ shader.deadTargets
  · obtain ⟨_, -, -, assigned, -⟩ := mem_deadTargets.mp dead
    have some_stores : 0 < shader.nodes.countP (Node.assignsTo id) :=
      List.countP_pos_iff.mpr (List.any_eq_true.mp assigned)
    have none_left : (bareInstructions shader.nodes).countP (fun instruction =>
        (Node.instruction instruction).assignsTo id &&
          survives shader.deadTargets (shader.deadDeclarations keepUniforms) instruction) = 0 := by
      refine List.countP_eq_zero.mpr fun instruction _ => ?_
      cases instruction with
      | assign target value guard =>
          rw [Bool.and_eq_true, Node.assignsTo, survives, decide_eq_true_eq]
          rintro ⟨rfl, survives⟩
          simp [dead] at survives
      | _ => simp [Node.assignsTo]
    rw [countP_assignsTo_eq] at some_stores
    exact ⟨fun _ => dead, fun _ => none_left ▸ some_stores⟩
  · have all_left : ∀ instruction ∈ bareInstructions shader.nodes,
        (((Node.instruction instruction).assignsTo id &&
          survives shader.deadTargets (shader.deadDeclarations keepUniforms) instruction) = true ↔
        (Node.instruction instruction).assignsTo id = true) := by
      intro instruction _
      cases instruction with
      | assign target value guard =>
          rw [Bool.and_eq_true, Node.assignsTo, survives, decide_eq_true_eq]
          refine ⟨And.left, fun same => ⟨same, ?_⟩⟩
          simpa [same] using dead
      | _ => simp [Node.assignsTo]
    rw [List.countP_congr all_left]
    exact ⟨fun fewer => absurd fewer (Nat.lt_irrefl _), fun listed => absurd listed dead⟩

/-- Removing dead code adds no assignments. -/
theorem stores_removeDeadCode_le (shader : Shader) (keepUniforms : Bool) (id : VariableId) :
    (shader.removeDeadCode keepUniforms).nodes.countP (Node.assignsTo id) ≤
      shader.nodes.countP (Node.assignsTo id) := by
  rw [countP_assignsTo_eq, countP_assignsTo_eq id shader.nodes, bareInstructions_removeDeadCode]
  exact List.filter_sublist.countP_le

end Shader
end StageLink
