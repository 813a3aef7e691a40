import StageLink.Proofs.Growth
import StageLink.Proofs.Occurrences
import StageLink.Proofs.Touches

/-!
# Nodes of a shader

The nodes of a shader include those of the bodies of all functions that it declares.  Whatever
occurs in a node occurs as a node of its own, so a variable is touched wherever one of its elements
is.
-/

namespace StageLink

/-! ## Nodes inside nodes -/

section Inner

variable {inner : Place}

mutual

theorem Place.nodes_of_mem : (place : Place) → Node.place inner ∈ place.nodes →
    ∀ node ∈ inner.nodes, node ∈ place.nodes
  | .whole id, listed => by
      obtain rfl : inner = .whole id := by simpa [Place.nodes] using listed
      exact fun _ here => here
  | .element array index ty, listed => by
      rw [Place.nodes, List.mem_cons, List.mem_append] at listed
      rcases listed with same | in_array | in_index
      · cases same
        exact fun _ here => here
      · intro node here
        have deeper := array.nodes_of_mem in_array node here
        simp [Place.nodes, deeper]
      · intro node here
        have deeper := index.nodes_of_mem in_index node here
        simp [Place.nodes, deeper]
  | .field record name ty, listed => by
      rw [Place.nodes, List.mem_cons] at listed
      rcases listed with same | in_record
      · cases same
        exact fun _ here => here
      · exact fun node here => List.mem_cons_of_mem _ (record.nodes_of_mem in_record node here)

theorem Expr.nodes_of_mem : (expression : Expr) → Node.place inner ∈ expression.nodes →
    ∀ node ∈ inner.nodes, node ∈ expression.nodes
  | .constant _, listed => by simp [Expr.nodes] at listed
  | .load place, listed => by
      have deeper := place.nodes_of_mem (by simpa [Expr.nodes] using listed)
      exact fun node here => List.mem_cons_of_mem _ (deeper node here)
  | .unary _ operand _, listed => by
      have deeper := operand.nodes_of_mem (by simpa [Expr.nodes] using listed)
      exact fun node here => List.mem_cons_of_mem _ (deeper node here)
  | .binary _ left right _, listed => by
      intro node here
      rcases (by simpa [Expr.nodes] using listed : _ ∨ _) with in_left | in_right
      · simp [Expr.nodes, left.nodes_of_mem in_left node here]
      · simp [Expr.nodes, right.nodes_of_mem in_right node here]
  | .swizzle value _ _, listed => by
      have deeper := value.nodes_of_mem (by simpa [Expr.nodes] using listed)
      exact fun node here => List.mem_cons_of_mem _ (deeper node here)
  | .compose ty components, listed => by
      rw [Expr.nodes, List.mem_cons] at listed
      have deeper := Expr.nodesOfAll_of_mem components (listed.resolve_left (by simp))
      exact fun node here => by
        rw [Expr.nodes]
        exact List.mem_cons_of_mem _ (deeper node here)
  | .texture sampler coordinate _, listed => by
      intro node here
      rcases (by simpa [Expr.nodes] using listed : _ ∨ _) with in_sampler | in_coordinate
      · simp [Expr.nodes, sampler.nodes_of_mem in_sampler node here]
      · simp [Expr.nodes, coordinate.nodes_of_mem in_coordinate node here]

theorem Expr.nodesOfAll_of_mem : (expressions : List Expr) →
    Node.place inner ∈ Expr.nodesOfAll expressions →
    ∀ node ∈ inner.nodes, node ∈ Expr.nodesOfAll expressions
  | [], listed => by cases listed
  | expression :: expressions, listed => by
      intro node here
      rw [Expr.nodesOfAll, List.mem_append] at listed ⊢
      rcases listed with first | later
      · exact .inl (expression.nodes_of_mem first node here)
      · exact .inr (Expr.nodesOfAll_of_mem expressions later node here)

end

theorem Instruction.operandNodes_of_mem (instruction : Instruction)
    (listed : Node.place inner ∈ instruction.operandNodes) :
    ∀ node ∈ inner.nodes, node ∈ instruction.operandNodes := by
  intro node here
  cases instruction with
  | assign target value guard =>
      simp only [operandNodes, List.mem_append, List.mem_flatMap] at listed ⊢
      rcases listed with (in_target | in_value) | ⟨condition, there, inside⟩
      · exact .inl (.inl (Place.nodes_of_mem target in_target node here))
      · exact .inl (.inr (value.nodes_of_mem in_value node here))
      · exact .inr ⟨condition, there, condition.nodes_of_mem inside node here⟩
  | call callee arguments result =>
      simp only [operandNodes, List.mem_append, List.mem_flatMap] at listed ⊢
      rcases listed with ⟨argument, there, inside⟩ | ⟨place, there, inside⟩
      · exact .inl ⟨argument, there, argument.nodes_of_mem inside node here⟩
      · exact .inr ⟨place, there, Place.nodes_of_mem place inside node here⟩
  | branch condition accept reject => exact condition.nodes_of_mem listed node here
  | yield value =>
      simp only [operandNodes, List.mem_flatMap] at listed ⊢
      obtain ⟨result, there, inside⟩ := listed
      exact ⟨result, there, result.nodes_of_mem inside node here⟩
  | _ => cases listed

variable {inside : FunctionId → List Node}

mutual

theorem Instruction.nodes_of_mem (closed : ∀ id, Node.place inner ∈ inside id →
      ∀ node ∈ inner.nodes, node ∈ inside id) : (instruction : Instruction) →
    Node.place inner ∈ instruction.nodes inside →
    ∀ node ∈ inner.nodes, node ∈ instruction.nodes inside
  | .function id, listed => fun node here =>
      List.mem_cons_of_mem _ (closed id (by simpa [Instruction.nodes] using listed) node here)
  | .branch condition accept reject, listed => fun node here => by
      simp only [Instruction.nodes, List.mem_cons, List.mem_append] at listed ⊢
      rcases listed with same | (in_condition | in_accept) | in_reject
      · cases same
      · exact .inr (.inl (.inl (condition.nodes_of_mem in_condition node here)))
      · exact .inr (.inl (.inr (Block.nodes_of_mem closed accept in_accept node here)))
      · exact .inr (.inr (Block.nodes_of_mem closed reject in_reject node here))
  | .loop body, listed => fun node here =>
      List.mem_cons_of_mem _
        (Block.nodes_of_mem closed body (by simpa [Instruction.nodes] using listed) node here)
  | .assign _ _ _, listed | .call _ _ _, listed | .yield _, listed => fun node here =>
      List.mem_cons_of_mem _ (Instruction.operandNodes_of_mem _
        ((List.mem_cons.mp listed).resolve_left (by simp)) node here)
  | .declare _, listed | .leave, listed | .next, listed | .discard, listed | .emitVertex, listed
  | .endPrimitive, listed => by simp [Instruction.nodes] at listed

theorem Block.nodes_of_mem (closed : ∀ id, Node.place inner ∈ inside id →
      ∀ node ∈ inner.nodes, node ∈ inside id) : (block : List Instruction) →
    Node.place inner ∈ Block.nodes inside block →
    ∀ node ∈ inner.nodes, node ∈ Block.nodes inside block
  | [], listed => by cases listed
  | instruction :: rest, listed => fun node here => by
      rw [Block.nodes, List.mem_append] at listed ⊢
      rcases listed with first | later
      · exact .inl (instruction.nodes_of_mem closed first node here)
      · exact .inr (Block.nodes_of_mem closed rest later node here)

end

end Inner

section Operands

variable {inner : Instruction}

mutual

theorem Instruction.operands_of_mem : (instruction : Instruction) →
    Node.instruction inner ∈ instruction.nodes (fun _ => []) →
    ∀ node ∈ inner.operandNodes, node ∈ instruction.nodes fun _ => []
  | .branch condition accept reject, listed => fun node here => by
      simp only [Instruction.nodes, List.mem_cons, List.mem_append] at listed ⊢
      rcases listed with same | (in_condition | in_accept) | in_reject
      · cases same
        exact .inr (.inl (.inl here))
      · exact absurd in_condition (condition.no_instruction inner)
      · exact .inr (.inl (.inr (Block.operands_of_mem accept in_accept node here)))
      · exact .inr (.inr (Block.operands_of_mem reject in_reject node here))
  | .loop body, listed => fun node here => by
      rw [Instruction.nodes, List.mem_cons] at listed ⊢
      rcases listed with same | inside
      · cases same
        cases here
      · exact .inr (Block.operands_of_mem body inside node here)
  | .assign _ _ _, listed | .call _ _ _, listed | .yield _, listed => fun node here => by
      rcases List.mem_cons.mp listed with same | in_operands
      · cases same
        exact List.mem_cons_of_mem _ here
      · exact absurd in_operands (Instruction.operands_no_instruction _ inner)
  | .declare _, listed | .function _, listed | .leave, listed | .next, listed | .discard, listed
  | .emitVertex, listed | .endPrimitive, listed => fun node here => by
      cases List.mem_singleton.mp listed
      cases here

/-- The operands of what an instruction list contains belong to it. -/
theorem Block.operands_of_mem : (block : List Instruction) →
    Node.instruction inner ∈ Block.ownNodes block →
    ∀ node ∈ inner.operandNodes, node ∈ Block.ownNodes block
  | [], listed => by cases listed
  | instruction :: rest, listed => fun node here => by
      rw [Block.ownNodes, Block.nodes, List.mem_append] at listed ⊢
      exact listed.imp (fun first => instruction.operands_of_mem first node here)
        fun later => Block.operands_of_mem rest later node here

end

end Operands

theorem Block.touches_whole {block : Block} {id : VariableId} {index : Nat}
    (touched : Touch.element id index ∈ touches block.ownNodes) :
    Touch.whole id ∈ touches block.ownNodes := by
  obtain ⟨node, listed, touch⟩ := List.mem_filterMap.mp touched
  rw [mem_touches_whole]
  cases node with
  | place place =>
      cases place with
      | element array position ty =>
          cases array with
          | whole other =>
              obtain ⟨_, -, equal⟩ := Option.map_eq_some_iff.mp touch
              cases equal
              exact Block.nodes_of_mem (by simp) block listed _ (by simp [Place.nodes])
          | _ => cases touch
      | _ => cases touch
  | _ => cases touch

/-! ## Nodes of declared functions -/

section Declared

variable {inside : FunctionId → List Node}

mutual

theorem Instruction.nodes_of_own : (instruction : Instruction) →
    ∀ node ∈ instruction.nodes (fun _ => []), node ∈ instruction.nodes inside
  | .function id => by simp [Instruction.nodes]
  | .branch condition accept reject => fun node listed => by
      simp only [Instruction.nodes, List.mem_cons, List.mem_append] at listed ⊢
      rcases listed with same | (in_condition | in_accept) | in_reject
      · exact .inl same
      · exact .inr (.inl (.inl in_condition))
      · exact .inr (.inl (.inr (Block.nodes_of_own accept node in_accept)))
      · exact .inr (.inr (Block.nodes_of_own reject node in_reject))
  | .loop body => fun node listed => by
      rw [Instruction.nodes, List.mem_cons] at listed ⊢
      exact listed.imp (fun same => same) (Block.nodes_of_own body node)
  | .assign _ _ _ | .call _ _ _ | .yield _ | .declare _ | .leave | .next | .discard | .emitVertex
  | .endPrimitive => fun _ listed => listed

theorem Block.nodes_of_own : (block : List Instruction) →
    ∀ node ∈ Block.ownNodes block, node ∈ Block.nodes inside block
  | [] => fun _ listed => listed
  | instruction :: rest => fun node listed => by
      rw [Block.ownNodes, Block.nodes, List.mem_append] at listed
      rw [Block.nodes, List.mem_append]
      exact listed.imp (instruction.nodes_of_own node) (Block.nodes_of_own rest node)

end

theorem Block.nodes_of_function {block : Block} {id : FunctionId}
    (listed : Instruction.function id ∈ block) :
    ∀ node ∈ inside id, node ∈ Block.nodes inside block := by
  intro node here
  induction block with
  | nil => cases listed
  | cons instruction rest ih =>
      rw [Block.nodes, List.mem_append]
      rcases List.mem_cons.mp listed with rfl | later
      · exact .inl (List.mem_cons_of_mem _ here)
      · exact .inr (ih later)

/-- The nodes of a shader include those of all bodies of the functions it declares. -/
theorem Shader.nodes_of_body {shader : Shader} {id : FunctionId} {signature : Signature}
    (is_declared : id ∈ shader.declaredFunctions) (listed : signature ∈ shader.signaturesOf id) :
    ∀ node ∈ signature.body.ownNodes, node ∈ shader.nodes := by
  intro node here
  refine Block.nodes_of_function (mem_declaredFunctions.mp is_declared) node ?_
  have there : 0 < shader.functions.size := by
    cases found : shader.functions.get? id with
    | none => simp [signaturesOf, found] at listed
    | some function => exact Nat.lt_of_le_of_lt (Nat.zero_le id) (Arena.lt_of_get? found)
  obtain ⟨depth, deep⟩ : ∃ depth, shader.functions.size = depth + 1 :=
    Nat.exists_eq_succ_of_ne_zero (Nat.ne_of_gt there)
  rw [deep, insideFunction, List.mem_flatMap]
  exact ⟨signature, listed, Block.nodes_of_own signature.body node here⟩

mutual

theorem Instruction.own_or_inside {node : Node} : (instruction : Instruction) →
    node ∈ instruction.nodes inside →
      node ∈ instruction.nodes (fun _ => []) ∨ ∃ id, node ∈ inside id
  | .function id => fun listed => by
      rcases List.mem_cons.mp listed with rfl | here
      · exact .inl (List.mem_cons_self ..)
      · exact .inr ⟨id, here⟩
  | .branch condition accept reject => fun listed => by
      simp only [Instruction.nodes, List.mem_cons, List.mem_append] at listed ⊢
      rcases listed with same | (in_condition | in_accept) | in_reject
      · exact .inl (.inl same)
      · exact .inl (.inr (.inl (.inl in_condition)))
      · exact (Block.own_or_inside accept in_accept).imp_left fun own => .inr (.inl (.inr own))
      · exact (Block.own_or_inside reject in_reject).imp_left fun own => .inr (.inr own)
  | .loop body => fun listed => by
      rw [Instruction.nodes, List.mem_cons] at listed ⊢
      rcases listed with same | in_body
      · exact .inl (.inl same)
      · exact (Block.own_or_inside body in_body).imp_left .inr
  | .assign _ _ _ | .call _ _ _ | .yield _ | .declare _ | .leave | .next | .discard | .emitVertex
  | .endPrimitive => .inl

theorem Block.own_or_inside {node : Node} : (block : List Instruction) →
    node ∈ Block.nodes inside block → node ∈ Block.ownNodes block ∨ ∃ id, node ∈ inside id
  | [] => fun listed => .inl listed
  | instruction :: rest => fun listed => by
      rw [Block.nodes, List.mem_append] at listed
      rw [Block.ownNodes, Block.nodes, List.mem_append]
      rcases listed with first | later
      · exact (instruction.own_or_inside first).imp_left .inl
      · exact (Block.own_or_inside rest later).imp_left .inr

end

theorem Shader.exists_body {shader : Shader} {node : Node} (listed : node ∈ shader.nodes) :
    ∃ body ∈ shader.bodies, node ∈ Block.ownNodes body := by
  have in_function : ∀ depth id, node ∈ shader.insideFunction depth id →
      ∃ body ∈ shader.bodies, node ∈ Block.ownNodes body := by
    intro depth
    induction depth with
    | zero => exact fun _ none_there => absurd none_there List.not_mem_nil
    | succ depth ih =>
        intro id here
        obtain ⟨signature, there, in_body⟩ := List.mem_flatMap.mp here
        rcases Block.own_or_inside signature.body in_body with own | ⟨inner, deeper⟩
        · exact ⟨signature.body, mem_bodies.mpr (.inr ⟨id, signature, there, rfl⟩), own⟩
        · exact ih inner deeper
  rcases Block.own_or_inside shader.topLevel listed with own | ⟨id, here⟩
  · exact ⟨shader.topLevel, mem_bodies.mpr (.inl rfl), own⟩
  · exact in_function _ id here

end Declared
end StageLink
