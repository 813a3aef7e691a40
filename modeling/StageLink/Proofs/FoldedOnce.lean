import StageLink.Proofs.Folded
import StageLink.Proofs.Slots

/-!
# Folding once

One run of folding does all there is to do.  Operands are folded from the leaves up, then conditions
are resolved from the inner blocks outwards, and neither makes more work for the other, so a second
run finds nothing.  No condition that is a constant is left, and no operator on constants that has a
value, except in the samplers of texture lookups, which folding leaves alone.
-/

namespace StageLink

/-! ## What is left to do -/

/-- Whether the node is an operator on constants that has a value. -/
def Node.isEvaluable : Node → Bool
  | .expr expression => expression.value?.isSome
  | _ => false

/-- Whether the instruction depends on a condition that is a constant. -/
def Instruction.hasConstantCondition : Instruction → Bool
  | .branch condition _ _ => condition.constantBool?.isSome
  | .assign _ _ (some guard) => guard.constantBool?.isSome
  | _ => false

def samplersIn (nodes : List Node) : List Place :=
  nodes.filterMap fun
    | .expr (.texture sampler _ _) => some sampler
    | _ => none

/-- Whether a place holds an operator that has a value. -/
def Place.hasEvaluable (place : Place) : Bool := place.nodes.any Node.isEvaluable

@[simp]
theorem samplersIn_append (nodes more : List Node) :
    samplersIn (nodes ++ more) = samplersIn nodes ++ samplersIn more :=
  List.filterMap_append

/-! ## Places and expressions -/

theorem Place.folds_fold (place : Place) : place.fold.folds = false :=
  place.fold.exact_fold.same_iff.mpr place.fold_fold

theorem Expr.folds_fold (expression : Expr) : expression.fold.folds = false :=
  expression.fold.exact_fold.same_iff.mpr expression.fold_fold

theorem Expr.someFolds_foldAll (expressions : List Expr) :
    Expr.someFolds (Expr.foldAll expressions) = false :=
  (Expr.exact_foldAll _).same_iff.mpr (Expr.foldAll_foldAll expressions)

theorem Expr.samplersIn_reduce (expression : Expr) :
    (samplersIn expression.reduce.nodes).Sublist (samplersIn expression.nodes) := by
  cases value : expression.value? with
  | some found =>
      rw [Expr.reduce_of_value value]
      exact List.nil_sublist _
  | none => rw [Expr.reduce_of_none value]

mutual

theorem Place.samplersIn_fold : (place : Place) →
    (samplersIn place.fold.nodes).Sublist (samplersIn place.nodes)
  | .whole _ => List.Sublist.refl _
  | .element array index _ => by
      simpa [Place.fold, Place.nodes, samplersIn] using array.samplersIn_fold.append
        index.samplersIn_fold
  | .field record _ _ => record.samplersIn_fold

/-- Folding looks up no other samplers, and leaves those that it meets as they are. -/
theorem Expr.samplersIn_fold : (expression : Expr) →
    (samplersIn expression.fold.nodes).Sublist (samplersIn expression.nodes)
  | .constant _ => List.Sublist.refl _
  | .load place => place.samplersIn_fold
  | .unary _ operand _ => (Expr.samplersIn_reduce _).trans operand.samplersIn_fold
  | .binary _ left right _ => by
      refine (Expr.samplersIn_reduce _).trans ?_
      simpa [Expr.nodes, samplersIn] using left.samplersIn_fold.append right.samplersIn_fold
  | .swizzle value _ _ => (Expr.samplersIn_reduce _).trans value.samplersIn_fold
  | .compose _ components => Expr.samplersIn_foldAll components
  | .texture sampler coordinate _ => by
      simpa [Expr.fold, Expr.nodes, samplersIn] using coordinate.samplersIn_fold

theorem Expr.samplersIn_foldAll : (expressions : List Expr) →
    (samplersIn (Expr.nodesOfAll (Expr.foldAll expressions))).Sublist
      (samplersIn (Expr.nodesOfAll expressions))
  | [] => List.Sublist.refl _
  | expression :: expressions => by
      rw [Expr.foldAll, Expr.nodesOfAll, Expr.nodesOfAll, samplersIn_append, samplersIn_append]
      exact expression.samplersIn_fold.append (Expr.samplersIn_foldAll expressions)

end

/-- Some nodes hold operators that have values only in the samplers of texture lookups. -/
def OnlyInSamplers (nodes : List Node) : Prop :=
  ∀ node ∈ nodes, node.isEvaluable = true → ∃ sampler ∈ samplersIn nodes, node ∈ sampler.nodes

namespace OnlyInSamplers

variable {nodes more : List Node} {node : Node}

theorem nil : OnlyInSamplers [] := fun _ listed => absurd listed List.not_mem_nil

theorem append (first : OnlyInSamplers nodes) (second : OnlyInSamplers more) :
    OnlyInSamplers (nodes ++ more) := by
  intro node listed evaluable
  rw [samplersIn_append]
  rcases List.mem_append.mp listed with left | right
  · obtain ⟨sampler, among, inside⟩ := first node left evaluable
    exact ⟨sampler, List.mem_append_left _ among, inside⟩
  · obtain ⟨sampler, among, inside⟩ := second node right evaluable
    exact ⟨sampler, List.mem_append_right _ among, inside⟩

/-- A node in front that has no value itself. -/
theorem cons (only : OnlyInSamplers nodes) (plain : node.isEvaluable = false) :
    OnlyInSamplers (node :: nodes) := by
  intro other listed evaluable
  rcases List.mem_cons.mp listed with rfl | later
  · rw [plain] at evaluable
    cases evaluable
  · obtain ⟨sampler, among, inside⟩ := only other later evaluable
    exact ⟨sampler, (List.sublist_cons_self node nodes).filterMap _ |>.subset among, inside⟩

end OnlyInSamplers

mutual

theorem Place.onlyInSamplers : (place : Place) → place.folds = false → OnlyInSamplers place.nodes
  | .whole _, _ => .cons .nil rfl
  | .element array index _, nothing => by
      obtain ⟨in_array, in_index⟩ := Bool.or_eq_false_iff.mp nothing
      exact .cons ((array.onlyInSamplers in_array).append (index.onlyInSamplers in_index)) rfl
  | .field record _ _, nothing => .cons (record.onlyInSamplers nothing) rfl

/-- Where folding replaces nothing, an operator that has a value is in the sampler of a texture
lookup. -/
theorem Expr.onlyInSamplers : (expression : Expr) → expression.folds = false →
    OnlyInSamplers expression.nodes
  | .constant _, _ => .cons .nil rfl
  | .load place, nothing => .cons (place.onlyInSamplers nothing) rfl
  | .unary _ operand _, nothing => by
      obtain ⟨in_operand, unreduced⟩ := Bool.or_eq_false_iff.mp nothing
      rw [operand.exact_fold.same in_operand] at unreduced
      exact .cons (operand.onlyInSamplers in_operand) unreduced
  | .binary _ left right _, nothing => by
      obtain ⟨in_operands, unreduced⟩ := Bool.or_eq_false_iff.mp nothing
      obtain ⟨in_left, in_right⟩ := Bool.or_eq_false_iff.mp in_operands
      rw [left.exact_fold.same in_left, right.exact_fold.same in_right] at unreduced
      exact .cons ((left.onlyInSamplers in_left).append (right.onlyInSamplers in_right)) unreduced
  | .swizzle value _ _, nothing => by
      obtain ⟨in_value, unreduced⟩ := Bool.or_eq_false_iff.mp nothing
      rw [value.exact_fold.same in_value] at unreduced
      exact .cons (value.onlyInSamplers in_value) unreduced
  | .compose _ components, nothing => .cons (Expr.onlyInSamplers_all components nothing) rfl
  | .texture sampler coordinate ty, nothing => by
      -- The nodes of the sampler are those of a sampler by definition.
      intro node listed evaluable
      rw [Expr.nodes] at listed ⊢
      rcases List.mem_cons.mp listed with rfl | deeper
      · cases evaluable
      · rcases List.mem_append.mp deeper with inside | outside
        · exact ⟨sampler, List.mem_cons_self .., inside⟩
        · obtain ⟨other, among, inside⟩ := coordinate.onlyInSamplers nothing node outside evaluable
          have later :=
            ((List.sublist_append_right sampler.nodes coordinate.nodes).filterMap _).subset among
          exact ⟨other, List.mem_cons_of_mem _ later, inside⟩

theorem Expr.onlyInSamplers_all : (expressions : List Expr) → Expr.someFolds expressions = false →
    OnlyInSamplers (Expr.nodesOfAll expressions)
  | [], _ => .nil
  | expression :: expressions, nothing => by
      obtain ⟨in_first, in_rest⟩ := Bool.or_eq_false_iff.mp nothing
      exact (expression.onlyInSamplers in_first).append
        (Expr.onlyInSamplers_all expressions in_rest)

end

/-! ## Instructions -/

theorem Expr.foldsGuard_foldGuard (guard : Option Expr) :
    Expr.foldsGuard (Expr.foldGuard guard) = false := by
  cases guard with
  | none => rfl
  | some condition =>
      by_cases always : condition.fold.constantBool? = some true
      · rw [foldGuard, if_pos always]
        rfl
      · rw [foldGuard, if_neg always, foldsGuard, condition.folds_fold, condition.fold_fold]
        simpa using always

/-- Folding the operands of an instruction leaves none to fold. -/
theorem Instruction.folds_fold (instruction : Instruction) : instruction.fold.folds = false := by
  cases instruction with
  | assign target value guard =>
      rw [fold, folds, target.folds_fold, value.folds_fold, Expr.foldsGuard_foldGuard]
      rfl
  | call callee arguments result =>
      rw [fold, folds, Expr.someFolds_foldAll]
      cases result with
      | none => rfl
      | some place => exact place.folds_fold
  | branch condition accept reject => exact condition.folds_fold
  | yield value =>
      cases value with
      | none => rfl
      | some result => exact result.folds_fold
  | _ => rfl

/-- Whether a texture lookup in an operand has a sampler that holds an operator that has a value. -/
def Instruction.looksUpEvaluable (instruction : Instruction) : Bool :=
  (samplersIn instruction.operandNodes).any Place.hasEvaluable

theorem Instruction.samplersIn_fold (instruction : Instruction) :
    (samplersIn instruction.fold.operandNodes).Sublist (samplersIn instruction.operandNodes) := by
  cases instruction with
  | assign target value guard =>
      simp only [fold, operandNodes, samplersIn_append]
      refine (target.samplersIn_fold.append value.samplersIn_fold).append ?_
      cases guard with
      | none => exact List.Sublist.refl _
      | some condition =>
          rw [Expr.foldGuard]
          split
          · exact List.nil_sublist _
          · simpa using condition.samplersIn_fold
  | call callee arguments result =>
      simp only [fold, operandNodes, samplersIn_append, ← Expr.nodesOfAll_eq_flatMap]
      refine (Expr.samplersIn_foldAll arguments).append ?_
      cases result with
      | none => exact List.Sublist.refl _
      | some place => simpa using place.samplersIn_fold
  | branch condition accept reject => exact condition.samplersIn_fold
  | yield value =>
      cases value with
      | none => exact List.Sublist.refl _
      | some result => simpa [fold, operandNodes] using result.samplersIn_fold
  | _ => exact List.Sublist.refl _

theorem Instruction.looksUpEvaluable_fold {instruction : Instruction}
    (plain : instruction.looksUpEvaluable = false) : instruction.fold.looksUpEvaluable = false := by
  rw [looksUpEvaluable, List.any_eq_false] at plain ⊢
  exact fun sampler listed => plain sampler (instruction.samplersIn_fold.subset listed)

/-- Where operands are folded and conditions resolved, no condition is a constant. -/
theorem Instruction.hasConstantCondition_eq_false {instruction : Instruction}
    (folded : instruction.folds = false) (undecided : instruction.isDecided = false) :
    instruction.hasConstantCondition = false := by
  cases instruction with
  | assign target value guard =>
      cases guard with
      | none => rfl
      | some condition =>
          obtain ⟨-, in_guard⟩ := Bool.or_eq_false_iff.mp folded
          obtain ⟨in_condition, not_always⟩ := Bool.or_eq_false_iff.mp in_guard
          rw [condition.exact_fold.same in_condition] at not_always
          rw [isDecided] at undecided
          rw [hasConstantCondition]
          cases decided : condition.constantBool? with
          | none => rfl
          | some holds => cases holds <;> simp_all
  | branch condition accept reject => exact undecided
  | _ => rfl

theorem Instruction.onlyInSamplers {instruction : Instruction}
    (folded : instruction.folds = false) :
    OnlyInSamplers instruction.operandNodes := by
  cases instruction with
  | assign target value guard =>
      obtain ⟨in_sides, in_guard⟩ := Bool.or_eq_false_iff.mp folded
      obtain ⟨in_target, in_value⟩ := Bool.or_eq_false_iff.mp in_sides
      refine ((target.onlyInSamplers in_target).append (value.onlyInSamplers in_value)).append ?_
      cases guard with
      | none => exact .nil
      | some condition =>
          have in_condition := (Bool.or_eq_false_iff.mp in_guard).1
          simpa using condition.onlyInSamplers in_condition
  | call callee arguments result =>
      obtain ⟨in_arguments, in_result⟩ := Bool.or_eq_false_iff.mp folded
      rw [operandNodes, ← Expr.nodesOfAll_eq_flatMap]
      refine (Expr.onlyInSamplers_all arguments in_arguments).append ?_
      cases result with
      | none => exact .nil
      | some place => simpa using place.onlyInSamplers in_result
  | branch condition accept reject => exact condition.onlyInSamplers folded
  | yield value =>
      cases value with
      | none => exact .nil
      | some result => simpa [operandNodes] using result.onlyInSamplers folded
  | _ => exact .nil

/-! ## Instruction lists -/

section Lists

variable {source middle kind : Instruction → Bool}

/-- A kind that does not look into blocks excludes an instruction whatever its blocks hold. -/
theorem no_kind_of_bare (bare : ∀ instruction, kind instruction.bare = kind instruction)
    {one other : Instruction} (nothing : kind one = false) (same : other.bare = one.bare) :
    kind other = false := by
  rw [← bare other, same, bare one, nothing]

mutual

theorem Instruction.hasKind_mapFold
    (bare : ∀ instruction, middle instruction.bare = middle instruction)
    (folded : ∀ instruction, source instruction = false → middle instruction.fold = false) :
    (instruction : Instruction) → instruction.hasKind source = false →
      (Id.run (instruction.mapInstructions fun inner => pure inner.fold)).hasKind middle = false
  | .branch condition accept reject, nothing => by
      rw [Instruction.hasKind_branch, Bool.or_eq_false_iff, Bool.or_eq_false_iff] at nothing
      obtain ⟨here, in_accept, in_reject⟩ := nothing
      have condition_too :
        middle (.branch condition.fold (Block.updateInstructions Instruction.fold accept)
          (Block.updateInstructions Instruction.fold reject)) = false :=
        no_kind_of_bare bare (folded _ here) rfl
      change (Instruction.branch condition.fold (Block.updateInstructions Instruction.fold accept)
        (Block.updateInstructions Instruction.fold reject)).hasKind middle = false
      rw [Instruction.hasKind_branch, condition_too,
        Block.hasKind_mapFold bare folded accept in_accept,
        Block.hasKind_mapFold bare folded reject in_reject]
      rfl
  | .loop body, nothing => by
      rw [Instruction.hasKind_loop, Bool.or_eq_false_iff] at nothing
      have loop_too : middle (.loop (Block.updateInstructions Instruction.fold body)) = false :=
        no_kind_of_bare bare (folded _ nothing.1) rfl
      change (Instruction.loop (Block.updateInstructions Instruction.fold body)).hasKind middle =
        false
      rw [Instruction.hasKind_loop, loop_too, Block.hasKind_mapFold bare folded body nothing.2]
      rfl
  | .assign _ _ _, nothing | .call _ _ _, nothing | .yield _, nothing | .declare _, nothing
  | .function _, nothing | .leave, nothing | .next, nothing | .discard, nothing
  | .emitVertex, nothing | .endPrimitive, nothing => by
      rw [Instruction.hasKind_plain _ rfl] at nothing
      exact (Instruction.hasKind_plain _ rfl).trans (folded _ nothing)

theorem Block.hasKind_mapFold (bare : ∀ instruction, middle instruction.bare = middle instruction)
    (folded : ∀ instruction, source instruction = false → middle instruction.fold = false) :
    (block : List Instruction) → Block.hasKind source block = false →
      Block.hasKind middle (Block.updateInstructions Instruction.fold block) = false
  | [], _ => rfl
  | instruction :: rest, nothing => by
      rw [Block.hasKind_cons, Bool.or_eq_false_iff] at nothing
      have here := Instruction.hasKind_mapFold bare folded instruction nothing.1
      exact (Block.hasKind_cons _ _ _).trans
        (Bool.or_eq_false_iff.mpr ⟨here, Block.hasKind_mapFold bare folded rest nothing.2⟩)

end

theorem Block.hasKind_singleton (kind : Instruction → Bool) (instruction : Instruction) :
    Block.hasKind kind [instruction] = instruction.hasKind kind := by
  rw [Block.hasKind_cons, Block.hasKind_nil, Bool.or_false]

mutual

theorem Instruction.hasKind_resolve
    (bare : ∀ instruction, middle instruction.bare = middle instruction)
    (resolved : ∀ instruction, middle instruction = false → instruction.isDecided = false →
      kind instruction = false) :
    (instruction : Instruction) → instruction.hasKind middle = false →
      Block.hasKind kind (Instruction.resolve (Id.run
        (instruction.mapInnerBlocks fun inner => pure (inner.flatMap Instruction.resolve)))) = false
  | .branch condition accept reject, nothing => by
      rw [Instruction.hasKind_branch, Bool.or_eq_false_iff, Bool.or_eq_false_iff] at nothing
      obtain ⟨here, in_accept, in_reject⟩ := nothing
      have accept_too := Block.hasKind_resolve bare resolved accept in_accept
      have reject_too := Block.hasKind_resolve bare resolved reject in_reject
      change Block.hasKind kind (Instruction.resolve (.branch condition
        (Block.updateBlocks (List.flatMap Instruction.resolve) accept)
        (Block.updateBlocks (List.flatMap Instruction.resolve) reject))) = false
      cases decided : condition.constantBool? with
      | some holds => cases holds <;> simpa [Instruction.resolve, decided]
      | none =>
          have undecided : kind (.branch condition
              (Block.updateBlocks (List.flatMap Instruction.resolve) accept)
              (Block.updateBlocks (List.flatMap Instruction.resolve) reject)) = false := by
            exact resolved _ (no_kind_of_bare bare here rfl)
              (by simp [Instruction.isDecided, decided])
          simp [Instruction.resolve, decided, Block.hasKind_singleton, Instruction.hasKind_branch,
            undecided, accept_too, reject_too]
  | .loop body, nothing => by
      rw [Instruction.hasKind_loop, Bool.or_eq_false_iff] at nothing
      have body_too := Block.hasKind_resolve bare resolved body nothing.2
      have loop_too :
        kind (.loop (Block.updateBlocks (List.flatMap Instruction.resolve) body)) = false :=
        resolved _ (no_kind_of_bare bare nothing.1 rfl) rfl
      change Block.hasKind kind
        [.loop (Block.updateBlocks (List.flatMap Instruction.resolve) body)] = false
      rw [Block.hasKind_singleton, Instruction.hasKind_loop, loop_too, body_too]
      rfl
  | .assign target value (some guard), nothing => by
      rw [Instruction.hasKind_plain _ rfl] at nothing
      change Block.hasKind kind (Instruction.resolve (.assign target value (some guard))) = false
      rw [Instruction.resolve]
      split
      · rfl
      · next undecided =>
          rw [Block.hasKind_singleton, Instruction.hasKind_plain _ rfl]
          exact resolved _ nothing (by simpa [Instruction.isDecided] using undecided)
  | .assign _ _ none, nothing | .call _ _ _, nothing | .yield _, nothing | .declare _, nothing
  | .function _, nothing | .leave, nothing | .next, nothing | .discard, nothing
  | .emitVertex, nothing | .endPrimitive, nothing => by
      rw [Instruction.hasKind_plain _ rfl] at nothing
      refine (Block.hasKind_singleton _ _).trans ?_
      exact (Instruction.hasKind_plain _ rfl).trans (resolved _ nothing rfl)

theorem Block.hasKind_resolve (bare : ∀ instruction, middle instruction.bare = middle instruction)
    (resolved : ∀ instruction, middle instruction = false → instruction.isDecided = false →
      kind instruction = false) :
    (block : List Instruction) → Block.hasKind middle block = false →
      Block.hasKind kind (Block.updateBlocks (List.flatMap Instruction.resolve) block) = false
  | [], _ => rfl
  | instruction :: rest, nothing => by
      rw [Block.hasKind_cons, Bool.or_eq_false_iff] at nothing
      have here := Instruction.hasKind_resolve bare resolved instruction nothing.1
      have later := Block.hasKind_resolve bare resolved rest nothing.2
      refine (?_ : Block.hasKind kind
        (_ ++ Block.updateBlocks (List.flatMap Instruction.resolve) rest) = false)
      rw [Block.hasKind, Block.ownNodes_append, List.any_append, Bool.or_eq_false_iff]
      exact ⟨here, later⟩

end

end Lists

/-- What holds of no instruction of a list when it has been folded and its conditions have been
resolved. -/
theorem Block.hasKind_fold {source middle kind : Instruction → Bool}
    (bare : ∀ instruction, middle instruction.bare = middle instruction)
    (folded : ∀ instruction, source instruction = false → middle instruction.fold = false)
    (resolved : ∀ instruction, middle instruction = false → instruction.isDecided = false →
      kind instruction = false)
    {block : Block} (nothing : block.hasKind source = false) : block.fold.hasKind kind = false :=
  Block.hasKind_resolve bare resolved _ (Block.hasKind_mapFold bare folded block nothing)

theorem Block.hasKind_eq_false {kind : Instruction → Bool} {block : Block} :
    block.hasKind kind = false ↔ ∀ instruction, .instruction instruction ∈ block.ownNodes →
      kind instruction = false := by
  rw [hasKind, List.any_eq_false]
  constructor
  · intro none_listed instruction listed
    simpa [Node.isInstruction] using none_listed _ listed
  · intro each node listed
    cases node with
    | instruction instruction => simpa [Node.isInstruction] using each instruction listed
    | _ => simp [Node.isInstruction]

mutual

theorem Instruction.operand_of_mem {node : Node} : (instruction : Instruction) →
    node ∈ instruction.nodes (fun _ => []) → (∃ inner, node = .instruction inner) ∨
      ∃ inner, .instruction inner ∈ instruction.nodes (fun _ => []) ∧ node ∈ inner.operandNodes
  | .branch condition accept reject, listed => by
      simp only [Instruction.nodes, List.mem_cons, List.mem_append] at listed ⊢
      rcases listed with rfl | (in_condition | in_accept) | in_reject
      · exact .inl ⟨_, rfl⟩
      · exact .inr ⟨_, .inl rfl, in_condition⟩
      · exact (Block.operand_of_mem accept in_accept).imp_right fun ⟨inner, among, inside⟩ =>
          ⟨inner, .inr (.inl (.inr among)), inside⟩
      · exact (Block.operand_of_mem reject in_reject).imp_right fun ⟨inner, among, inside⟩ =>
          ⟨inner, .inr (.inr among), inside⟩
  | .loop body, listed => by
      simp only [Instruction.nodes, List.mem_cons] at listed ⊢
      rcases listed with rfl | inside
      · exact .inl ⟨_, rfl⟩
      · exact (Block.operand_of_mem body inside).imp_right fun ⟨inner, among, inside⟩ =>
          ⟨inner, .inr among, inside⟩
  | .assign _ _ _, listed | .call _ _ _, listed | .yield _, listed => by
      rcases List.mem_cons.mp listed with rfl | in_operands
      · exact .inl ⟨_, rfl⟩
      · exact .inr ⟨_, List.mem_cons_self .., in_operands⟩
  | .declare _, listed | .function _, listed | .leave, listed | .next, listed | .discard, listed
  | .emitVertex, listed | .endPrimitive, listed => .inl ⟨_, List.mem_singleton.mp listed⟩

theorem Block.operand_of_mem {node : Node} :
    (block : List Instruction) → node ∈ Block.ownNodes block →
    (∃ inner, node = .instruction inner) ∨
      ∃ inner, .instruction inner ∈ Block.ownNodes block ∧ node ∈ inner.operandNodes
  | [], listed => absurd listed List.not_mem_nil
  | instruction :: rest, listed => by
      rw [Block.ownNodes_cons] at listed ⊢
      rcases List.mem_append.mp listed with first | later
      · exact (instruction.operand_of_mem first).imp_right fun ⟨inner, among, inside⟩ =>
          ⟨inner, List.mem_append_left _ among, inside⟩
      · exact (Block.operand_of_mem rest later).imp_right fun ⟨inner, among, inside⟩ =>
          ⟨inner, List.mem_append_right _ among, inside⟩

end

namespace Block

variable {block : Block}

theorem folds_fold (block : Block) : block.fold.folds = false := by
  have nothing : block.hasKind (fun _ => false) = false := hasKind_eq_false.mpr fun _ _ => rfl
  refine folds_eq_false.mpr ⟨?_, ?_⟩
  · exact hasKind_fold (fun instruction => by cases instruction <;> rfl)
      (fun instruction _ => instruction.folds_fold) (fun _ folded _ => folded) nothing
  · exact @hasKind_fold (fun _ => false) (fun _ => false) _ (fun _ => rfl) (fun _ _ => rfl)
      (fun _ _ undecided => undecided) block nothing

theorem constantCondition_fold {instruction : Instruction}
    (listed : .instruction instruction ∈ ownNodes block.fold) :
    instruction.hasConstantCondition = false := by
  obtain ⟨operands, conditions⟩ := folds_eq_false.mp block.folds_fold
  exact Instruction.hasConstantCondition_eq_false (hasKind_eq_false.mp operands _ listed)
    (hasKind_eq_false.mp conditions _ listed)

theorem looksUpEvaluable_of_samplers (settled : ∀ sampler ∈ samplersIn block.ownNodes,
    sampler.hasEvaluable = false) : block.hasKind Instruction.looksUpEvaluable = false := by
  refine hasKind_eq_false.mpr fun instruction listed => List.any_eq_false.mpr
    fun sampler among => ?_
  obtain ⟨node, in_operands, chosen⟩ := List.mem_filterMap.mp among
  have inside := operands_of_mem block listed node in_operands
  simpa using settled sampler (List.mem_filterMap.mpr ⟨node, inside, chosen⟩)

/-- No operator in a folded list has a value, if none has one in the sampler of a texture lookup. -/
theorem isEvaluable_fold (settled : ∀ sampler ∈ samplersIn block.ownNodes,
    sampler.hasEvaluable = false) {node : Node} (listed : node ∈ ownNodes block.fold) :
    node.isEvaluable = false := by
  have plain := hasKind_fold (fun instruction => by cases instruction <;> rfl)
    (fun _ => Instruction.looksUpEvaluable_fold) (fun _ stays _ => stays)
    (looksUpEvaluable_of_samplers settled)
  rcases operand_of_mem _ listed with ⟨instruction, rfl⟩ | ⟨instruction, among, in_operands⟩
  · rfl
  · have folded := hasKind_eq_false.mp (folds_eq_false.mp block.folds_fold).1 _ among
    cases evaluable : node.isEvaluable with
    | false => rfl
    | true =>
        obtain ⟨sampler, looked_up, inside⟩ :=
          Instruction.onlyInSamplers folded node in_operands evaluable
        have none_inside :=
          List.any_eq_false.mp (hasKind_eq_false.mp plain _ among) sampler looked_up
        exact absurd (List.any_eq_true.mpr ⟨node, inside, evaluable⟩) none_inside

end Block

namespace Shader

/-- A run of folding leaves nothing that a second run would do, and no condition that is a constant.
It leaves no operator on constants that has a value, if there was none in the sampler of a texture
lookup. -/
theorem foldConstants_complete (shader : Shader) :
    Pass.foldConstants.reports shader.foldConstants = false ∧
    shader.foldConstants.foldConstants = shader.foldConstants ∧
    (∀ body ∈ shader.foldConstants.bodies, ∀ instruction,
      .instruction instruction ∈ Block.ownNodes body → instruction.hasConstantCondition = false) ∧
    ((∀ body ∈ shader.bodies, ∀ sampler ∈ samplersIn (Block.ownNodes body),
        sampler.hasEvaluable = false) →
      ∀ body ∈ shader.foldConstants.bodies, ∀ node ∈ Block.ownNodes body,
        node.isEvaluable = false) := by
  have of_body : ∀ body ∈ shader.foldConstants.bodies, ∃ origin ∈ shader.bodies,
      Block.fold origin = body := by
    intro body listed
    rw [foldConstants, bodies_updateBodies] at listed
    exact List.mem_map.mp listed
  have nothing : shader.foldConstants.foldsSomething = false := by
    refine foldsSomething_eq_false.mpr fun body listed => ?_
    obtain ⟨origin, -, rfl⟩ := of_body body listed
    exact origin.folds_fold
  refine ⟨nothing, (exact_foldConstants _).same nothing, ?_, ?_⟩
  · intro body listed instruction among
    obtain ⟨origin, -, rfl⟩ := of_body body listed
    exact Block.constantCondition_fold among
  · intro settled body listed node among
    obtain ⟨origin, was_listed, rfl⟩ := of_body body listed
    exact Block.isEvaluable_fold (settled origin was_listed) among

/-! ## Looking up one of two surfaces -/

/-- A fragment stage with two surfaces. -/
def surfacing (body : Block) : Shader :=
  .ofParts .fragment
    [.ofType "surfaces" (.array (.sampler .d2 .float false) (some 2)) .uniform,
      .ofType "coordinate" (.floatVector .two) .shaderIn, .vector "color" .shaderOut]
    [{ name := "main", signatures := [.define .void [] body] }]

/-- The color is looked up in the surface with an index. -/
def takeColor (index : Expr) : Instruction :=
  .assign (.whole 2) (.texture (.element (.whole 0) index (.sampler .d2 .float false))
    (.ofVariable 1) (.floatVector .four)) none

/-- The first surface is looked up under the negation of a constant. -/
def settledSurface : Shader :=
  surfacing [.branch (.unary .logicalNot (.constant (.bool false)) .bool)
    [takeColor (.constant (.int 0))] []]

/-- The branch is decided, and the lookup stands in its place. -/
theorem settledSurface_complete :
    Pass.foldConstants.reports settledSurface = true ∧
    (∀ body ∈ settledSurface.bodies, ∀ sampler ∈ samplersIn (Block.ownNodes body),
      sampler.hasEvaluable = false) ∧
    ∀ body ∈ settledSurface.foldConstants.bodies, ∀ node ∈ Block.ownNodes body,
      node.isEvaluable = false := by
  have settled : ∀ body ∈ settledSurface.bodies, ∀ sampler ∈ samplersIn (Block.ownNodes body),
      sampler.hasEvaluable = false := by decide
  exact ⟨by decide, settled, settledSurface.foldConstants_complete.2.2.2 settled⟩

/-- The sum of two constants chooses the surface. -/
def summedSurface : Shader :=
  surfacing [takeColor (.binary .add (.constant (.int 0)) (.constant (.int 1)) .int)]

/-- The sum is still there after folding. -/
theorem summedSurface_is_left : ¬ ∀ body ∈ summedSurface.foldConstants.bodies,
    ∀ node ∈ Block.ownNodes body, node.isEvaluable = false := by
  decide

end Shader

end StageLink
