import StageLink.Proofs.Passes
import StageLink.Proofs.Touches

/-!
# Lists that shrink

A simplification drops instructions, replaces a branch by one of its parts, and rewrites operands in
such a way that they touch nothing new.  All passes work like this, and differ only in which
declarations they drop and where they let calls go.
-/

namespace StageLink

/-- What a simplification may do. -/
structure Simplification where
  /-- Variables whose declarations may be dropped. -/
  drops : VariableId → Prop
  /-- Callees that may take the place of one another. -/
  calls : Callee → Callee → Prop

/-- Whether an instruction has neither operands nor blocks. -/
def Instruction.isPlain : Instruction → Bool
  | .declare _ | .function _ | .leave | .next | .discard | .emitVertex | .endPrimitive => true
  | _ => false

/-- The second nodes are no more than the first and touch nothing new. -/
structure NoMore (before after : List Node) : Prop where
  touches : ∀ touch ∈ touches after, touch ∈ touches before
  length : after.length ≤ before.length

mutual

/-- What may be left of an instruction. -/
inductive Instruction.Shrinks (may : Simplification) : Instruction → List Instruction → Prop
  | drop {instruction} : (∀ id, instruction = .declare id → may.drops id) →
      Instruction.Shrinks may instruction []
  | keep {instruction} : instruction.isPlain = true →
      Instruction.Shrinks may instruction [instruction]
  | assign {target target' value value' guard guard'} :
      NoMore (Instruction.assign target value guard).operandNodes
        (Instruction.assign target' value' guard').operandNodes →
      Instruction.Shrinks may (.assign target value guard) [.assign target' value' guard']
  | call {callee callee' arguments arguments' result result'} : may.calls callee callee' →
      NoMore (Instruction.call callee arguments result).operandNodes
        (Instruction.call callee' arguments' result').operandNodes →
      Instruction.Shrinks may (.call callee arguments result) [.call callee' arguments' result']
  | yield {value value'} :
      NoMore (Instruction.yield value).operandNodes (Instruction.yield value').operandNodes →
      Instruction.Shrinks may (.yield value) [.yield value']
  | branch {condition condition' accept accept' reject reject'} :
      NoMore condition.nodes condition'.nodes → Block.Shrinks may accept accept' →
      Block.Shrinks may reject reject' →
      Instruction.Shrinks may (.branch condition accept reject) [.branch condition' accept' reject']
  | accept {condition accept accept' reject} : Block.Shrinks may accept accept' →
      Instruction.Shrinks may (.branch condition accept reject) accept'
  | reject {condition accept reject reject'} : Block.Shrinks may reject reject' →
      Instruction.Shrinks may (.branch condition accept reject) reject'
  | loop {body body'} : Block.Shrinks may body body' →
      Instruction.Shrinks may (.loop body) [.loop body']

/-- What may be left of an instruction list. -/
inductive Block.Shrinks (may : Simplification) : List Instruction → List Instruction → Prop
  | nil : Block.Shrinks may [] []
  | cons {instruction rest left rest'} : Instruction.Shrinks may instruction left →
      Block.Shrinks may rest rest' → Block.Shrinks may (instruction :: rest) (left ++ rest')

end

section Blocks

variable {may : Simplification}

namespace NoMore

variable {before after more others : List Node}

theorem refl (nodes : List Node) : NoMore nodes nodes := ⟨fun _ listed => listed, Nat.le_refl _⟩

theorem nil (nodes : List Node) : NoMore nodes [] :=
  ⟨fun _ listed => (by cases listed), Nat.zero_le _⟩

theorem trans {last : List Node} (first : NoMore before after) (second : NoMore after last) :
    NoMore before last :=
  ⟨fun touch listed => first.touches touch (second.touches touch listed),
    Nat.le_trans second.length first.length⟩

theorem append (first : NoMore before after) (second : NoMore more others) :
    NoMore (before ++ more) (after ++ others) where
  touches touch listed := by
    rw [touches_append, List.mem_append] at listed ⊢
    exact listed.imp (first.touches touch) (second.touches touch)
  length := by
    rw [List.length_append, List.length_append]
    exact Nat.add_le_add first.length second.length

/-- An instruction touches what its operands touch. -/
theorem instruction (fewer : NoMore before after) (one other : Instruction) :
    NoMore (.instruction one :: before) (.instruction other :: after) :=
  ⟨fewer.touches, Nat.succ_le_succ fewer.length⟩

/-- A part of some nodes. -/
theorem of_sublist (sublist : after.Sublist before) : NoMore before after :=
  ⟨fun _ listed => (sublist.filterMap _).subset listed, sublist.length_le⟩

end NoMore

theorem Block.nodes_append (inside : FunctionId → List Node) (block rest : List Instruction) :
    Block.nodes inside (block ++ rest) = Block.nodes inside block ++ Block.nodes inside rest := by
  induction block with
  | nil => rfl
  | cons instruction block ih =>
      rw [List.cons_append, Block.nodes, Block.nodes, ih, List.append_assoc]

@[simp]
theorem Block.ownNodes_append (block rest : Block) :
    Block.ownNodes (block ++ rest) = block.ownNodes ++ rest.ownNodes :=
  Block.nodes_append _ block rest

theorem Block.ownNodes_cons (instruction : Instruction) (rest : Block) :
    Block.ownNodes (instruction :: rest) = instruction.nodes (fun _ => []) ++ rest.ownNodes := rfl

theorem Block.ownNodes_singleton (instruction : Instruction) :
    Block.ownNodes [instruction] = instruction.nodes fun _ => [] := by
  simp [Block.ownNodes, Block.nodes]

theorem Block.ownNodes_sublist {shorter block : Block} (sublist : shorter.Sublist block) :
    shorter.ownNodes.Sublist block.ownNodes := by
  induction sublist with
  | slnil => exact List.Sublist.refl _
  | cons instruction _ ih =>
      rw [Block.ownNodes_cons]
      exact ih.trans (List.sublist_append_right _ _)
  | cons_cons instruction _ ih =>
      rw [Block.ownNodes_cons, Block.ownNodes_cons]
      exact ih.append_left _

theorem Instruction.nodes_branch (condition : Expr) (accept reject : Block) :
    (Instruction.branch condition accept reject).nodes (fun _ => []) =
      .instruction (.branch condition accept reject)
        :: (condition.nodes ++ accept.ownNodes ++ reject.ownNodes) := rfl

theorem Instruction.nodes_loop (body : Block) :
    (Instruction.loop body).nodes (fun _ => []) = .instruction (.loop body) :: body.ownNodes := rfl

mutual

theorem Instruction.Shrinks.noMore : {instruction : Instruction} → {left : List Instruction} →
    Instruction.Shrinks may instruction left →
    NoMore (instruction.nodes fun _ => []) (Block.ownNodes left)
  | _, _, .drop _ => .nil _
  | _, _, .keep _ => by rw [Block.ownNodes_singleton]; exact .refl _
  | _, _, .assign fewer => by rw [Block.ownNodes_singleton]; exact fewer.instruction _ _
  | _, _, .call _ fewer => by rw [Block.ownNodes_singleton]; exact fewer.instruction _ _
  | _, _, .yield fewer => by rw [Block.ownNodes_singleton]; exact fewer.instruction _ _
  | _, _, .branch fewer accept reject => by
      rw [Block.ownNodes_singleton]
      exact ((fewer.append accept.noMore).append reject.noMore).instruction _ _
  | _, _, .accept accept => by
      refine (NoMore.of_sublist ?_).trans accept.noMore
      exact ((List.sublist_append_right _ _).trans (List.sublist_append_left _ _)).cons _
  | _, _, .reject reject => by
      refine (NoMore.of_sublist ?_).trans reject.noMore
      exact (List.sublist_append_right _ _).cons _
  | _, _, .loop body => by rw [Block.ownNodes_singleton]; exact body.noMore.instruction _ _

theorem Block.Shrinks.noMore : {block left : List Instruction} → Block.Shrinks may block left →
    NoMore (Block.ownNodes block) (Block.ownNodes left)
  | _, _, .nil => .refl _
  | _, _, .cons head tail => by
      rw [Block.ownNodes_append]
      exact head.noMore.append tail.noMore

end

/-! ## Rewriting one by one -/

variable {change : Instruction → Instruction}

/-- If a branch becomes a branch, then its condition has been rewritten. -/
theorem Instruction.Shrinks.of_bare_branch {condition : Expr}
    {accept reject accept' reject' : Block} {changed : Instruction}
    (shrinks : Instruction.Shrinks may (Instruction.branch condition accept reject).bare
      [changed.bare])
    (accept_shrinks : Block.Shrinks may accept accept')
    (reject_shrinks : Block.Shrinks may reject reject') :
    Instruction.Shrinks may (.branch condition accept reject)
      [changed.withBlocks accept' reject'] := by
  generalize result : [changed.bare] = left at shrinks
  cases shrinks with
  | drop _ => cases result
  | keep plain => cases plain
  | accept inner => cases inner; cases result
  | reject inner => cases inner; cases result
  | branch fewer _ _ =>
      cases changed with
      | branch condition' first second =>
          cases result
          exact .branch fewer accept_shrinks reject_shrinks
      | _ => cases result

theorem Instruction.Shrinks.of_bare_loop {body body' : Block} {changed : Instruction}
    (shrinks : Instruction.Shrinks may (Instruction.loop body).bare [changed.bare])
    (body_shrinks : Block.Shrinks may body body') :
    Instruction.Shrinks may (.loop body) [changed.withBlocks body' []] := by
  generalize result : [changed.bare] = left at shrinks
  cases shrinks with
  | drop _ => cases result
  | keep plain => cases plain
  | loop _ =>
      cases changed with
      | loop inner => exact .loop body_shrinks
      | _ => cases result

/-- Without blocks, an instruction becomes one without blocks. -/
theorem Instruction.Shrinks.of_bare {instruction changed : Instruction}
    (shrinks : Instruction.Shrinks may instruction.bare [changed.bare])
    (no_blocks : instruction.bare = instruction)
    (no_branch : ∀ condition accept reject, instruction ≠ .branch condition accept reject)
    (no_loop : ∀ body, instruction ≠ .loop body) :
    Instruction.Shrinks may instruction [changed] := by
  rw [no_blocks] at shrinks
  have same : changed.bare = changed := by
    cases changed with
    | branch condition accept reject =>
        cases shrinks with
        | keep plain => cases plain
        | branch _ _ _ => exact absurd rfl (no_branch _ _ _)
        | accept _ => exact absurd rfl (no_branch _ _ _)
        | reject _ => exact absurd rfl (no_branch _ _ _)
    | loop body =>
        cases shrinks with
        | keep plain => cases plain
        | loop _ => exact absurd rfl (no_loop _)
        | accept _ => exact absurd rfl (no_branch _ _ _)
        | reject _ => exact absurd rfl (no_branch _ _ _)
    | _ => rfl
  rwa [same] at shrinks

mutual

theorem Instruction.shrinks_mapInstructions
    (each : ∀ inner : Instruction, Instruction.Shrinks may inner.bare [(change inner).bare]) :
    (instruction : Instruction) → Instruction.Shrinks may instruction
      [Id.run (instruction.mapInstructions fun inner => pure (change inner))]
  | .branch condition accept reject =>
      (each _).of_bare_branch (Block.shrinks_updateInstructions each accept)
        (Block.shrinks_updateInstructions each reject)
  | .loop body => (each _).of_bare_loop (Block.shrinks_updateInstructions each body)
  | .declare _ | .function _ | .assign _ _ _ | .call _ _ _ | .leave | .next | .yield _ | .discard
  | .emitVertex | .endPrimitive => (each _).of_bare rfl (by simp) (by simp)

theorem Block.shrinks_updateInstructions
    (each : ∀ inner : Instruction, Instruction.Shrinks may inner.bare [(change inner).bare]) :
    (block : List Instruction) → Block.Shrinks may block (Block.updateInstructions change block)
  | [] => .nil
  | instruction :: rest =>
      .cons (Instruction.shrinks_mapInstructions each instruction)
        (Block.shrinks_updateInstructions each rest)

end

/-! ## Resolving block by block -/

/-- What a rule that does not look into blocks may leave of an instruction. -/
inductive Instruction.Resolves (may : Simplification) : Instruction → List Instruction → Prop
  | keep {instruction} : Instruction.Resolves may instruction [instruction]
  | drop {instruction} : (∀ id, instruction = .declare id → may.drops id) →
      Instruction.Resolves may instruction []
  | accept {condition accept reject} :
      Instruction.Resolves may (.branch condition accept reject) accept
  | reject {condition accept reject} :
      Instruction.Resolves may (.branch condition accept reject) reject

variable {rule : Instruction → List Instruction}

/-- An instruction without blocks may stay as it is. -/
theorem Instruction.Shrinks.refl (self : ∀ callee, may.calls callee callee)
    {instruction : Instruction}
    (no_branch : ∀ condition accept reject, instruction ≠ .branch condition accept reject)
    (no_loop : ∀ body, instruction ≠ .loop body) :
    Instruction.Shrinks may instruction [instruction] := by
  cases instruction with
  | assign target value guard => exact .assign (.refl _)
  | call callee arguments result => exact .call (self callee) (.refl _)
  | yield value => exact .yield (.refl _)
  | branch condition accept reject => exact absurd rfl (no_branch _ _ _)
  | loop body => exact absurd rfl (no_loop _)
  | _ => exact .keep rfl

theorem Instruction.Resolves.shrinks (self : ∀ callee, may.calls callee callee)
    {instruction : Instruction} {left : List Instruction}
    (resolves : Instruction.Resolves may instruction left)
    (no_branch : ∀ condition accept reject, instruction ≠ .branch condition accept reject)
    (no_loop : ∀ body, instruction ≠ .loop body) : Instruction.Shrinks may instruction left := by
  cases resolves with
  | keep => exact .refl self no_branch no_loop
  | drop allowed => exact .drop allowed
  | accept => exact absurd rfl (no_branch _ _ _)
  | reject => exact absurd rfl (no_branch _ _ _)

mutual

theorem Instruction.shrinks_mapInnerBlocks (self : ∀ callee, may.calls callee callee)
    (each : ∀ inner, Instruction.Resolves may inner (rule inner)) :
    (instruction : Instruction) → Instruction.Shrinks may instruction
      (rule (Id.run (instruction.mapInnerBlocks fun inner => pure (inner.flatMap rule))))
  | .branch condition accept reject => by
      have first := Block.shrinks_updateBlocks self each accept
      have second := Block.shrinks_updateBlocks self each reject
      have resolves := each (.branch condition (Block.updateBlocks (List.flatMap rule) accept)
        (Block.updateBlocks (List.flatMap rule) reject))
      change Instruction.Shrinks may _ (rule (.branch condition
        (Block.updateBlocks (List.flatMap rule) accept)
        (Block.updateBlocks (List.flatMap rule) reject)))
      generalize rule _ = left at resolves ⊢
      cases resolves with
      | keep => exact .branch (.refl _) first second
      | drop _ => exact .drop (by simp)
      | accept => exact .accept first
      | reject => exact .reject second
  | .loop body => by
      have inner := Block.shrinks_updateBlocks self each body
      have resolves := each (.loop (Block.updateBlocks (List.flatMap rule) body))
      change Instruction.Shrinks may _ (rule (.loop (Block.updateBlocks (List.flatMap rule) body)))
      generalize rule _ = left at resolves ⊢
      cases resolves with
      | keep => exact .loop inner
      | drop _ => exact .drop (by simp)
  | .declare _ | .function _ | .assign _ _ _ | .call _ _ _ | .leave | .next | .yield _ | .discard
  | .emitVertex | .endPrimitive => (each _).shrinks self (by simp) (by simp)

/-- A list shrinks by a rule that is applied to its instructions once it has been applied inside
them. -/
theorem Block.shrinks_updateBlocks (self : ∀ callee, may.calls callee callee)
    (each : ∀ inner, Instruction.Resolves may inner (rule inner)) :
    (block : List Instruction) → Block.Shrinks may block
    (Block.updateBlocks (List.flatMap rule) block)
  | [] => .nil
  | instruction :: rest =>
      .cons (Instruction.shrinks_mapInnerBlocks self each instruction)
        (Block.shrinks_updateBlocks self each rest)

end

/-! ## Passes -/

/-- Folding drops no declaration by itself and leaves calls where they are. -/
def folding : Simplification := ⟨fun _ => False, Eq⟩

theorem Expr.length_reduce_le (expression : Expr) :
    expression.reduce.nodes.length ≤ expression.nodes.length := by
  cases value : expression.value? with
  | some found =>
      rw [Expr.reduce_of_value value]
      cases expression <;> simp [Expr.nodes]
  | none => rw [Expr.reduce_of_none value]

mutual

theorem Place.length_fold_le : (place : Place) → place.fold.nodes.length ≤ place.nodes.length
  | .whole _ => Nat.le_refl _
  | .element array index _ => by
      have deeper := Nat.add_le_add array.length_fold_le index.length_fold_le
      simpa [Place.fold, Place.nodes] using deeper
  | .field record _ _ => by simpa [Place.fold, Place.nodes] using record.length_fold_le

theorem Expr.length_fold_le : (expression : Expr) →
    expression.fold.nodes.length ≤ expression.nodes.length
  | .constant _ => Nat.le_refl _
  | .load place => by simpa [Expr.fold, Expr.nodes] using place.length_fold_le
  | .unary operator operand ty => by
      refine Nat.le_trans (Expr.length_reduce_le _) ?_
      simpa [Expr.nodes] using operand.length_fold_le
  | .binary operator left right ty => by
      refine Nat.le_trans (Expr.length_reduce_le _) ?_
      simpa [Expr.nodes] using Nat.add_le_add left.length_fold_le right.length_fold_le
  | .swizzle value components ty => by
      refine Nat.le_trans (Expr.length_reduce_le _) ?_
      simpa [Expr.nodes] using value.length_fold_le
  | .compose _ components => Nat.succ_le_succ (Expr.length_foldAll_le components)
  | .texture sampler coordinate _ => by
      simpa [Expr.fold, Expr.nodes] using coordinate.length_fold_le

theorem Expr.length_foldAll_le : (expressions : List Expr) →
    (Expr.nodesOfAll (Expr.foldAll expressions)).length ≤ (Expr.nodesOfAll expressions).length
  | [] => Nat.le_refl _
  | expression :: expressions => by
      rw [Expr.foldAll, Expr.nodesOfAll, Expr.nodesOfAll, List.length_append, List.length_append]
      exact Nat.add_le_add expression.length_fold_le (Expr.length_foldAll_le expressions)

end

theorem Place.noMore_fold (place : Place) : NoMore place.nodes place.fold.nodes :=
  ⟨fun _ listed => place.touches_fold.subset listed, place.length_fold_le⟩

theorem Expr.noMore_fold (expression : Expr) : NoMore expression.nodes expression.fold.nodes :=
  ⟨fun _ listed => expression.touches_fold.subset listed, expression.length_fold_le⟩

theorem Expr.noMore_foldAll (expressions : List Expr) :
    NoMore (expressions.flatMap Expr.nodes) ((Expr.foldAll expressions).flatMap Expr.nodes) := by
  rw [← Expr.nodesOfAll_eq_flatMap, ← Expr.nodesOfAll_eq_flatMap]
  exact ⟨fun _ listed => (Expr.touches_foldAll expressions).subset listed,
    Expr.length_foldAll_le expressions⟩

theorem Expr.noMore_foldGuard (guard : Option Expr) :
    NoMore (guard.toList.flatMap Expr.nodes)
      ((Expr.foldGuard guard).toList.flatMap Expr.nodes) := by
  cases guard with
  | none => exact .refl _
  | some condition =>
      unfold Expr.foldGuard
      dsimp only
      split
      · exact .nil _
      · simpa using condition.noMore_fold

theorem Instruction.shrinks_fold (instruction : Instruction) :
    Instruction.Shrinks folding instruction.bare [instruction.fold.bare] := by
  cases instruction with
  | assign target value guard =>
      have operands := target.noMore_fold.append value.noMore_fold
      exact .assign (operands.append (Expr.noMore_foldGuard guard))
  | call callee arguments result =>
      refine .call rfl ((Expr.noMore_foldAll arguments).append ?_)
      cases result with
      | none => exact .refl _
      | some place => simpa using place.noMore_fold
  | branch condition accept reject => exact .branch condition.noMore_fold .nil .nil
  | loop body => exact .loop .nil
  | yield value =>
      refine .yield ?_
      cases value with
      | none => exact .refl _
      | some result => simpa [operandNodes] using result.noMore_fold
  | _ => exact .keep rfl

theorem Instruction.resolves_resolve (instruction : Instruction) :
    Instruction.Resolves folding instruction instruction.resolve := by
  unfold Instruction.resolve
  split
  · split
    · exact .accept
    · exact .reject
    · exact .keep
  · split
    · exact .drop (by simp)
    · exact .keep
  · exact .keep

/-- Removing dead code may drop some declarations. -/
def removing (dead : List VariableId) : Simplification := ⟨(· ∈ dead), Eq⟩

theorem Block.filter_eq_flatMap (keeps : Instruction → Bool) :
    List.filter keeps = List.flatMap fun instruction =>
      if keeps instruction then [instruction] else [] := by
  funext block
  induction block with
  | nil => rfl
  | cons instruction rest ih =>
      rw [List.flatMap_cons, ← ih, List.filter_cons]
      split <;> rfl

theorem Block.shrinks_survives (targets dead : List VariableId) (block : Block) :
    Block.Shrinks (removing dead) block
      (Block.updateBlocks (List.filter (Shader.survives targets dead)) block) := by
  rw [Block.filter_eq_flatMap]
  refine Block.shrinks_updateBlocks (fun _ => rfl) (fun inner => ?_) block
  split
  · exact .keep
  · next removed =>
      refine .drop fun id same => ?_
      subst same
      simpa [Shader.survives, removing] using removed

/-- Letting calls follow their callees drops nothing. -/
def following (moves : Callee → Callee) : Simplification :=
  ⟨fun _ => False, fun callee other => other = moves callee⟩

theorem Block.shrinks_moveCall (shader : Shader) (live : List Callee) (block : Block) :
    Block.Shrinks (following (shader.movedCallee live)) block
      (Block.updateInstructions (shader.moveCall live) block) := by
  refine Block.shrinks_updateInstructions (fun inner => ?_) block
  cases inner with
  | assign target value guard => exact .assign (.refl _)
  | call callee arguments result => exact .call rfl (.refl _)
  | branch condition accept reject => exact .branch (.refl _) .nil .nil
  | loop body => exact .loop .nil
  | yield value => exact .yield (.refl _)
  | _ => exact .keep rfl

end Blocks
end StageLink
