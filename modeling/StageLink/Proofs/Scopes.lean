import StageLink.Proofs.Compaction
import StageLink.Proofs.Layout
import StageLink.Proofs.Shrinking
import StageLink.Shader.Problems

/-!
# Scopes

A variable is in scope in the list that declares it and in the blocks inside that list.  What a list
dereferences without declaring it around the place is loose in it, and must come from outside.
Lists that shrink have no more loose variables, and lists that are alike have corresponding ones, as
long as the declarations that they rely on stay.
-/

namespace StageLink

def dereferenced (nodes : List Node) : List VariableId :=
  nodes.filterMap fun
    | .place (.whole id) => some id
    | _ => none

@[simp]
theorem mem_dereferenced {nodes : List Node} {id : VariableId} :
    id ∈ dereferenced nodes ↔ Node.place (.whole id) ∈ nodes := by
  constructor
  · intro listed
    obtain ⟨node, there, chosen⟩ := List.mem_filterMap.mp listed
    cases node with
    | place place =>
        cases place with
        | whole other =>
            cases chosen
            exact there
        | _ => cases chosen
    | _ => cases chosen
  · exact fun there => List.mem_filterMap.mpr ⟨_, there, rfl⟩

/-- The variables that a list declares itself, apart from those declared in the blocks inside it. -/
def Block.declared (block : Block) : List VariableId :=
  block.filterMap fun
    | .declare id => some id
    | _ => none

mutual

/-- The variables that an instruction dereferences without declaring them around the place. -/
def Instruction.loose : Instruction → List VariableId
  | .branch condition accept reject =>
      dereferenced condition.nodes
        ++ ((Block.looseOfAll accept).filter (!(Block.declared accept).contains ·)
          ++ (Block.looseOfAll reject).filter (!(Block.declared reject).contains ·))
  | .loop body => (Block.looseOfAll body).filter (!(Block.declared body).contains ·)
  | other => dereferenced other.operandNodes

def Block.looseOfAll : List Instruction → List VariableId
  | [] => []
  | instruction :: rest => instruction.loose ++ Block.looseOfAll rest

end

/-- The variables that a list dereferences without declaring them around the place. -/
def Block.loose (block : Block) : List VariableId :=
  (Block.looseOfAll block).filter (!(Block.declared block).contains ·)

namespace Block

variable {block rest : Block} {id : VariableId}

theorem mem_declared : id ∈ block.declared ↔ Instruction.declare id ∈ block := by
  simp only [declared, List.mem_filterMap]
  constructor
  · rintro ⟨instruction, listed, chosen⟩
    cases instruction <;> cases chosen
    exact listed
  · exact fun listed => ⟨_, listed, rfl⟩

theorem mem_loose : id ∈ block.loose ↔ id ∈ looseOfAll block ∧ id ∉ block.declared := by
  simp [loose]

@[simp]
theorem declared_append (block rest : Block) :
    declared (block ++ rest) = block.declared ++ rest.declared :=
  List.filterMap_append

theorem mem_looseOfAll : id ∈ looseOfAll block ↔ ∃ instruction ∈ block, id ∈ instruction.loose := by
  induction block with
  | nil => simp [looseOfAll]
  | cons instruction rest ih => simp [looseOfAll, ih]

@[simp]
theorem looseOfAll_append (block rest : Block) :
    looseOfAll (block ++ rest) = looseOfAll block ++ looseOfAll rest := by
  induction block with
  | nil => rfl
  | cons instruction block ih => simp [looseOfAll, ih]

theorem looseOfAll_singleton (instruction : Instruction) :
    looseOfAll [instruction] = instruction.loose := by
  simp [looseOfAll]

theorem declared_subset (block : Block) : block.declared ⊆ Shader.declaredIn block.ownNodes := by
  intro id listed
  exact mem_declaredIn.mpr (Shader.node_of_mem _ (mem_declared.mp listed))

theorem declaredIn_flat (flat : block.Flat) :
    Shader.declaredIn block.ownNodes = block.declared := by
  induction flat using Flat.induction with
  | nil => rfl
  | declare id rest _ _ tail | function id rest _ _ tail =>
      rw [Block.ownNodes_cons, declaredIn_append, tail]
      rfl

/-- Putting lists together makes no variable loose. -/
theorem loose_append (listed : id ∈ loose (block ++ rest)) :
    id ∈ block.loose ∨ id ∈ rest.loose := by
  simp only [mem_loose, looseOfAll_append, declared_append, List.mem_append, not_or] at listed ⊢
  obtain ⟨first | second, outside, outside_rest⟩ := listed
  · exact .inl ⟨first, outside⟩
  · exact .inr ⟨second, outside_rest⟩

end Block

theorem Instruction.loose_branch (condition : Expr) (accept reject : Block) :
    (Instruction.branch condition accept reject).loose =
      dereferenced condition.nodes ++ (accept.loose ++ reject.loose) := rfl

theorem Instruction.loose_loop (body : Block) : (Instruction.loop body).loose = body.loose := rfl

/-! ## Loose variables and places -/

section Places

variable {id : VariableId}

mutual

theorem Instruction.dereferences_loose : (instruction : Instruction) → id ∈ instruction.loose →
    Node.place (.whole id) ∈ instruction.nodes fun _ => []
  | .branch condition accept reject, listed => by
      rw [Instruction.loose_branch, List.mem_append, List.mem_append, mem_dereferenced] at listed
      rw [Instruction.nodes_branch, List.mem_cons, List.mem_append, List.mem_append]
      rcases listed with here | in_accept | in_reject
      · exact .inr (.inl (.inl here))
      · exact .inr (.inl (.inr (Block.dereferences_loose accept (Block.mem_loose.mp in_accept).1)))
      · exact .inr (.inr (Block.dereferences_loose reject (Block.mem_loose.mp in_reject).1))
  | .loop body, listed =>
      List.mem_cons_of_mem _ (Block.dereferences_loose body (Block.mem_loose.mp listed).1)
  | .assign _ _ _, listed | .call _ _ _, listed | .yield _, listed =>
      List.mem_cons_of_mem _ (mem_dereferenced.mp listed)
  | .declare _, listed | .function _, listed | .leave, listed | .next, listed | .discard, listed
  | .emitVertex, listed | .endPrimitive, listed => by cases listed

theorem Block.dereferences_loose : (block : List Instruction) → id ∈ Block.looseOfAll block →
    Node.place (.whole id) ∈ Block.ownNodes block
  | [], listed => by cases listed
  | instruction :: rest, listed => by
      rw [Block.looseOfAll, List.mem_append] at listed
      rw [Block.ownNodes_cons, List.mem_append]
      exact listed.imp instruction.dereferences_loose (Block.dereferences_loose rest)

end

mutual

theorem Instruction.loose_or_declared : (instruction : Instruction) →
    Node.place (.whole id) ∈ instruction.nodes (fun _ => []) →
    id ∈ instruction.loose ∨ id ∈ Shader.declaredIn (instruction.nodes fun _ => [])
  | .branch condition accept reject, listed => by
      rw [Instruction.nodes_branch, List.mem_cons, List.mem_append, List.mem_append] at listed
      rw [Instruction.loose_branch, declaredIn_branch, List.mem_append, List.mem_append,
        List.mem_append, mem_dereferenced]
      rcases listed with same | (here | in_accept) | in_reject
      · cases same
      · exact .inl (.inl here)
      · exact (Block.loose_or_declared accept in_accept).imp (fun loose => .inr (.inl loose)) .inl
      · exact (Block.loose_or_declared reject in_reject).imp (fun loose => .inr (.inr loose)) .inr
  | .loop body, listed => by
      rw [Instruction.nodes_loop, List.mem_cons] at listed
      rw [declaredIn_loop]
      exact Block.loose_or_declared body (listed.resolve_left (by simp))
  | .assign _ _ _, listed | .call _ _ _, listed | .yield _, listed =>
      .inl (mem_dereferenced.mpr ((List.mem_cons.mp listed).resolve_left (by simp)))
  | .declare _, listed | .function _, listed | .leave, listed | .next, listed | .discard, listed
  | .emitVertex, listed | .endPrimitive, listed => by simp [Instruction.nodes] at listed

/-- What a list dereferences is loose in it or declared somewhere in it. -/
theorem Block.loose_or_declared : (block : List Instruction) →
    Node.place (.whole id) ∈ Block.ownNodes block →
    id ∈ Block.loose block ∨ id ∈ Shader.declaredIn (Block.ownNodes block)
  | [], listed => by cases listed
  | instruction :: rest, listed => by
      by_cases is_declared : id ∈ Block.declared (instruction :: rest)
      · exact .inr (Block.declared_subset _ is_declared)
      rw [Block.ownNodes_cons, List.mem_append] at listed
      rw [Block.ownNodes_cons, declaredIn_append, List.mem_append, Block.mem_loose,
        Block.looseOfAll,
        List.mem_append]
      rcases listed with first | later
      · exact (instruction.loose_or_declared first).imp
          (fun loose => ⟨.inl loose, is_declared⟩) .inl
      · exact (Block.loose_or_declared rest later).imp
          (fun loose => ⟨.inr (Block.mem_loose.mp loose).1, is_declared⟩) .inr

end

end Places

/-! ## Lists that shrink -/

section Shrinking

variable {may : Simplification}

theorem Instruction.Shrinks.declares {id : VariableId} {left : List Instruction}
    (shrinks : Instruction.Shrinks may (.declare id) left) :
    may.drops id ∨ left = [.declare id] := by
  cases shrinks with
  | drop allowed => exact .inl (allowed id rfl)
  | keep _ => exact .inr rfl

/-- The declarations of a list itself stay unless they may be dropped. -/
theorem Block.Shrinks.declared {block left : Block} (shrinks : Block.Shrinks may block left)
    {id : VariableId} (listed : id ∈ block.declared) : may.drops id ∨ id ∈ left.declared := by
  induction block generalizing left with
  | nil => cases listed
  | cons instruction rest ih =>
      cases shrinks with
      | cons head tail =>
          rw [Block.declared_append, List.mem_append]
          rcases List.mem_cons.mp (Block.mem_declared.mp listed) with rfl | later
          · refine head.declares.imp_right fun kept => .inl ?_
            rw [kept]
            exact Block.mem_declared.mpr (List.mem_cons_self ..)
          · exact (ih tail (Block.mem_declared.mpr later)).imp_right .inr

mutual

theorem Instruction.Shrinks.declaredIn_sublist : {instruction : Instruction} →
    {left : List Instruction} → Instruction.Shrinks may instruction left →
    (Shader.declaredIn (Block.ownNodes left)).Sublist
      (Shader.declaredIn (instruction.nodes fun _ => []))
  | _, _, .drop _ => List.nil_sublist _
  | _, _, .keep _ => by rw [Block.ownNodes_singleton]
  | _, _, .assign _ | _, _, .call _ _ | _, _, .yield _ => by
      simp [Block.ownNodes_singleton, Instruction.nodes, declaredIn_cons_other]
  | _, _, .branch _ accept reject => by
      rw [Block.ownNodes_singleton, declaredIn_branch, declaredIn_branch]
      exact accept.declaredIn_sublist.append reject.declaredIn_sublist
  | _, _, .accept accept => by
      rw [declaredIn_branch]
      exact accept.declaredIn_sublist.trans (List.sublist_append_left _ _)
  | _, _, .reject reject => by
      rw [declaredIn_branch]
      exact reject.declaredIn_sublist.trans (List.sublist_append_right _ _)
  | _, _, .loop body => by
      rw [Block.ownNodes_singleton, declaredIn_loop, declaredIn_loop]
      exact body.declaredIn_sublist

/-- Shrinking a list adds no declarations and does not change their order. -/
theorem Block.Shrinks.declaredIn_sublist : {block left : List Instruction} →
    Block.Shrinks may block left →
    (Shader.declaredIn (Block.ownNodes left)).Sublist (Shader.declaredIn (Block.ownNodes block))
  | _, _, .nil => List.Sublist.refl _
  | _, _, .cons head tail => by
      rw [Block.ownNodes_append, declaredIn_append, Block.ownNodes_cons, declaredIn_append]
      exact head.declaredIn_sublist.append tail.declaredIn_sublist

end

theorem NoMore.dereferenced {before after : List Node} (fewer : NoMore before after)
    {id : VariableId} (listed : id ∈ dereferenced after) : id ∈ StageLink.dereferenced before := by
  rw [mem_dereferenced, ← mem_touches_whole] at listed ⊢
  exact fewer.touches _ listed

mutual

theorem Instruction.Shrinks.loose : {instruction : Instruction} → {left : List Instruction} →
    Instruction.Shrinks may instruction left →
    (∀ id, may.drops id → Node.place (.whole id) ∉ instruction.nodes fun _ => []) →
    ∀ id ∈ Block.loose left, id ∈ instruction.loose
  | _, _, .drop _, _ => fun _ listed => by cases listed
  | _, _, .keep _, _ => fun _ listed => by
      rw [Block.mem_loose, Block.looseOfAll_singleton] at listed
      exact listed.1
  | _, _, .assign fewer, _ | _, _, .call _ fewer, _ | _, _, .yield fewer, _ => fun _ listed => by
      rw [Block.mem_loose, Block.looseOfAll_singleton] at listed
      exact fewer.dereferenced listed.1
  | .branch condition accept reject, _, .branch fewer in_accept in_reject, unplaced =>
      fun id listed => by
      rw [Block.mem_loose, Block.looseOfAll_singleton, Instruction.loose_branch] at listed
      rw [Instruction.loose_branch]
      simp only [Instruction.nodes_branch, List.mem_cons, List.mem_append, not_or] at unplaced
      simp only [List.mem_append] at listed ⊢
      rcases listed.1 with here | first | second
      · exact .inl (fewer.dereferenced here)
      · exact .inr (.inl (in_accept.loose (fun _ dropped => (unplaced _ dropped).2.1.2) id first))
      · exact .inr (.inr (in_reject.loose (fun _ dropped => (unplaced _ dropped).2.2) id second))
  | .branch condition accept reject, _, .accept in_accept, unplaced => fun id listed => by
      simp only [Instruction.nodes_branch, List.mem_cons, List.mem_append, not_or] at unplaced
      rw [Instruction.loose_branch, List.mem_append, List.mem_append]
      exact .inr (.inl (in_accept.loose (fun _ dropped => (unplaced _ dropped).2.1.2) id listed))
  | .branch condition accept reject, _, .reject in_reject, unplaced => fun id listed => by
      simp only [Instruction.nodes_branch, List.mem_cons, List.mem_append, not_or] at unplaced
      rw [Instruction.loose_branch, List.mem_append, List.mem_append]
      exact .inr (.inr (in_reject.loose (fun _ dropped => (unplaced _ dropped).2.2) id listed))
  | .loop body, _, .loop inner, unplaced => fun id listed => by
      simp only [Instruction.nodes_loop, List.mem_cons, not_or] at unplaced
      rw [Block.mem_loose, Block.looseOfAll_singleton, Instruction.loose_loop] at listed
      exact inner.loose (fun _ dropped => (unplaced _ dropped).2) id listed.1

/-- Shrinking a list makes no variable loose, if only declarations of variables that it does not
dereference are dropped. -/
theorem Block.Shrinks.loose : {block left : List Instruction} → Block.Shrinks may block left →
    (∀ id, may.drops id → Node.place (.whole id) ∉ Block.ownNodes block) →
    ∀ id ∈ Block.loose left, id ∈ Block.loose block
  | _, _, .nil, _ => fun _ listed => listed
  | instruction :: rest, _, @Block.Shrinks.cons _ _ _ left rest' head tail, unplaced =>
      fun id listed => by
        have placed := Block.dereferences_loose _ (Block.mem_loose.mp listed).1
        have shrinks : Block.Shrinks may (instruction :: rest) (left ++ rest') := .cons head tail
        simp only [Block.ownNodes_cons, List.mem_append, not_or] at unplaced
        rw [Block.mem_loose] at listed ⊢
        refine ⟨?_, fun is_declared => ?_⟩
        · rw [Block.looseOfAll, List.mem_append]
          rcases Block.loose_append (Block.mem_loose.mpr listed) with first | later
          · exact .inl (head.loose (fun _ dropped => (unplaced _ dropped).1) id first)
          · have further := tail.loose (fun _ dropped => (unplaced _ dropped).2) id later
            exact .inr (Block.mem_loose.mp further).1
        · -- A declaration that is gone would have been one that nothing here dereferences.
          rcases shrinks.declared is_declared with dropped | stays
          · have still := shrinks.noMore.touches _ (mem_touches_whole.mpr placed)
            rw [mem_touches_whole, Block.ownNodes_cons, List.mem_append] at still
            exact still.elim (unplaced id dropped).1 (unplaced id dropped).2
          · exact listed.2 stays

end

theorem Block.orphanedJumps_append (inLoop : Bool) (block rest : Block) :
    Block.orphanedJumps inLoop (block ++ rest) =
      Block.orphanedJumps inLoop block ++ Block.orphanedJumps inLoop rest := by
  induction block with
  | nil => rfl
  | cons instruction block ih => simp [Block.orphanedJumps, ih]

mutual

theorem Instruction.Shrinks.jumps {inLoop : Bool} : {instruction : Instruction} →
    {left : List Instruction} → Instruction.Shrinks may instruction left →
    instruction.orphanedJumps inLoop = [] → Block.orphanedJumps inLoop left = []
  | _, _, .drop _, _ => rfl
  | _, _, .keep _, none_before => by simp [Block.orphanedJumps, none_before]
  | _, _, .assign _, _ | _, _, .call _ _, _ | _, _, .yield _, _ => by
      simp [Block.orphanedJumps, Instruction.orphanedJumps]
  | _, _, .branch _ accept reject, none_before => by
      rw [Instruction.orphanedJumps, List.append_eq_nil_iff] at none_before
      simp [Block.orphanedJumps, Instruction.orphanedJumps, accept.jumps none_before.1,
        reject.jumps none_before.2]
  | _, _, .accept accept, none_before => by
      rw [Instruction.orphanedJumps, List.append_eq_nil_iff] at none_before
      exact accept.jumps none_before.1
  | _, _, .reject reject, none_before => by
      rw [Instruction.orphanedJumps, List.append_eq_nil_iff] at none_before
      exact reject.jumps none_before.2
  | _, _, .loop body, none_before => by
      rw [Instruction.orphanedJumps] at none_before
      simp [Block.orphanedJumps, Instruction.orphanedJumps, body.jumps none_before]

/-- Shrinking a list takes no jump out of its loop. -/
theorem Block.Shrinks.jumps {inLoop : Bool} : {block left : List Instruction} →
    Block.Shrinks may block left → Block.orphanedJumps inLoop block = [] →
    Block.orphanedJumps inLoop left = []
  | _, _, .nil, none_before => none_before
  | _, _, .cons head tail, none_before => by
      rw [Block.orphanedJumps, List.append_eq_nil_iff] at none_before
      rw [Block.orphanedJumps_append, head.jumps none_before.1, tail.jumps none_before.2]
      rfl

end

end Shrinking

/-! ## Lists that are alike -/

section Alike

variable {renames : Renaming}

theorem AlikeInOrder.dereferenced {nodes others : List Node}
    (alike : AlikeInOrder renames nodes others) :
    List.Forall₂ renames.mentions (StageLink.dereferenced nodes)
      (StageLink.dereferenced others) := by
  refine List.rel_filterMap (fun one other related => ?_) alike
  cases related with
  | place related =>
      cases related with
      | whole mentions => exact .some mentions
      | _ => exact .none
  | _ => exact .none

theorem Instruction.Alike.operands {instruction changed : Instruction}
    (alike : Instruction.Alike renames instruction changed) :
    AlikeInOrder renames instruction.operandNodes changed.operandNodes := by
  have nodes : AlikeInOrder renames (instruction.nodes fun _ => []) (changed.nodes fun _ => []) :=
    alike.nodes fun _ _ _ => .nil
  cases alike with
  | assign _ _ _ | call _ _ _ | yield _ => exact (List.forall₂_cons.mp nodes).2
  | branch condition _ _ => exact condition.nodes
  | _ => exact .nil

theorem Block.Alike.declared {block other : Block} (alike : Block.Alike renames block other) :
    List.Forall₂ renames.declares block.declared other.declared :=
  Shader.globals_alike alike

/-- What occurs for a variable that has been declared anew is the new one, or known otherwise. -/
def Renaming.Consistent (renames : Renaming) (known : VariableId → Prop)
    (copies : List VariableId) : Prop :=
  ∀ id, ∀ copy ∈ copies, renames.declares id copy → ∀ other, renames.mentions id other →
    other = copy ∨ known other

variable {known : VariableId → Prop}

theorem Renaming.Consistent.mono {copies fewer : List VariableId}
    (consistent : renames.Consistent known copies) (among : fewer ⊆ copies) :
    renames.Consistent known fewer :=
  fun id copy listed => consistent id copy (among listed)

theorem Block.Alike.loose_of_all {block others : Block} (alike : Block.Alike renames block others)
    (consistent : renames.Consistent known (Shader.declaredIn others.ownNodes))
    (all : ∀ other ∈ Block.looseOfAll others,
      known other ∨ ∃ id ∈ Block.looseOfAll block, renames.mentions id other) :
    ∀ other ∈ others.loose, known other ∨ ∃ id ∈ block.loose, renames.mentions id other := by
  intro other listed
  obtain ⟨inside, outside⟩ := Block.mem_loose.mp listed
  refine (all other inside).elim .inl ?_
  rintro ⟨id, in_block, mentions⟩
  by_cases is_declared : id ∈ block.declared
  · obtain ⟨copy, in_others, declares⟩ := exists_of_forall₂ alike.declared.flip is_declared
    rcases consistent id copy (Block.declared_subset _ in_others) declares other mentions with
      rfl | is_known
    · exact absurd in_others outside
    · exact .inl is_known
  · exact .inr ⟨id, Block.mem_loose.mpr ⟨in_block, is_declared⟩, mentions⟩

mutual

theorem Instruction.Alike.loose : {instruction changed : Instruction} →
    Instruction.Alike renames instruction changed →
    renames.Consistent known (Shader.declaredIn (changed.nodes fun _ => [])) →
    ∀ other ∈ changed.loose, known other ∨ ∃ id ∈ instruction.loose, renames.mentions id other
  | _, _, .branch condition accept reject, consistent => fun other listed => by
      rw [declaredIn_branch] at consistent
      simp only [Instruction.loose_branch, List.mem_append] at listed ⊢
      rcases listed with here | first | second
      · obtain ⟨id, there, mentions⟩ := exists_of_forall₂ condition.nodes.dereferenced here
        exact .inr ⟨id, .inl there, mentions⟩
      · have apart := consistent.mono (List.subset_append_left _ _)
        refine (accept.loose_of_all apart (accept.looseOfAll apart) other first).imp_right ?_
        exact fun ⟨id, there, mentions⟩ => ⟨id, .inr (.inl there), mentions⟩
      · have apart := consistent.mono (List.subset_append_right _ _)
        refine (reject.loose_of_all apart (reject.looseOfAll apart) other second).imp_right ?_
        exact fun ⟨id, there, mentions⟩ => ⟨id, .inr (.inr there), mentions⟩
  | _, _, .loop body, consistent => fun other listed => by
      rw [declaredIn_loop] at consistent
      exact body.loose_of_all consistent (body.looseOfAll consistent) other listed
  | _, _, .assign target value guard, _ => fun _ listed =>
      .inr (exists_of_forall₂ (Instruction.Alike.assign target value guard).operands.dereferenced
        listed)
  | _, _, .call related arguments result, _ => fun _ listed =>
      .inr (exists_of_forall₂
        (Instruction.Alike.call related arguments result).operands.dereferenced listed)
  | _, _, .yield value, _ => fun _ listed =>
      .inr (exists_of_forall₂ (Instruction.Alike.yield value).operands.dereferenced
        listed)
  | _, _, .declare _, _ | _, _, .function _, _ | _, _, .leave, _ | _, _, .next, _
  | _, _, .discard, _ | _, _, .emitVertex, _ | _, _, .endPrimitive, _ => fun _ listed => by
      cases listed

theorem Block.Alike.looseOfAll : {block others : List Instruction} →
    Block.Alike renames block others →
    renames.Consistent known (Shader.declaredIn (Block.ownNodes others)) →
    ∀ other ∈ Block.looseOfAll others,
      known other ∨ ∃ id ∈ Block.looseOfAll block, renames.mentions id other
  | _, _, .nil, _ => fun _ listed => by cases listed
  | _, _, .cons head tail, consistent => fun other listed => by
      rw [Block.ownNodes_cons, declaredIn_append] at consistent
      simp only [Block.looseOfAll, List.mem_append] at listed ⊢
      rcases listed with first | later
      · refine (head.loose (consistent.mono (List.subset_append_left _ _)) other first).imp_right ?_
        exact fun ⟨id, there, mentions⟩ => ⟨id, .inl there, mentions⟩
      · refine (tail.looseOfAll (consistent.mono (List.subset_append_right _ _)) other
          later).imp_right ?_
        exact fun ⟨id, there, mentions⟩ => ⟨id, .inr there, mentions⟩

end

/-- What is loose in a list stands for what is loose in one that it is alike to, unless it is known
otherwise. -/
theorem Block.Alike.loose {block others : Block} (alike : Block.Alike renames block others)
    (consistent : renames.Consistent known (Shader.declaredIn others.ownNodes)) :
    ∀ other ∈ others.loose, known other ∨ ∃ id ∈ block.loose, renames.mentions id other :=
  alike.loose_of_all consistent (alike.looseOfAll consistent)

mutual

theorem Instruction.Alike.jumps {inLoop : Bool} : {instruction changed : Instruction} →
    Instruction.Alike renames instruction changed →
    changed.orphanedJumps inLoop = instruction.orphanedJumps inLoop
  | _, _, .branch _ accept reject => by
      rw [Instruction.orphanedJumps, Instruction.orphanedJumps, accept.jumps, reject.jumps]
  | _, _, .loop body => by rw [Instruction.orphanedJumps, Instruction.orphanedJumps, body.jumps]
  | _, _, .declare _ | _, _, .function _ | _, _, .assign _ _ _ | _, _, .call _ _ _ | _, _, .leave
  | _, _, .next | _, _, .yield _ | _, _, .discard | _, _, .emitVertex | _, _, .endPrimitive => rfl

theorem Block.Alike.jumps {inLoop : Bool} : {block others : List Instruction} →
    Block.Alike renames block others →
    Block.orphanedJumps inLoop others = Block.orphanedJumps inLoop block
  | _, _, .nil => rfl
  | _, _, .cons head tail => by
      rw [Block.orphanedJumps, Block.orphanedJumps, head.jumps, tail.jumps]

end

end Alike
end StageLink
