import StageLink.Proofs.Compactness
import StageLink.Proofs.Deriving
import StageLink.Proofs.Lexical

/-!
# Executables that stay in scope

An executable is sheltered if it runs by itself and every variable is in scope where it is
dereferenced, those that `main` declares itself being in scope in all bodies.  Passes and retypings
reduce executables: they declare nothing new, and drop only declarations of what is not
dereferenced.  So a sheltered executable stays sheltered, and it has no problems.
-/

namespace StageLink
namespace Shader

/-! ## What is left of a body -/

/-- The second body declares nothing new and has no further loose variables or jumps. -/
structure Leaves (block left : Block) : Prop where
  declares : (declaredIn left.ownNodes).Sublist (declaredIn block.ownNodes)
  jumps : Block.orphanedJumps false block = [] → Block.orphanedJumps false left = []
  loose : ∀ id ∈ left.loose, id ∈ block.loose

namespace Leaves

variable {block halfway left : Block} {may : Simplification}

theorem trans (first : Leaves block halfway) (second : Leaves halfway left) : Leaves block left :=
  ⟨second.declares.trans first.declares, fun none_before => second.jumps (first.jumps none_before),
    fun id listed => first.loose id (second.loose id listed)⟩

theorem of_shrinks (shrinks : Block.Shrinks may block left)
    (unplaced : ∀ id, may.drops id → Node.place (.whole id) ∉ block.ownNodes) : Leaves block left :=
  ⟨shrinks.declaredIn_sublist, shrinks.jumps, shrinks.loose unplaced⟩

theorem of_unchanged (alike : Block.Alike unchanged block left) : Leaves block left where
  declares := by
    have same : declaredIn block.ownNodes = declaredIn left.ownNodes :=
      List.forall₂_eq_eq_eq ▸ alike.ownNodes.declaredIn
    rw [same]
  jumps none_before := alike.jumps.trans none_before
  loose id listed := by
    have consistent : unchanged.Consistent (fun _ => False) (declaredIn left.ownNodes) :=
      fun _ _ _ declares _ mentions => .inl (mentions.symm.trans declares)
    obtain ⟨other, is_loose, same⟩ := (alike.loose consistent id listed).resolve_left
      fun impossible => impossible
    exact same ▸ is_loose

end Leaves

theorem declared_of_unchanged {block left : Block} (alike : Block.Alike unchanged block left) :
    left.declared = block.declared := by
  have same : block.declared = left.declared := List.forall₂_eq_eq_eq ▸ alike.declared
  exact same.symm

/-! ## Reducing -/

variable {shader before after : Shader}

/-- The second executable has no more globals, functions and bodies than the first, and still
declares what is dereferenced. -/
structure Reduces (before after : Shader) : Prop where
  vars : after.vars.size = before.vars.size
  functions : after.declaredFunctions.Sublist before.declaredFunctions
  size : before.functions.size ≤ after.functions.size
  globals : after.globals.Sublist before.globals
  kept : ∀ id ∈ before.globals, Node.place (.whole id) ∈ before.nodes → id ∈ after.globals
  bodies : ∃ moves : Callee → Callee → Prop,
    (∀ one first second, moves one first → moves one second → first = second) ∧
      Derives moves Leaves before after
  main : ∀ main entry, before.HasMain main → before.At main entry →
    ∃ moved carried, after.HasMain moved ∧ after.At moved carried ∧
      ∀ id ∈ entry.body.declared, Node.place (.whole id) ∈ before.nodes → id ∈ carried.body.declared

/-- An executable that runs by itself and dereferences variables where they are in scope. -/
structure Sheltered (shader : Shader) : Prop where
  contained : shader.SelfContained
  lexical : ∃ main entry, shader.HasMain main ∧ shader.At main entry ∧
    shader.Lexical [] entry.body.declared

/-- A sheltered executable stays sheltered when it is reduced. -/
theorem Sheltered.reduces (sheltered : before.Sheltered) (contained : after.SelfContained)
    (reduces : Reduces before after) : after.Sheltered := by
  obtain ⟨main, entry, has, there, lexical⟩ := sheltered.lexical
  obtain ⟨moved, carried, has_moved, moved_there, shares⟩ := reduces.main main entry has there
  obtain ⟨moves, functional, derives⟩ := reduces.bodies
  refine ⟨contained, moved, carried, has_moved, moved_there,
    lexical.functions.sublist reduces.functions,
    fun id is_declared => ?_, lexical.once.sublist reduces.globals, fun id global => ?_,
    fun {other left} is_declared now => ?_,
    fun {one other first second} is_declared other_declared now other_now id listed listed_too =>
      ?_⟩
  · exact Nat.lt_of_lt_of_le
      (lexical.functions_bound id (reduces.functions.subset is_declared)) reduces.size
  · exact reduces.vars ▸ lexical.bound id (reduces.globals.subset global)
  · obtain ⟨one, signature, -, was_declared, was, same, leaves⟩ :=
      derives other left is_declared now
    have houses := lexical.houses was_declared was
    refine ⟨fun id inside => ?_, houses.once.sublist leaves.declares, fun id listed => ?_,
      leaves.jumps houses.jumps, fun id listed => ?_⟩
    · exact reduces.vars ▸ houses.parameters id (same ▸ inside)
    · obtain ⟨below, outside⟩ := houses.new id (leaves.declares.subset listed)
      exact ⟨reduces.vars ▸ below, fun global => outside (reduces.globals.subset global)⟩
    · have was_loose := leaves.loose id listed
      have placed : Node.place (.whole id) ∈ before.nodes :=
        nodes_of_body was_declared (List.mem_of_getElem? was) _
          (Block.dereferences_loose _ (Block.mem_loose.mp was_loose).1)
      rcases houses.loose id was_loose with global | parameter | is_shared
      · exact .inl (reduces.kept id global placed)
      · exact .inr (.inl (same ▸ parameter))
      · exact .inr (.inr (shares id is_shared placed))
  · obtain ⟨origin, _, moves_one, was_declared, was, -, leaves⟩ := derives one first is_declared now
    obtain ⟨origin', _, moves_other, other_was_declared, other_was, -, leaves'⟩ :=
      derives other second other_declared other_now
    obtain rfl := lexical.apart was_declared other_was_declared was other_was id
      (leaves.declares.subset listed) (leaves'.declares.subset listed_too)
    exact functional _ _ _ moves_one moves_other

theorem reduces_of_recast {keeps : List Callee → List Callee → Prop} {leaves : Block → Block → Prop}
    (recast : Recast keeps before after) (derives : Derives Eq leaves before after)
    (fits : ∀ {callee signature left}, callee.function ∈ before.declaredFunctions →
      before.At callee signature → leaves signature.body left → Leaves signature.body left ∧
        ∀ id ∈ signature.body.declared, Node.place (.whole id) ∈ before.nodes → id ∈ left.declared)
    (vars : after.vars.size = before.vars.size)
    (size : before.functions.size ≤ after.functions.size)
    (globals : after.globals.Sublist before.globals)
    (kept : ∀ id ∈ before.globals, Node.place (.whole id) ∈ before.nodes → id ∈ after.globals) :
    Reduces before after where
  vars := vars
  functions := by rw [recast.declared]
  size := size
  globals := globals
  kept := kept
  bodies := by
    refine ⟨Eq, fun _ _ _ first second => first.symm.trans second,
      fun other carried is_declared there => ?_⟩
    obtain ⟨one, signature, moves, was_declared, was, same, left⟩ :=
      derives other carried is_declared there
    exact ⟨one, signature, moves, was_declared, was, same, (fits was_declared was left).1⟩
  main main entry has there := by
    have has_after := recast.hasMain has
    obtain ⟨carried, now, -⟩ := recast.at_after there
    obtain ⟨one, signature, rfl, was_declared, was, -, left⟩ :=
      derives main carried has_after.named.1 now
    obtain rfl := was.unique there
    exact ⟨_, carried, has_after, now, (fits was_declared was left).2⟩

/-! ## Retyping -/

theorem reduces_of_revised {relation : Variable → Variable → Prop} (flat : before.topLevel.Flat)
    (revised : Revised relation before after) : Reduces before after := by
  have same := revised.same
  refine reduces_of_recast (recast_of_revised flat revised) (derives_of_revised revised)
    (fun _ _ unchanged => ?_) revised.size ?_ ?_ fun id global _ => ?_
  · subst unchanged
    exact ⟨⟨List.Sublist.refl _, fun none_before => none_before, fun _ listed => listed⟩,
      fun _ listed _ => listed⟩
  · rw [same]
  · rw [revised.globals]
  · rw [revised.globals]
    exact global

theorem Sheltered.revised {relation : Variable → Variable → Prop} (sheltered : before.Sheltered)
    (revised : Revised relation before after) : after.Sheltered :=
  sheltered.reduces (sheltered.contained.revised revised)
    (reduces_of_revised sheltered.contained.flat revised)

theorem reduces_retypeElements {result : Shader} (flat : shader.topLevel.Flat)
    (runs : ArraySize.retypeElements shader = .ok result) : Reduces shader result := by
  have same := retypeElements_eq_ok flat runs
  have globals : result.globals = shader.globals := by rw [same, Shader.globals, Shader.globals]
  obtain ⟨-, -, functions⟩ := mapBodies_eq_ok runs
  refine reduces_of_recast (recast_retypeElements flat runs) (derives_retypeElements flat runs)
    (fun _ _ alike => ⟨.of_unchanged alike, fun id listed _ => ?_⟩) ?_ ?_ ?_ fun id global _ => ?_
  · rw [declared_of_unchanged alike]
    exact listed
  · rw [same]
  · exact Nat.le_of_eq functions.length_eq
  · rw [globals]
  · rw [globals]
    exact global

theorem Sheltered.retypeElements {result : Shader} (sheltered : shader.Sheltered)
    (runs : ArraySize.retypeElements shader = .ok result) : result.Sheltered := by
  have flat := sheltered.contained.flat
  exact sheltered.reduces
    ((recast_retypeElements flat runs).noNewCalls.selfContained sheltered.contained)
    (reduces_retypeElements flat runs)

/-! ## Passes -/

theorem reduces_foldConstants (flat : shader.topLevel.Flat) :
    Reduces shader shader.foldConstants := by
  have same : shader.foldConstants.topLevel = shader.topLevel := Block.fold_flat flat
  have globals : shader.foldConstants.globals = shader.globals := by
    rw [Shader.globals, same, Shader.globals]
  refine reduces_of_recast (recast_foldConstants flat) (derives_foldConstants flat) ?_ rfl ?_ ?_
    fun id global _ => ?_
  · rintro callee signature left is_declared there ⟨halfway, first, second⟩
    refine ⟨(Leaves.of_shrinks first fun _ dropped => dropped.elim).trans
      (Leaves.of_shrinks second fun _ dropped => dropped.elim), fun id listed _ => ?_⟩
    have stays := (first.declared listed).resolve_left fun dropped => dropped
    exact (second.declared stays).resolve_left fun dropped => dropped
  · simp [Shader.foldConstants, updateBodies, Arena.map, Arena.size]
  · rw [globals]
  · rw [globals]
    exact global

theorem not_placed_of_dead {keepUniforms : Bool} {id : VariableId}
    (dead : id ∈ shader.deadDeclarations keepUniforms) : Node.place (.whole id) ∉ shader.nodes := by
  obtain ⟨pair, listed, rfl⟩ := List.mem_map.mp dead
  have found := (List.mem_filter.mp listed).2
  simp only [Bool.and_eq_true, isUnread, decide_eq_true_eq, Bool.not_eq_true'] at found
  obtain ⟨⟨⟨-, fewer⟩, none_assigned⟩, -⟩ := found
  have no_assignment : shader.nodes.countP (Node.assignsTo pair.1) = 0 := by
    refine List.countP_eq_zero.mpr fun node there assigns => ?_
    exact absurd none_assigned (by simpa using ⟨node, there, assigns⟩)
  rw [no_assignment, Nat.le_zero, List.countP_eq_zero] at fewer
  intro placed
  exact fewer _ placed (by simp [Node.refersTo])

theorem reduces_removeDeadCode (keepUniforms : Bool) (flat : shader.topLevel.Flat) :
    Reduces shader (shader.removeDeadCode keepUniforms) := by
  have same : (shader.removeDeadCode keepUniforms).topLevel = shader.topLevel.filter
      (survives shader.deadTargets (shader.deadDeclarations keepUniforms)) :=
    Block.updateBlocks_flat _ flat
  refine reduces_of_recast (recast_removeDeadCode keepUniforms flat)
    (derives_removeDeadCode keepUniforms flat)
    (fun {_ signature _} is_declared there shrinks => ?_) rfl ?_
    (thinned_removeDeadCode keepUniforms flat).globals fun id global placed => ?_
  · refine ⟨.of_shrinks shrinks fun id dropped placed => ?_, fun id listed placed => ?_⟩
    · exact not_placed_of_dead dropped
        (nodes_of_body is_declared (List.mem_of_getElem? there) _ placed)
    · exact (shrinks.declared listed).resolve_left fun dropped => not_placed_of_dead dropped placed
  · simp [Shader.removeDeadCode, updateBodies, Arena.map, Arena.size]
  · rw [mem_globals, same, List.mem_filter]
    refine ⟨mem_globals.mp global, ?_⟩
    simpa [survives] using fun dead => not_placed_of_dead dead placed

theorem reduces_removeDeadFunctions (flat : shader.topLevel.Flat) :
    Reduces shader shader.removeDeadFunctions where
  vars := rfl
  functions := by
    rw [declaredFunctions_removeDeadFunctions]
    exact List.filter_sublist
  size := by
    simp [Shader.removeDeadFunctions, updateBodies, Arena.map, Arena.size, Arena.indexed]
  globals := (thinned_removeDeadFunctions flat).globals
  kept id global _ := by
    rw [mem_globals, topLevel_removeDeadFunctions flat, List.mem_filter]
    exact ⟨mem_globals.mp global, rfl⟩
  bodies := by
    refine ⟨shader.Follows, fun _ _ _ first second => first.2.2.trans second.2.2.symm, ?_⟩
    exact derives_removeDeadFunctions.imp fun _ _ (shrinks : Block.Shrinks (following _) _ _) =>
      Leaves.of_shrinks shrinks fun _ dropped => dropped.elim
  main main entry has there := by
    refine ⟨shader.moved main, shader.follow entry, has.removeDeadFunctions,
      at_removeDeadFunctions.mpr ⟨main, entry, has.follows, there, rfl⟩, fun id listed _ => ?_⟩
    exact ((Block.shrinks_moveCall shader shader.liveCallees entry.body).declared
      listed).resolve_left fun dropped => dropped

/-- Every pass keeps an executable sheltered. -/
theorem Sheltered.run (sheltered : shader.Sheltered) (pass : Pass) :
    (pass.run shader).Sheltered := by
  have contained := sheltered.contained
  have flat := contained.flat
  cases pass with
  | foldConstants =>
      exact sheltered.reduces ((recast_foldConstants flat).selfContained contained)
        (reduces_foldConstants flat)
  | removeDeadCode keepUniforms =>
      exact sheltered.reduces
        ((recast_removeDeadCode keepUniforms flat).noNewCalls.selfContained contained)
        (reduces_removeDeadCode keepUniforms flat)
  | removeDeadFunctions =>
      exact sheltered.reduces contained.removeDeadFunctions (reduces_removeDeadFunctions flat)
  | inspect => exact sheltered

theorem Sheltered.optimizeFully (sheltered : shader.Sheltered) :
    shader.optimizeFully.Sheltered := by
  refine exhaust_keeps (fun current so_far => ?_) shader sheltered
  exact @optimize_keeps Sheltered .full (fun pass _ _ holds => holds.run pass) current so_far

/-! ## No problems -/

namespace Sheltered

variable {id : VariableId}

theorem declaresOnce (sheltered : shader.Sheltered) : shader.DeclaresOnce := by
  obtain ⟨main, entry, -, -, lexical⟩ := sheltered.lexical
  have globals : declaredIn shader.topLevel.ownNodes = shader.globals :=
    Block.declaredIn_flat sheltered.contained.flat
  refine ⟨globals ▸ lexical.once, fun is_declared there => ?_, lexical.apart⟩
  have houses := lexical.houses is_declared there
  exact ⟨houses.once, fun id listed global => (houses.new id listed).2 (globals ▸ global)⟩

theorem declared_of_body {function : FunctionId} {signature : Signature}
    (is_declared : function ∈ shader.declaredFunctions)
    (listed : signature ∈ shader.signaturesOf function)
    (local_to : id ∈ declaredIn signature.body.ownNodes) : id ∈ declaredIn shader.nodes :=
  mem_declaredIn.mpr (nodes_of_body is_declared listed _ (mem_declaredIn.mp local_to))

/-- What is declared somewhere is in the arena. -/
theorem bound (sheltered : shader.Sheltered) (listed : id ∈ declaredIn shader.nodes) :
    id < shader.vars.size := by
  obtain ⟨main, entry, -, -, lexical⟩ := sheltered.lexical
  rcases (mem_nodes sheltered.contained.on_top).mp (mem_declaredIn.mp listed) with
    top | ⟨function, is_declared, signature, inside, own⟩
  · have global := mem_declaredIn.mpr top
    rw [Block.declaredIn_flat sheltered.contained.flat] at global
    exact lexical.bound id global
  · exact ((lexical.houses_of_mem is_declared inside).new id (mem_declaredIn.mpr own)).1

theorem known_of_placed (sheltered : shader.Sheltered)
    (placed : Node.place (.whole id) ∈ shader.nodes) :
    id ∈ declaredIn shader.nodes ∨ id ∈ shader.declaredParameters ∧ id < shader.vars.size := by
  have contained := sheltered.contained
  obtain ⟨main, entry, has, entry_there, lexical⟩ := sheltered.lexical
  rcases (mem_nodes contained.on_top).mp placed with
    top | ⟨function, is_declared, signature, inside, own⟩
  · -- The top level has only declarations, and those dereference nothing.
    obtain ⟨instruction, in_top, inner⟩ := Block.mem_ownNodes.mp top
    rw [Instruction.nodes_of_isDeclaration (contained.flat _ in_top), List.mem_singleton] at inner
    cases inner
  · have houses := lexical.houses_of_mem is_declared inside
    rcases Block.loose_or_declared _ own with is_loose | local_to
    · rcases houses.loose id is_loose with global | parameter | is_shared
      · exact .inl (mem_declaredIn.mpr (node_of_mem _ (mem_globals.mp global)))
      · refine .inr ⟨List.mem_flatMap.mpr ⟨function, is_declared, ?_⟩,
          houses.parameters id parameter⟩
        exact List.mem_flatMap.mpr ⟨signature, inside, parameter⟩
      · exact .inl (declared_of_body has.named.1 (List.mem_of_getElem? entry_there)
          (Block.declared_subset _ is_shared))
    · exact .inl (declared_of_body is_declared inside local_to)

/-- A sheltered executable has no problems. -/
theorem noProblems (sheltered : shader.Sheltered) : shader.NoProblems := by
  have contained := sheltered.contained
  obtain ⟨main, entry, -, -, lexical⟩ := sheltered.lexical
  refine ⟨fun _ => sheltered.bound, sheltered.declaresOnce.nodup contained.on_top lexical.functions,
    lexical.functions_bound,
      ⟨fun id placed => ?_, fun _ _ _ called => contained.callee_there called⟩,
    jumps_of_flat contained.flat, fun _ is_declared _ listed =>
      (lexical.houses_of_mem is_declared listed).jumps⟩
  rcases sheltered.known_of_placed placed with is_declared | ⟨parameter, below⟩
  · exact ⟨sheltered.bound is_declared, List.mem_append_left _ is_declared⟩
  · exact ⟨below, List.mem_append_right _ parameter⟩

end Sheltered

end Shader
end StageLink
