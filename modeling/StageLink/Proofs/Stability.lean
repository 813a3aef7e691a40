import StageLink.Proofs.Folded

/-!
# Stable executables

Once an executable has been optimized as far as possible no pass changes it, and it stays so to the
end of the link.  What has been folded stays folded, signatures that are called stay called, and
wherever dead code may have come up it is removed until none is left.
-/

namespace StageLink

/-- Two declarations are for removing dead code as one. -/
structure Variable.SameRole (one other : Variable) : Prop where
  mode : other.mode = one.mode
  initializer : other.constantInitializer = one.constantInitializer

namespace Variable.SameRole

theorem of_sameButPlace {one other : Variable} (same : one.SameButPlace other) :
    one.SameRole other :=
  ⟨by rw [same], by rw [same]⟩

end Variable.SameRole

namespace Shader

variable {shader before after : Shader}

/-! ## Uses of variables -/

/-- What some nodes do with a variable is what others do with another. -/
structure SameUses (nodes : List Node) (id : VariableId) (others : List Node) (other : VariableId) :
    Prop where
  referred : others.countP (Node.refersTo other) = nodes.countP (Node.refersTo id)
  assigned : others.countP (Node.assignsTo other) = nodes.countP (Node.assignsTo id)
  declared : others.countP (Node.declares other) = nodes.countP (Node.declares id)

namespace SameUses

variable {nodes others last : List Node} {id other : VariableId}

theorem refl (nodes : List Node) (id : VariableId) : SameUses nodes id nodes id := ⟨rfl, rfl, rfl⟩

theorem of_perm (perm : nodes.Perm others) (id : VariableId) : SameUses nodes id others id :=
  ⟨(perm.countP_eq _).symm, (perm.countP_eq _).symm, (perm.countP_eq _).symm⟩

theorem trans {third : VariableId} (first : SameUses nodes id others other)
    (next : SameUses others other last third) : SameUses nodes id last third :=
  ⟨next.referred.trans first.referred, next.assigned.trans first.assigned,
    next.declared.trans first.declared⟩

theorem isUnread (uses : SameUses nodes id others other) :
    Shader.isUnread others other = Shader.isUnread nodes id := by
  rw [Shader.isUnread, Shader.isUnread, any_of_countP uses.declared, uses.referred, uses.assigned]

end SameUses

/-- Variables that are the same up to a renaming are used in the same way by nodes that are
alike. -/
theorem sameUses_of_alike {renames : Renaming} {nodes others : List Node} {id other : VariableId}
    (alike : AlikeInOrder renames nodes others)
    (closed : ∀ target value guard, Node.instruction (.assign target value guard) ∈ nodes →
      Node.place (.whole target.root) ∈ nodes)
    (mentions : ∀ one two, Node.place (.whole one) ∈ nodes → renames.mentions one two →
      (two = other ↔ one = id))
    (declares : ∀ one two, Node.instruction (.declare one) ∈ nodes → renames.declares one two →
      (two = other ↔ one = id)) : SameUses nodes id others other := by
  have listed : List.Forall₂ (fun node renamed => node ∈ nodes ∧ Node.Alike renames node renamed)
      nodes others := (List.forall₂_and_left _ _).mpr ⟨fun _ here => here, alike⟩
  refine ⟨countP_of_forall₂ ?_ listed, countP_of_forall₂ ?_ listed, countP_of_forall₂ ?_ listed⟩
  · rintro _ _ ⟨here, related⟩
    cases related with
    | place related =>
        cases related with
        | whole moves => simpa [Node.refersTo] using mentions _ _ here moves
        | _ => rfl
    | _ => rfl
  · rintro _ _ ⟨here, related⟩
    cases related with
    | instruction related =>
        cases related with
        | assign target _ _ =>
            simpa [Node.assignsTo] using mentions _ _ (closed _ _ _ here) target.root
        | _ => rfl
    | _ => rfl
  · rintro _ _ ⟨here, related⟩
    cases related with
    | instruction related =>
        cases related with
        | declare moves => simpa [Node.declares] using declares _ _ here moves
        | _ => rfl
    | _ => rfl

/-! ## Dead code -/

theorem listedNodes_closed {target : Place} {value : Expr} {guard : Option Expr}
    (listed : Node.instruction (.assign target value guard) ∈ shader.listedNodes) :
    Node.place (.whole target.root) ∈ shader.listedNodes := by
  have operand : Node.place (.whole target.root) ∈
      (Instruction.assign target value guard).operandNodes :=
    List.mem_append_left _ (List.mem_append_left _ (Semantics.mem_nodes_root target))
  rw [listedNodes, List.mem_append] at listed ⊢
  refine listed.imp (fun top => Block.operands_of_mem _ top _ operand) fun inside => ?_
  obtain ⟨id, is_declared, in_function⟩ := List.mem_flatMap.mp inside
  obtain ⟨signature, there, in_body⟩ := List.mem_flatMap.mp in_function
  exact List.mem_flatMap.mpr ⟨id, is_declared, List.mem_flatMap.mpr
    ⟨signature, there, Block.operands_of_mem _ in_body _ operand⟩⟩

/-- Nothing is dead where every variable is like one that was there before, and used like it. -/
theorem clean_of_uses (clean : before.removesInstruction false = false)
    (each : ∀ other declared, after.vars.get? other = some declared → ∃ id was,
      before.vars.get? id = some was ∧ was.SameRole declared ∧
      SameUses before.nodes id after.nodes other) : after.removesInstruction false = false := by
  obtain ⟨no_target, no_declaration⟩ := removesInstruction_iff.mp clean
  refine removesInstruction_iff.mpr ⟨?_, ?_⟩
  · refine List.eq_nil_iff_forall_not_mem.mpr fun other dead => ?_
    obtain ⟨declared, found, unread, assigned, no_output⟩ := mem_deadTargets.mp dead
    obtain ⟨id, was, found_before, ⟨mode, -⟩, uses⟩ := each other declared found
    have dead_before : id ∈ before.deadTargets := mem_deadTargets.mpr ⟨was, found_before,
      uses.isUnread ▸ unread, any_of_countP uses.assigned ▸ assigned, by
        rw [Variable.isOutput, ← mode]
        exact no_output⟩
    rw [no_target] at dead_before
    cases dead_before
  · refine List.eq_nil_iff_forall_not_mem.mpr fun other dead => ?_
    obtain ⟨declared, found, unread, unassigned, dropped⟩ := mem_deadDeclarations.mp dead
    obtain ⟨id, was, found_before, ⟨mode, initializer⟩, uses⟩ := each other declared found
    have dead_before : id ∈ before.deadDeclarations false := by
      refine mem_deadDeclarations.mpr ⟨was, found_before, uses.isUnread ▸ unread,
        any_of_countP uses.assigned ▸ unassigned, ?_⟩
      rw [Variable.keepsDeclaration, ← mode, ← initializer]
      exact dropped
    rw [no_declaration] at dead_before
    cases dead_before

/-- Where functions are declared on top, the uses can be compared body by body. -/
theorem sameUses_of_listed {id other : VariableId} (on_top : before.FunctionsOnTop)
    (on_top_after : after.FunctionsOnTop)
    (uses : SameUses before.listedNodes id after.listedNodes other) :
    SameUses before.nodes id after.nodes other :=
  (SameUses.of_perm (nodes_perm on_top) id).trans
    (uses.trans (.of_perm (nodes_perm on_top_after).symm other))

theorem clean_of_revised {relation : Variable → Variable → Prop}
    (same_role : ∀ one other, relation one other → one.SameRole other)
    (clean : before.removesInstruction false = false) (revised : Revised relation before after) :
    after.removesInstruction false = false := by
  refine clean_of_uses clean fun id declared found => ?_
  obtain ⟨was, found_before, related⟩ := revised.origin found
  have nodes : after.nodes = before.nodes :=
    nodes_congr (by rw [revised.same]) (by rw [revised.same])
  exact ⟨id, was, found_before, same_role _ _ related, nodes ▸ .refl _ id⟩

theorem clean_retypeElements {result : Shader} (contained : shader.SelfContained)
    (clean : shader.removesInstruction false = false)
    (runs : ArraySize.retypeElements shader = .ok result) :
    result.removesInstruction false = false := by
  have flat := contained.flat
  have same := retypeElements_eq_ok flat runs
  have contained_after := (recast_retypeElements flat runs).noNewCalls.selfContained contained
  have alike : AlikeInOrder unchanged shader.listedNodes result.listedNodes := by
    have declared := (recast_retypeElements flat runs).declared
    rw [listedNodes, listedNodes, declared]
    refine List.rel_append (Block.Alike.ownNodes ?_) (List.rel_flatMap (List.forall₂_same.mpr
      fun _ _ => rfl) ?_)
    · rw [same]
      exact .refl unchanged_reflexive _
    · rintro id _ rfl
      exact List.rel_flatMap (signaturesOf_retypeElements runs id) fun _ _ one => one.2.ownNodes
  refine clean_of_uses clean fun id declared found => ⟨id, declared, ?_, ⟨rfl, rfl⟩, ?_⟩
  · rwa [same] at found
  · refine sameUses_of_listed contained.on_top contained_after.on_top (sameUses_of_alike alike
      (fun _ _ _ => listedNodes_closed) ?_ ?_)
    · rintro one _ - rfl
      rfl
    · rintro one _ - rfl
      rfl

theorem Compacted.clean (compacted : Compacted before after) (contained : before.SelfContained)
    (clean : before.removesInstruction false = false) : after.removesInstruction false = false := by
  have contained_after := compacted.selfContained contained
  refine clean_of_uses clean fun other declared found => ?_
  rw [compacted.vars] at found
  obtain ⟨id, was, live, row⟩ := Arena.compact_origin found
  have moves : before.compaction.mentions id other := by
    change renumber before.variableTable _ id = _
    rw [renumber, variableTable, row]
  have tracks : ∀ one two, before.isLive one = true → before.compaction.mentions one two →
      (two = other ↔ one = id) := by
    refine fun one two live_too moves_too => ⟨?_, ?_⟩
    · rintro rfl
      exact compaction_injective live_too live moves_too moves
    · rintro rfl
      exact compaction_functional moves_too moves
  have occurs : ∀ node ∈ before.listedNodes, node ∈ before.nodes := fun _ listed =>
    (nodes_perm contained.on_top).mem_iff.mpr listed
  refine ⟨id, declared, was, ⟨rfl, rfl⟩, sameUses_of_listed contained.on_top contained_after.on_top
    (sameUses_of_alike compacted.listedNodes (fun _ _ _ => listedNodes_closed) ?_ ?_)⟩
  · exact fun one two listed => tracks one two (isLive_of_mentioned
      (mentioned_of_dereferenced (mem_dereferenced.mpr (occurs _ listed))))
  · exact fun one two listed => tracks one two (isLive_of_mentioned
      (mentioned_of_declared (mem_declaredIn.mpr (occurs _ listed))))

/-! ## Optimized executables -/

/-- A connected executable with nothing to fold and no dead code. -/
structure Optimized (shader : Shader) : Prop where
  connected : shader.Connected
  folded : shader.foldsSomething = false
  clean : shader.removesInstruction false = false

theorem Optimized.stable (optimized : shader.Optimized)
    (declared : ∀ {id}, id < shader.functions.size → id ∈ shader.declaredFunctions) :
    shader.Stable := by
  have all_live : shader.AllLive := by
    intro one signature there
    obtain ⟨main, has, live⟩ := optimized.connected.live
    obtain ⟨_, found, -⟩ := there.function
    rcases live (declared (Arena.lt_of_get? found)) there with rfl | ⟨caller, invokes⟩
    · exact liveCallees_of_main has
    · exact optimized.connected.contained.live_of_invokes invokes
  intro pass listed
  simp only [OptimizationLevel.passes, List.mem_cons, List.not_mem_nil, or_false] at listed
  rcases listed with rfl | rfl | rfl
  · exact optimized.folded
  · exact allLive_iff.mp all_live
  · exact optimized.clean

theorem Optimized.revised {relation : Variable → Variable → Prop} (optimized : before.Optimized)
    (same_role : ∀ one other, relation one other → one.SameRole other)
    (revised : Revised relation before after) : after.Optimized :=
  ⟨(recast_of_revised optimized.connected.contained.flat revised).connected optimized.connected,
    foldsSomething_revised optimized.folded revised,
    clean_of_revised same_role optimized.clean revised⟩

theorem Optimized.retypeElements {result : Shader} (optimized : shader.Optimized)
    (runs : ArraySize.retypeElements shader = .ok result) : result.Optimized :=
  ⟨(recast_retypeElements optimized.connected.contained.flat runs).connected optimized.connected,
    foldsSomething_retypeElements optimized.folded runs,
    clean_retypeElements optimized.connected.contained optimized.clean runs⟩

theorem Optimized.compacted (optimized : before.Optimized) (compacted : Compacted before after) :
    after.Optimized :=
  ⟨compacted.connected optimized.connected, compacted.foldsSomething optimized.folded,
    compacted.clean optimized.connected.contained optimized.clean⟩

end Shader

namespace Linking

open Shader

end Linking

namespace Program

open Shader

end Program
end StageLink
