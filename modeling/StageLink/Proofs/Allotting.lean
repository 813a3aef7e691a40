import StageLink.Proofs.Adoption
import StageLink.Proofs.Attributes
import StageLink.Proofs.Checking
import StageLink.Proofs.Varyings

/-!
# Locations and uniforms without faults

What assigns locations to a confined executable, sizes its uniform arrays or lists its uniforms
follows the handles of its globals only, and leaves it confined.
-/

namespace StageLink

open Shader

variable {shader producer : Shader}

/-! ## Globals -/

namespace Shader

theorem Confined.exists_modifyGlobals (confined : shader.Confined) (change : Variable → Variable) :
    ∃ after, shader.modifyGlobals change = .ok after ∧ after.Confined := by
  obtain ⟨after, changes⟩ := exists_modifyVariables change confined.globals
  exact ⟨after, changes, confined.revised (modifyVariables_revises changes)⟩

theorem Confined.exists_pairs (confined : shader.Confined) : ∃ pairs, (shader.globals.mapM fun id =>
    return (id, ← shader.fetchVariable id) : Checked (List (VariableId × Variable))) =
      .ok pairs := by
  refine Checked.exists_mapM fun id global => ?_
  obtain ⟨declared, fetched⟩ := exists_fetchVariable (confined.globals id global)
  exact ⟨(id, declared), Checked.bind_eq_ok.mpr ⟨declared, fetched, rfl⟩⟩

end Shader

/-! ## Attributes -/

namespace Attribute

variable {target : AttributeTarget} {limit : Nat} {bindings : Bindings}

theorem exists_claimAll {ids : List VariableId} : ∀ {allocation : Allocation},
    (∀ id ∈ ids, id < allocation.shader.vars.size) →
      ∃ result failure, claimAll target limit bindings allocation ids = .ok (result, failure) := by
  induction ids with
  | nil => exact fun {allocation} _ => ⟨allocation, none, rfl⟩
  | cons id ids ih =>
      intro allocation bound
      obtain ⟨declared, fetched⟩ := exists_fetchVariable (bound id (List.mem_cons_self ..))
      have bound_later := fun other listed => bound other (List.mem_cons_of_mem id listed)
      have bound_changed : ∀ {change : Variable → Variable}, ∀ other ∈ ids,
          other < (allocation.shader.modifyVariable id change).vars.size := by
        intro change other listed
        simpa [modifyVariable] using bound_later other listed
      rw [claimAll, fetched, Checked.ok_bind]
      split
      · exact ih bound_later
      · split
        · exact ⟨_, _, rfl⟩
        · dsimp only
          split
          · exact ih bound_changed
          · split
            · exact ih bound_changed
            · exact ⟨_, _, rfl⟩

/-- Slots are allocated to a confined executable, or there is a reason against it. -/
theorem exists_allocate (confined : shader.Confined) : ∃ allocated failure,
    allocate target limit bindings shader = .ok (allocated, failure) ∧ allocated.Confined := by
  have runs : ∃ answer, allocate target limit bindings shader = .ok answer := by
    let start : Allocation := { shader := shader, used := SlotSet.reservedAbove limit }
    obtain ⟨allocation, failure, claims⟩ :=
      @exists_claimAll target limit bindings _ start confined.globals
    have claimed : allocation.shader.Confined := confined.revised (claimAll_moved claims)
    rw [allocate, claims, Checked.ok_bind]
    dsimp only
    split
    · exact ⟨_, rfl⟩
    · split
      · obtain ⟨reserved, decides⟩ := claimed.exists_mentions "gl_Vertex"
        exact ⟨_, Checked.bind_eq_ok.mpr ⟨reserved, decides, rfl⟩⟩
      · exact ⟨_, rfl⟩
  obtain ⟨⟨allocated, failure⟩, runs⟩ := runs
  exact ⟨allocated, failure, runs, confined.revised (allocate_moved runs)⟩

end Attribute

/-! ## Varyings -/

namespace Varying

variable {captured : List String} {limit : Nat}

theorem exists_genericGlobals (mode : VariableMode) (confined : shader.Confined) :
    ∃ pairs, genericGlobals mode shader = .ok pairs := by
  obtain ⟨pairs, reads⟩ := confined.exists_pairs
  exact ⟨_, Checked.bind_eq_ok.mpr ⟨pairs, reads, rfl⟩⟩

theorem exists_claimAll (inputs : NameTable VariableId) {ids : List VariableId} :
    ∀ {allocation : Allocation}, (∀ id ∈ ids, id < allocation.producer.vars.size) →
      ∃ answer, claimAll inputs captured limit allocation ids = .ok answer := by
  induction ids with
  | nil => exact fun {allocation} _ => ⟨(allocation, none), rfl⟩
  | cons id ids ih =>
      intro allocation bound
      obtain ⟨output, fetched⟩ := exists_fetchVariable (bound id (List.mem_cons_self ..))
      have bound_later := fun other listed => bound other (List.mem_cons_of_mem id listed)
      rw [claimAll, fetched, Checked.ok_bind]
      dsimp only
      split
      · exact ih bound_later
      · split
        · exact ih bound_later
        · split
          · exact ⟨_, rfl⟩
          · split
            · exact ⟨_, rfl⟩
            · refine ih fun other listed => ?_
              simpa [locate, modifyVariable] using bound_later other listed

/-- Slots are allocated at a boundary between confined executables, or there is a reason against
it. -/
theorem exists_allocate {consumer : Option Shader} (confined : producer.Confined)
    (opposite : ∀ shader ∈ consumer, shader.Confined) : ∃ allocation failure,
    allocate captured limit producer consumer = .ok (allocation, failure) ∧
      allocation.producer.Confined ∧ ∀ shader ∈ allocation.consumer, shader.Confined := by
  have runs : ∃ answer, allocate captured limit producer consumer = .ok answer := by
    obtain ⟨outputs, reads⟩ := exists_genericGlobals .shaderOut confined
    have outputs_bound : ∀ id ∈ outputs.map (·.1), id < producer.vars.size :=
      fun id listed => confined.globals id ((genericGlobals_eq_ok reads).1.subset listed)
    obtain ⟨inputs, reads_inputs⟩ : ∃ inputs, oppositeInputs consumer = .ok inputs := by
      cases consumer with
      | none => exact ⟨[], rfl⟩
      | some consumer => exact exists_genericGlobals .shaderIn (opposite consumer rfl)
    let start : Allocation :=
      { producer := producer, consumer := consumer, used := SlotSet.reservedAbove limit }
    obtain ⟨⟨claimed, failure⟩, claims⟩ := @exists_claimAll captured limit
      (NameTable.ofList (inputs.map fun pair => (pair.2.name, pair.1))) _ start outputs_bound
    rw [allocate_eq reads_inputs reads claims]
    split <;> exact ⟨_, rfl⟩
  obtain ⟨⟨allocation, failure⟩, runs⟩ := runs
  obtain ⟨producer_moved, consumer_moved⟩ := allocate_moves runs
  refine ⟨allocation, failure, runs, confined.revised producer_moved, fun shader present => ?_⟩
  have present : allocation.consumer = some shader := present
  rw [present] at consumer_moved
  cases consumer_moved with
  | some moved => exact (opposite _ rfl).revised moved

theorem locatedComponents_answers (mode : VariableMode) (seen : Ty → Ty)
    (confined : shader.Confined) :
    Judged.Answers (monadLift (locatedComponents mode seen shader)) fun _ => True := by
  obtain ⟨pairs, reads⟩ := exists_genericGlobals mode confined
  exact .of_ok ⟨_, Checked.bind_eq_ok.mpr ⟨pairs, reads, rfl⟩⟩

theorem checkOutputs_answers (limits : Limits) (confined : shader.Confined) :
    (checkOutputs limits shader).Answers fun _ => True := by
  refine .andThen (locatedComponents_answers _ _ confined) fun used => ?_
  dsimp only
  split
  · exact .reject _
  · exact .pure trivial

theorem checkInputs_answers (limits : Limits) (confined : shader.Confined) :
    (checkInputs limits shader).Answers fun _ => True := by
  refine .andThen (locatedComponents_answers _ _ confined) fun used => ?_
  dsimp only
  split
  · exact .reject _
  · exact .pure trivial

end Varying

/-! ## Uniforms -/

namespace Uniform

theorem exists_uniformsOf (confined : shader.Confined) :
    ∃ uniforms, uniformsOf shader = .ok uniforms := by
  obtain ⟨declared, reads⟩ := confined.exists_globals
  exact ⟨_, Checked.bind_eq_ok.mpr ⟨declared, reads, rfl⟩⟩

theorem exists_storageFrom {executables : PerStage (Option Shader)}
    (each : ∀ stage shader, executables.get stage = some shader → shader.Confined)
    {stages : List Stage} :
    ∀ {table : Table} {usages : PerStage StageUsage},
      ∃ answer, storageFrom executables table usages stages = .ok answer := by
  induction stages with
  | nil => exact fun {table usages} => ⟨(table, usages), rfl⟩
  | cons stage stages ih =>
      intro table usages
      rw [storageFrom]
      cases present : executables.get stage with
      | none => exact ih
      | some shader =>
          obtain ⟨uniforms, lists⟩ := exists_uniformsOf (each stage shader present)
          dsimp only
          rw [lists, Checked.ok_bind]
          exact ih

/-- The uniforms of confined executables can be listed. -/
theorem exists_storage {executables : PerStage (Option Shader)}
    (each : ∀ stage shader, executables.get stage = some shader → shader.Confined) :
    ∃ answer, storage executables = .ok answer := by
  obtain ⟨answer, stores⟩ := @exists_storageFrom executables each Stage.all {} (.constant {})
  exact ⟨_, Checked.bind_eq_ok.mpr ⟨answer, stores, rfl⟩⟩

/-- The uniform arrays of a confined executable can be resized. -/
theorem exists_resizeArrays (highest : String → Nat) (confined : shader.Confined) :
    ∃ resized, resizeArrays highest shader = .ok resized ∧ resized.Confined := by
  obtain ⟨pairs, reads⟩ := confined.exists_pairs
  rw [resizeArrays, reads, Checked.ok_bind]
  dsimp only
  split
  · exact ⟨shader, rfl, confined⟩
  · have bound : ∀ id ∈ (pairs.filter fun pair => isResizable pair.2 &&
        pair.2.ty.length? ≠ some (wrap (highest pair.2.name + 1))).map (·.1),
          id < shader.vars.size := by
      intro id listed
      obtain ⟨pair, kept, rfl⟩ := List.mem_map.mp listed
      obtain ⟨other, -, fetches⟩ :=
        exists_of_forall₂ (Checked.mapM_eq_ok.mp reads) (List.mem_filter.mp kept).1
      obtain ⟨declared, fetched, equal⟩ := Checked.bind_eq_ok.mp fetches
      obtain rfl := Checked.pure_eq_ok.mp equal
      exact Arena.lt_of_get? (fetchVariable_eq_ok.mp fetched)
    let extend (declared : Variable) : Variable :=
      { declared with ty := declared.ty.withLength (wrap (highest declared.name + 1)) }
    obtain ⟨changed, changes⟩ := exists_modifyVariables extend bound
    have changed_confined := confined.revised (modifyVariables_revises changes)
    obtain ⟨retyped, retypes⟩ := changed_confined.exists_retypeElements
    exact ⟨retyped, by rw [changes, Checked.ok_bind, retypes], changed_confined.retyped retypes⟩

end Uniform

namespace Linking

/-- The depth layout of an executable can be looked up. -/
theorem exists_depthLayoutOf {ids : List VariableId} (bound : ∀ id ∈ ids, id < shader.vars.size) :
    ∃ layout, depthLayoutOf shader ids = .ok layout := by
  induction ids with
  | nil => exact ⟨.none, rfl⟩
  | cons id ids ih =>
      obtain ⟨declared, fetched⟩ := exists_fetchVariable (bound id (List.mem_cons_self ..))
      rw [depthLayoutOf, fetched, Checked.ok_bind]
      split
      · exact ⟨_, rfl⟩
      · exact ih fun other listed => bound other (List.mem_cons_of_mem id listed)

end Linking
end StageLink
