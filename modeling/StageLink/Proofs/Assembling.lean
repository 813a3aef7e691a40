import StageLink.Proofs.Adoption
import StageLink.Proofs.Checking

/-!
# Executables without faults

The units of a stage are merged into an executable without a fault if they and their libraries are
enclosed: either there is a reason against it, or the executable is enclosed again.
-/

namespace StageLink

open Shader

/-! ## Sizes -/

namespace ArraySize

variable {shader : Shader}

theorem exists_fitInputs (vertices : Nat) {ids : List VariableId} : ∀ {shader : Shader},
    (∀ id ∈ ids, id < shader.vars.size) →
      ∃ fitted causes, fitInputs vertices shader ids = .ok (fitted, causes) := by
  induction ids with
  | nil => exact fun {shader} _ => ⟨shader, [], rfl⟩
  | cons id ids ih =>
      intro shader bound
      have bound_later := fun other listed => bound other (List.mem_cons_of_mem id listed)
      obtain ⟨declared, fetched⟩ := exists_fetchVariable (bound id (List.mem_cons_self ..))
      rw [fitInputs, fetched, Checked.ok_bind]
      cases fitInput vertices declared with
      | ok fitted =>
          exact ih fun other listed => by simpa [modifyVariable] using bound_later other listed
      | error cause =>
          obtain ⟨fitted, causes, fits⟩ := ih bound_later
          exact ⟨fitted, cause :: causes, by simp [fits]⟩

/-- The inputs of a geometry stage can be fitted, after which the types on element places follow. -/
theorem exists_fitted (confined : shader.Confined) (vertices : Nat) :
    ∃ sized fitted causes, fitGeometryInputs vertices shader = .ok (fitted, causes) ∧
      Revised (fun _ _ => True) shader sized ∧ retypeElements sized = .ok fitted := by
  obtain ⟨sized, causes, fits⟩ := exists_fitInputs vertices confined.globals
  have revised := Merge.fitInputs_revises fits
  obtain ⟨fitted, retypes⟩ := (confined.revised revised).exists_retypeElements
  refine ⟨sized, fitted, causes, ?_, revised, retypes⟩
  rw [fitGeometryInputs, fits, Checked.ok_bind]
  dsimp only
  rw [retypes]
  rfl

theorem exists_fitGeometryInputs (enclosed : shader.Enclosed) (vertices : Nat) :
    ∃ fitted causes, fitGeometryInputs vertices shader = .ok (fitted, causes) ∧
      fitted.Enclosed := by
  obtain ⟨sized, fitted, causes, fits, revised, retypes⟩ := exists_fitted enclosed.confined vertices
  exact ⟨fitted, causes, fits, (enclosed.revised revised).retyped retypes⟩

theorem exists_sizedIn (confined : shader.Confined) :
    ∃ ids, sizedIn shader = .ok ids ∧ ∀ id ∈ ids, id < shader.vars.size := by
  obtain ⟨functions, fetches⟩ : ∃ functions,
      (shader.declaredFunctions.mapM fun id => shader.fetchFunction id) = .ok functions :=
    Checked.exists_mapM fun id is_declared => exists_fetchFunction
      (confined.declaredFunctions id is_declared)
  refine ⟨_, by rw [sizedIn, fetches, Checked.ok_bind]; rfl, fun id listed => ?_⟩
  rcases List.mem_append.mp listed with is_declared | parameter
  · exact confined.declares (mem_declaredIn.mp is_declared)
  · obtain ⟨function, among, inside⟩ := List.mem_flatMap.mp parameter
    obtain ⟨signature, in_function, in_signature⟩ := List.mem_flatMap.mp inside
    obtain ⟨owner, -, fetched⟩ := exists_of_forall₂ (Checked.mapM_eq_ok.mp fetches) among
    refine confined.parameters owner signature ?_ id in_signature
    rw [signaturesOf_eq (fetchFunction_eq_ok.mp fetched)]
    exact in_function

theorem exists_sizeVariables {ids : List VariableId} : ∀ {shader : Shader} {groups : List Group},
    (∀ id ∈ ids, id < shader.vars.size) →
      ∃ sized found, sizeVariables shader groups ids = .ok (sized, found) := by
  induction ids with
  | nil => exact fun {shader groups} _ => ⟨shader, groups, rfl⟩
  | cons id ids ih =>
      intro shader groups bound
      obtain ⟨declared, fetched⟩ := exists_fetchVariable (bound id (List.mem_cons_self ..))
      have bound_later : ∀ other ∈ ids,
          other < (shader.modifyVariable id fun _ => sizedVariable declared).vars.size := by
        intro other listed
        simpa [modifyVariable] using bound other (List.mem_cons_of_mem id listed)
      rw [sizeVariables, fetched, Checked.ok_bind]
      dsimp only
      split
      · exact ih bound_later
      · exact ih bound_later

/-- The arrays of an executable can be sized. -/
theorem exists_sized (confined : shader.Confined) :
    ∃ sized, sizeArrays shader = .ok sized ∧ Revised (fun _ _ => True) shader sized := by
  obtain ⟨ids, lists, bound⟩ := exists_sizedIn confined
  obtain ⟨sized, groups, sizes⟩ := @exists_sizeVariables ids shader [] bound
  have runs : sizeArrays shader = .ok (groups.foldl rebuildGroup sized) := by
    rw [sizeArrays, lists, Checked.ok_bind, sizes]
    rfl
  exact ⟨_, runs, Merge.sizeArrays_revises runs⟩

theorem exists_sizeArrays (enclosed : shader.Enclosed) :
    ∃ sized, sizeArrays shader = .ok sized ∧ sized.Enclosed := by
  obtain ⟨sized, runs, revised⟩ := exists_sized enclosed.confined
  exact ⟨sized, runs, enclosed.revised revised⟩

end ArraySize

/-! ## Merging -/

namespace Merge

variable {stage : Stage}

theorem exists_fitStageInputs {shader : Shader} (enclosed : shader.Enclosed) :
    ∃ answer, fitStageInputs stage shader = .ok answer ∧ answer.1.Enclosed := by
  unfold fitStageInputs
  split
  · next primitive _ =>
      obtain ⟨fitted, causes, fits, still⟩ :=
        ArraySize.exists_fitGeometryInputs enclosed primitive.vertices
      exact ⟨_, fits, still⟩
  · exact ⟨_, rfl, enclosed⟩

/-- Globals can adopt what is resolved. -/
theorem exists_adopted {shader : Shader} (enclosed : shader.Enclosed) (resolutions : Resolutions) :
    ∃ agreed, shader.adoptResolutions resolutions = .ok agreed ∧ agreed.Enclosed := by
  obtain ⟨agreed, adopts, -⟩ := exists_adoptResolutions resolutions enclosed.confined.globals
  exact ⟨agreed, adopts, enclosed.revised (adoptResolutions_revises adopts)⟩

variable {version : Nat} {units : List TranslationUnit}

section Units

variable (each : ∀ unit ∈ units, ∀ shader ∈ unit.shader :: unit.libraries,
  shader.Enclosed ∧ shader.Coherent)

include each

theorem enclosed_of_library : ∀ library ∈ units.map (·.shader) ++ units.flatMap (·.libraries),
    library.Enclosed ∧ library.Coherent := forall_library each

theorem enclosed_of_unit : ∀ shader ∈ units.map (·.shader), shader.Enclosed ∧ shader.Coherent :=
  fun shader listed => enclosed_of_library each shader (List.mem_append_left _ listed)

/-- An executable is built around a main unit, or there is a reason against it. -/
theorem assemble_answers {resolutions : Resolutions} {blocks : List UniformBlock} {main : Shader}
    {others : List Shader} (main_listed : main ∈ units.map (·.shader))
    (others_listed : others ⊆ units.map (·.shader)) :
    (assemble stage version units resolutions blocks main others).Answers Enclosed := by
  obtain ⟨main_enclosed, main_coherent⟩ := enclosed_of_unit each main main_listed
  unfold assemble
  dsimp only
  generalize geometryLayout stage version (units.map (·.shader)) = combined
  have basis_coherent : Coherent { main with uniformBlocks := blocks, geometry := combined.1 } :=
    ⟨main_coherent.bound, main_coherent.known, main_coherent.variable_of, main_coherent.function_of⟩
  refine .bind (.lift (exists_moveStatements (main_enclosed.adorn blocks combined.1) basis_coherent
    fun other listed => (enclosed_of_unit each other (others_listed listed)).1))
      fun merged holds => ?_
  have resolves := Resolution.resolveCalls_decides (enclosed_of_library each) holds.1 holds.2
  refine .bind (.after _ resolves) fun resolved resolved_enclosed => ?_
  refine .bind (.lift (exists_adopted resolved_enclosed resolutions))
    fun agreed agreed_enclosed => ?_
  refine .bind (.lift (exists_fitStageInputs agreed_enclosed)) fun fitted fitted_enclosed => ?_
  refine .bind (.lift (ArraySize.exists_sizeArrays fitted_enclosed)) fun sized sized_enclosed => ?_
  exact .andThen (.rejectAll _) fun _ => .pure sized_enclosed

/-- The units of a stage are merged into an enclosed executable, or there is a reason against it. -/
theorem link_answers {limits : Limits} : (link stage version limits units).Answers Enclosed := by
  have confined : ∀ shader ∈ units.map (·.shader), shader.Confined :=
    fun shader listed => (enclosed_of_unit each shader listed).1.confined
  have sturdy : ∀ shader ∈ units.map (·.shader), shader.Confined ∧ shader.Sturdy := by
    intro shader listed
    obtain ⟨enclosed, coherent⟩ := enclosed_of_unit each shader listed
    exact ⟨enclosed.confined, enclosed.sturdy coherent⟩
  refine .andThen (Declaration.resolve_answers confined) fun resolutions => ?_
  refine .andThen (InterfaceBlock.checkUnits_answers confined) fun _ => ?_
  dsimp only
  split
  · refine .andThen (.pure trivial) fun blocks => ?_
    refine .andThen (Definition.check_answers sturdy) fun _ => ?_
    split
    · exact .reject _
    · next main others splits =>
        obtain ⟨main_listed, others_listed, -⟩ := splitMain?_eq_some splits
        exact assemble_answers each main_listed others_listed
  · rw [Judged.reject_bind]
    exact .reject _

end Units
end Merge
end StageLink
