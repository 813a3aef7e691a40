import StageLink.Proofs.Captures
import StageLink.Proofs.Connected
import StageLink.Proofs.Room

/-!
# Links that stop and links that finish

No phase ends a link without reporting an error, so what a successful link leaves is what all phases
have worked on: an executable for each stage that has units, each with a place to begin, the
positions of all uniform blocks, and an entry for every capture.
-/

namespace StageLink

/-! ## Executables -/

namespace Shader

variable {before after shader : Shader}

/-- A shader with only declarations at its top level and a place to begin. -/
structure Begun (shader : Shader) : Prop where
  flat : shader.topLevel.Flat
  main : ∃ main, shader.HasMain main

/-- A shader has a defined `main` without parameters. -/
def BeginsAtMain (shader : Shader) : Prop :=
  ∃ main signature, shader.mainSignature? = some main ∧ shader.isNamed "main" main.function = true ∧
    shader.At main signature ∧ signature.isDefined = true ∧ signature.parameters = []

theorem Begun.beginsAtMain (begun : shader.Begun) : shader.BeginsAtMain := by
  obtain ⟨main, has⟩ := begun.main
  obtain ⟨signature, there, is_entry⟩ := has.exists_at
  obtain ⟨no_parameters, defined⟩ := Bool.and_eq_true_iff.mp is_entry
  exact ⟨main, signature, has.mainSignature?, has.named.2, there, defined,
    List.isEmpty_iff.mp no_parameters⟩

theorem Begun.recast {keeps : List Callee → List Callee → Prop} (begun : before.Begun)
    (recast : Recast keeps before after) : after.Begun :=
  ⟨recast.flat, begun.main.imp fun _ => recast.hasMain⟩

theorem Begun.run (begun : shader.Begun) (pass : Pass) : (pass.run shader).Begun := by
  cases pass with
  | foldConstants => exact begun.recast (recast_foldConstants begun.flat)
  | removeDeadCode keepUniforms =>
      exact begun.recast (recast_removeDeadCode keepUniforms begun.flat)
  | removeDeadFunctions =>
      obtain ⟨main, has⟩ := begun.main
      exact ⟨(thinned_removeDeadFunctions begun.flat).flat begun.flat, _, has.removeDeadFunctions⟩
  | inspect => exact begun

theorem Begun.optimizeFully (begun : shader.Begun) : shader.optimizeFully.Begun := by
  have step : ∀ shader : Shader, shader.Begun → (shader.optimize .full).Begun :=
    optimize_keeps fun pass _ _ begun => Begun.run begun pass
  exact exhaust_keeps step shader begun

theorem Begun.compacted (begun : before.Begun) (compacted : Compacted before after) :
    after.Begun := by
  obtain ⟨main, has⟩ := begun.main
  obtain ⟨moved, -, has_moved⟩ := compacted.hasMain has
  exact ⟨flat_alike compacted.topLevel begun.flat, moved, has_moved⟩

end Shader

namespace Merge

open Shader

theorem sketch_extended (sources : List Shader) : Extended sources Sketch where
  coherent sketch := sketch.coherent
  grows _ sketch grows := sketch.grows grows
  modifySignature callee _ advances sketch := sketch.modifySignature callee advances

/-- The executable of a stage has a place to begin if its units know where theirs are. -/
theorem link_begun {stage : Stage} {version : Nat} {limits : Limits} {units : List TranslationUnit}
    {result : Shader}
    (known : ∀ unit ∈ units, unit.shader.KnowsMain)
    (grants : (link stage version limits units).Grants result) : result.Begun := by
  obtain ⟨resolutions, blocks, main, others, -, -, splits, assembles⟩ := link_grants grants
  obtain ⟨main_listed, -, has_main⟩ := splitMain?_eq_some splits
  obtain ⟨merged, resolved, agreed, fitted, misfits, moves, resolves, adopts, fits, sizes, -⟩ :=
    assemble_grants assembles
  obtain ⟨unit, unit_listed, rfl⟩ := List.mem_map.mp main_listed
  have merged_sketch : merged.Sketch := by
    let basis : Shader := { unit.shader with
      uniformBlocks := blocks
      geometry := (geometryLayout stage version (units.map (·.shader))).1 }
    obtain ⟨found, is_main⟩ := Option.isSome_iff_exists.mp has_main
    refine (sketch_extended others).moveStatements (List.Subset.refl _)
      (show basis.mainSignature?.isSome = true from has_main) (fun bound => ?_) moves
    exact @sketch_of_main basis _ is_main
      (known unit unit_listed _ (mainSignature?_eq_some.mp is_main).1) bound
  have sketch := (sketch_extended _).resolveCalls merged_sketch resolves
  have begun : resolved.Begun := ⟨sketch.flat, sketch.main⟩
  have agreed_begun := begun.recast (recast_of_revised begun.flat (adoptResolutions_revises adopts))
  have fitted_begun := agreed_begun.recast (recast_fitStageInputs agreed_begun.flat fits)
  exact fitted_begun.recast (recast_of_revised fitted_begun.flat (sizeArrays_revises sizes))

end Merge

/-! ## What a link finishes -/

namespace Linking

/-- Every stage that has units has an executable. -/
def Covers (units : List TranslationUnit) (outcome : Outcome) : Prop :=
  ∀ unit ∈ units, (outcome.executables.get unit.shader.stage).isSome = true

def Positioned (outcome : Outcome) : Prop :=
  ∀ stage, (outcome.blockPositions.get stage).length = outcome.uniformBlocks.length

theorem standing_covers (units : List TranslationUnit) : Standing (Covers units) where
  stored {outcome} stage shader covers unit listed := by
    by_cases here : stage = unit.shader.stage
    · subst here
      rw [PerStage.get_set_same]
      rfl
    · rw [PerStage.get_set_other _ _ here]
      exact covers unit listed
  listed _ _ covers := covers
  layered _ covers := covers
  reported _ covers := covers

/-- Stages that are covered stay so, and uniform blocks have their positions. -/
def Settled (units : List TranslationUnit) (outcome : Outcome) : Prop :=
  Covers units outcome ∧ Positioned outcome

theorem standing_settled (units : List TranslationUnit) : Standing (Settled units) where
  stored stage shader settled := ⟨(standing_covers units).stored stage shader settled.1, settled.2⟩
  listed _ _ settled := settled
  layered _ settled := settled
  reported _ settled := settled

/-- Also, if there are units then every request for a capture has its entry. -/
def Finished (program : Program) (outcome : Outcome) : Prop :=
  Settled program.units outcome ∧
    (program.units ≠ [] → outcome.captured.length = program.feedback.varyings.length)

theorem standing_finished (program : Program) : Standing (Finished program) where
  stored stage shader finished :=
    ⟨(standing_settled program.units).stored stage shader finished.1, finished.2⟩
  listed _ _ finished := finished
  layered _ finished := finished
  reported _ finished := finished

/-- Comparing interfaces gives uniform blocks their positions. -/
theorem settled_linkInterfaces (units : List TranslationUnit) :
    Meets Anyhow (Covers units) linkInterfaces fun _ => Settled units := by
  have standing := standing_covers units
  refine Meets.bind Preserves.get fun _ => Meets.bind (Preserves.settle _) fun resolutions => ?_
  refine Meets.bind (Preserves.updateExecutables standing fun _ => Preserves.lift _) fun _ => ?_
  refine Meets.bind Preserves.get fun _ => Meets.bind (Meets.forM fun _ _ =>
    Preserves.bind (Preserves.settle _) fun _ => Preserves.settle _) fun _ => ?_
  refine Meets.bind Preserves.get fun read => ?_
  let Tables (answer : List UniformBlock × PerStage (List (Option Nat))) (outcome : Outcome) :
    Prop :=
    Covers units outcome ∧ ∀ stage, (answer.2.get stage).length = answer.1.length
  refine Meets.through Tables
    (Meets.accept (fun _ answer covers tables => ⟨covers, ?_⟩) fun _ _ _ => trivial)
    fun answer => Meets.modify fun _ settled => settled
  obtain ⟨table, -, finish⟩ := except_bind_eq_ok.mp tables
  obtain rfl := Except.ok.inj finish
  intro stage
  simp [UniformBlock.positionsIn]

theorem finished_assignLocations (limits : Limits) (program : Program) :
    Meets Anyhow (Settled program.units) (assignLocations limits program) fun _ =>
      Finished program := by
  have standing := standing_settled program.units
  refine Meets.bind (Preserves.updateExecutables standing fun _ => Preserves.lift _) fun _ => ?_
  refine Meets.bind (Preserves.assignAttributes standing _ _ _ _) fun _ => ?_
  refine Meets.bind (Preserves.assignAttributes standing _ _ _ _) fun _ => ?_
  refine Meets.bind Meets.get fun read => ?_
  dsimp only
  split
  · next first last _ _ =>
      refine Meets.weaken ?_ (fun outcome settled => settled.1) fun _ _ finished => finished
      refine Counts.next (Preserves.requestedCaptures _ _) fun _ counted => ?_
      refine Counts.next (Preserves.assignOpenEnd standing _ _ _ _) fun _ counted_here => ?_
      refine Counts.next (Preserves.assignBoundaries standing _ _ _) fun _ counted_there => ?_
      refine Meets.through (fun entries outcome => Settled program.units outcome ∧
        entries.length = program.feedback.varyings.length)
        (Meets.accept (fun outcome entries settled places => ⟨settled, ?_⟩) fun _ _ _ => trivial)
        fun entries => Meets.modify fun outcome holds => ⟨holds.1, fun _ => holds.2⟩
      rw [← (Capture.placeAll_eq_ok places).1.length_eq]
      omega
  · next nothing =>
      refine Meets.pure fun outcome ⟨settled, same⟩ => ⟨settled, fun some_unit => ?_⟩
      obtain ⟨unit, listed⟩ := List.exists_mem_of_ne_nil _ some_unit
      have present : unit.shader.stage ∈ read.presentStages := List.mem_filter.mpr
        ⟨by cases unit.shader.stage <;> decide, same ▸ settled.1 unit listed⟩
      have some_stage := List.ne_nil_of_mem present
      exact absurd (List.getLast?_eq_some_getLast some_stage)
        (nothing _ _ (List.head?_eq_some_head some_stage))

theorem finished_phases (options : Options) (program : Program) :
    Meets Anyhow (Has (.constant none)) (phases options program) fun _ => Finished program := by
  refine Meets.bind checkVersions_meets.anyhow fun _ => Meets.given fun _ => ?_
  have covered : Meets Anyhow (Has (.constant none)) (linkStages options.limits program.units)
      fun _ => Covers program.units := by
    refine entered_linkStages.weaken (fun _ has => has) fun _ outcome entered unit listed => ?_
    obtain ⟨shader, found, -⟩ := entered.covers unit listed (by cases unit.shader.stage <;> decide)
    rw [found]
    rfl
  refine Meets.bind covered fun _ => ?_
  refine Meets.bind (settled_linkInterfaces program.units) fun _ => ?_
  refine Meets.bind (Preserves.optimize (standing_settled program.units)) fun _ => ?_
  refine Meets.bind (finished_assignLocations _ _) fun _ => ?_
  exact Preserves.bind (Preserves.assignUniforms (standing_finished program) _) fun _ =>
    Preserves.checkRequiredStages _

end Linking

namespace Program

open Shader

/-- What a successful link of a program leaves is complete: the stages with an executable are those
with units, the positions of uniform blocks are as many as the blocks for every stage, and unless
there are no units every request for a capture has its entry. -/
structure Completed (program : Program) (outcome : Outcome) : Prop where
  stages : ∀ stage, (outcome.executables.get stage).isSome = true ↔
    ∃ unit ∈ program.units, unit.shader.stage = stage
  positions : ∀ stage, (outcome.blockPositions.get stage).length = outcome.uniformBlocks.length
  captured : program.units ≠ [] → outcome.captured.length = program.feedback.varyings.length

theorem exists_unit_of_executable {options : Options} {program result : Program}
    (runs : program.link options = .ok result) (succeeds : result.linked = true) {stage : Stage}
    {shader : Shader} (found : result.outcome.executables.get stage = some shader) :
    ∃ unit ∈ program.units, unit.shader.stage = stage := by
  let has_units (stage : Stage) (_ : Shader) : Prop := ∃ unit ∈ program.units,
    unit.shader.stage = stage
  have lasting : Linking.Lasting Linking.Failed has_units :=
    ⟨⟨fun _ _ failed => failed, fun has _ => has, fun has => has⟩,
      fun everywhere found _ => everywhere _ _ found⟩
  have merges : ∀ stage version shader, (Merge.link stage version options.limits
      (program.units.filter (·.shader.stage = stage))).Grants shader → has_units stage shader := by
    intro stage version shader grants
    obtain ⟨_, _, main, others, -, -, splits, -⟩ := Merge.link_grants grants
    obtain ⟨unit, listed, -⟩ := List.mem_map.mp (Merge.splitMain?_eq_some splits).1
    obtain ⟨in_units, of_stage⟩ := List.mem_filter.mp listed
    exact ⟨unit, in_units, by simpa using of_stage⟩
  obtain ⟨_, has, -⟩ := link_succeeds (lasting.phases lasting merges
    (Linking.Keeps.optimize lasting.stops fun _ _ has => has)) runs succeeds found
  exact has

/-- An executable of a successful link begins at its `main`, if the units know what theirs is. -/
theorem link_begins {options : Options} {program result : Program}
    (known : ∀ unit ∈ program.units, unit.shader.KnowsMain)
    (runs : program.link options = .ok result) (succeeds : result.linked = true) {stage : Stage}
    {shader : Shader} (found : result.outcome.executables.get stage = some shader) :
    shader.BeginsAtMain := by
  have lasting : Linking.Lasting Linking.Failed fun _ => Begun :=
    ⟨⟨fun _ _ failed => failed, fun begun revised =>
      begun.recast (recast_of_revised begun.flat revised),
      fun begun => begun.run (.removeDeadCode false)⟩,
      fun everywhere found runs => (everywhere _ _ found).recast
        (recast_resizeArrays (everywhere _ _ found).flat runs)⟩
  have merges : ∀ stage version shader, (Merge.link stage version options.limits
      (program.units.filter (·.shader.stage = stage))).Grants shader → shader.Begun :=
    fun _ _ _ grants => Merge.link_begun
      (fun unit listed => known unit (List.mem_filter.mp listed).1) grants
  obtain ⟨_, begun, compacted⟩ := link_succeeds (lasting.phases lasting merges
    (Linking.Keeps.optimize lasting.stops fun _ _ begun => begun.optimizeFully)) runs succeeds found
  exact (begun.compacted compacted).beginsAtMain

/-- No phase ends a link without an error in the log, so a link that ends early does not succeed,
and what a successful one leaves is complete.  Its executables begin at `main` if the units know
what theirs is. -/
theorem link_finishes (options : Options) (program : Program) :
    (∀ phase ∈ Linking.allPhases options program, ∀ start reached,
      phase.run.run start = .ok (.error .halt, reached) → reached.log.hasErrors = true) ∧
    ∀ result, program.link options = .ok result →
      (∀ reached, (Linking.phases options program).run.run {} = .ok (.error .halt, reached) →
        result.outcome.log.hasErrors = true ∧ result.linked = false) ∧
      (result.linked = true → program.Completed result.outcome ∧
        ((∀ unit ∈ program.units, unit.shader.KnowsMain) → ∀ stage shader,
          result.outcome.executables.get stage = some shader → shader.BeginsAtMain)) := by
  refine ⟨fun phase listed start reached halts =>
    Linking.reports_phase listed start _ reached (fun _ _ _ => trivial) halts,
    fun result runs => ⟨fun reached halts => ?_,
      fun succeeds => ⟨?_, fun known stage shader found =>
        link_begins known runs succeeds found⟩⟩⟩
  · have failed : reached.log.hasErrors = true :=
      Linking.reports_phases options program {} _ reached (fun _ _ _ => trivial) halts
    obtain ⟨answer, same_reached, phases_run, -, same, no_errors⟩ := link_eq_ok runs
    obtain ⟨-, rfl⟩ : Except.error .halt = answer ∧ reached = same_reached := by
      simpa using halts.symm.trans phases_run
    refine ⟨by rw [same]; exact failed, ?_⟩
    by_contra succeeds
    exact no_errors (by simpa using succeeds) failed
  · obtain ⟨reached, phases_run, compacted, same⟩ := link_completes runs succeeds
    have finished : Linking.Finished program reached :=
      Linking.finished_phases options program {} (.ok ()) reached rfl phases_run
    obtain ⟨⟨covers, positioned⟩, captured⟩ := finished
    refine ⟨fun stage => ⟨fun present => ?_, ?_⟩, ?_, ?_⟩
    · obtain ⟨shader, found⟩ := Option.isSome_iff_exists.mp present
      exact exists_unit_of_executable runs succeeds found
    · rintro ⟨unit, listed, rfl⟩
      rw [compacted.isSome]
      exact covers unit listed
    · rw [same]
      exact positioned
    · rw [same]
      exact captured

/-- Whether some phase ends the link of a program. -/
def stopsEarly (program : Program) (options : Options) : Bool :=
  match (Linking.phases options program).run.run {} with
  | .ok (.error .halt, _) => true
  | _ => false

theorem exists_of_stopsEarly {program : Program} {options : Options}
    (stops : program.stopsEarly options = true) :
    ∃ reached, (Linking.phases options program).run.run {} = .ok (.error .halt, reached) := by
  unfold stopsEarly at stops
  split at stops
  · next reached halts => exact ⟨reached, halts⟩
  · cases stops

/-- A fragment stage that has no `main`. -/
def headless : Program where
  units := [⟨.ofParts .fragment [.vector "result" .shaderOut] [.ofBody "helper" []], []⟩]

/-- Two varyings of which one is captured. -/
def recorded : Program := { shaded with feedback := { varyings := ["color"] } }

theorem recorded_finishes :
    (∃ result, headless.link {} = .ok result ∧ result.outcome.log.hasErrors = true ∧
      result.linked = false) ∧
    ∃ result shader, recorded.link {} = .ok result ∧ result.linked = true ∧
      result.outcome.executables.get .vertex = some shader ∧ shader.BeginsAtMain ∧
      result.outcome.captured.length = 1 := by
  constructor
  · obtain ⟨reached, halts⟩ :=
      exists_of_stopsEarly (show headless.stopsEarly {} = true by decide +kernel)
    have goes_through : (headless.link {}).isOk = true := by decide +kernel
    obtain ⟨result, runs⟩ : ∃ result, headless.link {} = .ok result := by
      cases runs : headless.link {} with
      | ok result => exact ⟨result, rfl⟩
      | error fault => simp [runs, Except.isOk, Except.toBool] at goes_through
    exact ⟨result, runs, ((link_finishes {} headless).2 result runs).1 reached halts⟩
  · have links : recorded.linksTo {} (fun _ => true) = true := by decide +kernel
    obtain ⟨result, runs, succeeds, -⟩ := exists_of_linksTo links
    obtain ⟨completed, begins⟩ := ((link_finishes {} recorded).2 result runs).2 succeeds
    obtain ⟨shader, found⟩ := Option.isSome_iff_exists.mp
      ((completed.stages .vertex).mpr ⟨_, List.mem_cons_self .., rfl⟩)
    exact ⟨result, shader, runs, succeeds, found, begins (by decide +kernel) _ shader found,
      completed.captured (by decide)⟩

/-- A fragment stage that declares its `main` again before one of the same name that has a body.
Its symbol table has the latter. -/
def eclipsing : Program where
  units := [⟨{
    stage := .fragment
    version := 150
    functions := ⟨[{ name := "main" }, .ofBody "main" []]⟩
    topLevel := [.function 0, .function 1, .function 0]
    symbols := ({} : SymbolTable).addFunction "main" 1 }, []⟩]

/-- Without the condition, a link can succeed whose executable has no `main`. -/
theorem eclipsing_loses_main :
    ∃ result shader, eclipsing.link {} = .ok result ∧ result.linked = true ∧
    result.outcome.executables.get .fragment = some shader ∧ ¬ shader.BeginsAtMain := by
  have links : eclipsing.linksTo {} (fun result => decide (
      ∃ shader ∈ result.outcome.executables.get .fragment, shader.mainSignature? = none)) =
        true := by
    decide +kernel
  obtain ⟨result, runs, succeeds, found⟩ := exists_of_linksTo links
  obtain ⟨shader, here, no_main⟩ := of_decide_eq_true found
  refine ⟨result, shader, runs, succeeds, here, ?_⟩
  rintro ⟨main, -, is_main, -⟩
  rw [no_main] at is_main
  cases is_main

end Program
end StageLink
