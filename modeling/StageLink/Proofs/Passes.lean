import StageLink.Optimize.Pass
import StageLink.Proofs.Globals

/-!
# What passes leave of the top level

Passes remove instructions and leave the arena of variables alone.  On a shader with nothing but
declarations at its top level they can only drop some of these, so what is declared afterwards was
declared before.
-/

namespace StageLink

/-! ## Lists of declarations -/

namespace Block

theorem Flat.sublist {block rest : Block} (flat : block.Flat) (shorter : rest.Sublist block) :
    rest.Flat :=
  fun instruction listed => flat instruction (shorter.subset listed)

theorem mapInnerBlocks_flat (change : Block → Block) {block : Block} (flat : block.Flat) :
    Id.run (Block.mapInnerBlocks (fun inner => pure (change inner)) block) = block := by
  induction flat using Flat.induction with
  | nil => rfl
  | declare id rest _ _ later | function id rest _ _ later =>
      simpa [Block.mapInnerBlocks, Instruction.mapInnerBlocks] using later

/-- A list of declarations has no inner blocks. -/
theorem updateBlocks_flat (change : Block → Block) {block : Block} (flat : block.Flat) :
    Block.updateBlocks change block = change block := by
  simpa [Block.updateBlocks, Block.mapBlocks] using
    congrArg change (mapInnerBlocks_flat change flat)

theorem updateInstructions_flat (change : Instruction → Instruction) {block : Block}
    (flat : block.Flat) : Block.updateInstructions change block = block.map change := by
  unfold Block.updateInstructions
  induction flat using Flat.induction with
  | nil => rfl
  | declare id rest _ _ later | function id rest _ _ later =>
      simpa [Block.mapInstructions, Instruction.mapInstructions] using later

theorem updateInstructions_flat_self {change : Instruction → Instruction} {block : Block}
    (flat : block.Flat)
    (leaves : ∀ instruction : Instruction, instruction.isDeclaration = true →
      change instruction = instruction) :
    Block.updateInstructions change block = block := by
  rw [updateInstructions_flat change flat]
  exact (List.map_congr_left fun instruction listed => leaves _ (flat _ listed)).trans
    (List.map_id' block)

theorem resolve_flat {block : Block} (flat : block.Flat) : Block.resolve block = block := by
  induction flat using Flat.induction with
  | nil => rfl
  | declare id rest _ _ later | function id rest _ _ later =>
      rw [Block.resolve] at later ⊢
      rw [List.flatMap_cons, later]
      rfl

theorem fold_flat {block : Block} (flat : block.Flat) : Block.fold block = block := by
  have same : Block.updateInstructions Instruction.fold block = block :=
    updateInstructions_flat_self flat fun instruction declares => by
      cases instruction <;> simp_all [Instruction.isDeclaration, Instruction.fold]
  rw [Block.fold, same, updateBlocks_flat Block.resolve flat, resolve_flat flat]

end Block

namespace Shader

/-! ## Thinning -/

/-- The second shader has the variables of the first and part of its top level. -/
structure Thinned (before after : Shader) : Prop where
  stage : after.stage = before.stage
  vars : after.vars = before.vars
  topLevel : after.topLevel.Sublist before.topLevel

namespace Thinned

variable {first second third : Shader}

theorem refl (shader : Shader) : Thinned shader shader := ⟨rfl, rfl, List.Sublist.refl _⟩

theorem trans (before : Thinned first second) (after : Thinned second third) :
    Thinned first third :=
  ⟨after.stage.trans before.stage, after.vars.trans before.vars,
    after.topLevel.trans before.topLevel⟩

theorem flat (thinned : Thinned first second) (first_flat : first.topLevel.Flat) :
    second.topLevel.Flat :=
  first_flat.sublist thinned.topLevel

theorem globals (thinned : Thinned first second) : second.globals.Sublist first.globals :=
  thinned.topLevel.filterMap _

theorem declaredVariables (thinned : Thinned first second) :
    second.declaredVariables.Sublist first.declaredVariables := by
  unfold Shader.declaredVariables
  rw [thinned.vars]
  exact thinned.globals.filterMap _

theorem tidy (thinned : Thinned first second) (first_tidy : first.Tidy) : second.Tidy where
  flat := thinned.flat first_tidy.flat
  bound id listed := thinned.vars ▸ first_tidy.bound id (thinned.globals.subset listed)
  distinct := (thinned.declaredVariables.map _).nodup first_tidy.distinct

theorem generics (thinned : Thinned first second) (mode : VariableMode) :
    second.generics mode ⊆ first.generics mode :=
  (thinned.declaredVariables.filter _).subset

end Thinned

/-! ## Passes -/

variable {shader : Shader}

theorem thinned_foldConstants (flat : shader.topLevel.Flat) :
    Thinned shader shader.foldConstants := by
  refine ⟨rfl, rfl, ?_⟩
  rw [foldConstants, updateBodies]
  simp only [Block.fold_flat flat]
  exact List.Sublist.refl _

theorem thinned_removeDeadCode (keepUniforms : Bool) (flat : shader.topLevel.Flat) :
    Thinned shader (shader.removeDeadCode keepUniforms) := by
  refine ⟨rfl, rfl, ?_⟩
  simp only [removeDeadCode, updateBodies, Block.updateBlocks_flat _ flat]
  exact List.filter_sublist

theorem thinned_removeDeadFunctions (flat : shader.topLevel.Flat) :
    Thinned shader shader.removeDeadFunctions := by
  refine ⟨rfl, rfl, ?_⟩
  have kept : (shader.topLevel.filter
      (keepsFunction (shader.emptiedFunctions shader.liveCallees))).Sublist shader.topLevel :=
    List.filter_sublist
  simp only [removeDeadFunctions, updateBodies]
  rw [Block.updateInstructions_flat_self (flat.sublist kept) fun instruction declares => by
    cases instruction <;> simp_all [Instruction.isDeclaration, moveCall]]
  exact kept

/-- A pass drops at most some declarations from the top level. -/
theorem thinned_run (pass : Pass) (flat : shader.topLevel.Flat) :
    Thinned shader (pass.run shader) := by
  cases pass with
  | foldConstants => exact thinned_foldConstants flat
  | removeDeadCode keepUniforms => exact thinned_removeDeadCode keepUniforms flat
  | removeDeadFunctions => exact thinned_removeDeadFunctions flat
  | inspect => exact .refl shader

/-! ## Repetition -/

/-- What every simplification keeps is kept by simplifying for as long as possible. -/
theorem exhaust_keeps {simplify : Shader → Shader} {keeps : Shader → Prop}
    (step : ∀ shader, keeps shader → keeps (simplify shader)) :
    ∀ shader, keeps shader → keeps (shader.exhaust simplify) := by
  intro shader holds
  induction shader using exhaust.induct simplify with
  | case1 shader lighter ih =>
      rw [exhaust, if_pos lighter]
      exact ih (step shader holds)
  | case2 shader finished =>
      rw [exhaust, if_neg finished]
      exact step shader holds

theorem optimize_keeps {keeps : Shader → Prop} {level : OptimizationLevel}
    (step : ∀ pass ∈ level.passes, ∀ shader, keeps shader → keeps (pass.run shader)) :
    ∀ shader, keeps shader → keeps (shader.optimize level) := by
  have run : ∀ passes : List Pass,
      (∀ pass ∈ passes, ∀ shader, keeps shader → keeps (pass.run shader)) →
      ∀ shader, keeps shader → keeps (shader.runPasses passes) := by
    intro passes
    induction passes with
    | nil => exact fun _ shader holds => holds
    | cons pass passes ih =>
        intro all shader holds
        exact ih (fun other listed => all other (List.mem_cons_of_mem pass listed)) _
          (all pass (List.mem_cons_self ..) shader holds)
  have rounds : ∀ count shader, keeps shader →
      keeps (shader.optimizeRounds level.passes count) := by
    intro count
    induction count with
    | zero => exact fun shader holds => holds
    | succ count ih =>
        intro shader holds
        have simplified := run level.passes step shader holds
        simp only [optimizeRounds]
        split
        · exact ih _ simplified
        · exact simplified
  exact rounds 10

theorem thinned_removeAllDeadCode (flat : shader.topLevel.Flat) :
    Thinned shader shader.removeAllDeadCode :=
  exhaust_keeps
    (fun _ thinned => Thinned.trans thinned (thinned_removeDeadCode false (thinned.flat flat)))
    shader (Thinned.refl shader)

theorem thinned_optimizeFully (flat : shader.topLevel.Flat) :
    Thinned shader shader.optimizeFully :=
  exhaust_keeps
    (fun _ thinned => optimize_keeps
      (fun pass _ _ so_far => Thinned.trans so_far (thinned_run pass (so_far.flat flat))) _ thinned)
    shader (Thinned.refl shader)

end Shader
end StageLink
