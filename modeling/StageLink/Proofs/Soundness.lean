import StageLink.Proofs.ScopedUnits
import StageLink.Proofs.Sheltered

/-!
# Executables without problems

If the units and libraries of a program keep to their scopes, so do the executables that they are
merged into, and no phase of a link changes that.  So however a link ends, the executables that it
leaves have no problems, and nothing in them is left over.  The units that hold `main` must declare
their functions once, and announce no other `main` before the one they define.
-/

namespace StageLink

namespace Shader

/-- Each function is declared once, and no `main` that is only announced comes before the defined
one. -/
def Leading (shader : Shader) : Prop := shader.declaredFunctions.Nodup ∧ shader.MainFirst

instance (shader : Shader) : Decidable shader.Leading :=
  inferInstanceAs (Decidable (_ ∧ _))

end Shader

/-- A unit and its libraries have no problems and keep to their scopes. -/
structure TranslationUnit.WellScoped (unit : TranslationUnit) : Prop where
  shader : unit.shader.WellScoped
  libraries : ∀ library ∈ unit.libraries, library.WellScoped

namespace TranslationUnit

/-- Whether a unit and its libraries have no problems and keep to their scopes, apart from their
symbol tables. -/
def isWellScoped (unit : TranslationUnit) : Bool :=
  unit.shader.isWellScoped && unit.libraries.all Shader.isWellScoped

/-- Rebuild the symbol tables. -/
def populate (unit : TranslationUnit) : TranslationUnit where
  shader := unit.shader.populateSymbols
  libraries := unit.libraries.map Shader.populateSymbols

theorem wellScoped_populate {unit : TranslationUnit} (check : unit.populate.isWellScoped = true) :
    unit.populate.WellScoped := by
  obtain ⟨shader, libraries⟩ := Bool.and_eq_true_iff.mp check
  refine ⟨Shader.wellScoped_of_check shader (Shader.populated_populateSymbols _),
    fun library listed => ?_⟩
  have checked := List.all_eq_true.mp libraries library listed
  obtain ⟨bare, -, rfl⟩ := List.mem_map.mp listed
  exact Shader.wellScoped_of_check checked (Shader.populated_populateSymbols bare)

end TranslationUnit

/-! ## Merging -/

namespace Merge

open Shader

variable {shader fitted linked : Shader} {entry : Callee} {body : Block} {shared : List VariableId}

/-- An executable with scopes is sheltered if it begins with a body that declares what is shared. -/
theorem sheltered_of_opens (contained : shader.SelfContained) (lexical : shader.Lexical [] shared)
    (opens : Opens shader entry body) (declares : shared ⊆ body.declared) : shader.Sheltered := by
  obtain ⟨signature, there, -, alike⟩ := opens.begins
  obtain ⟨main, has⟩ := contained.main
  have same : main.function = entry.function := Option.some.inj (has.bound.symm.trans opens.bound)
  have has_entry : shader.HasMain entry := ⟨opens.bound, same ▸ has.last, opens.findsEntry⟩
  refine ⟨contained, entry, signature, has_entry, there, lexical.mono ?_⟩
  rw [declared_of_unchanged alike]
  exact declares

theorem fitStageInputs_sheltered {stage : Stage} {misfits : List LinkError}
    (sheltered : shader.Sheltered) (runs : fitStageInputs stage shader = .ok (fitted, misfits)) :
    fitted.Sheltered := by
  obtain rfl | ⟨_, sized, fits, retypes⟩ := fitStageInputs_cases runs
  · exact sheltered
  · exact (sheltered.revised (fitInputs_revises fits)).retypeElements retypes

/-- The executable of a stage is sheltered if its units keep to their scopes. -/
theorem link_sheltered {stage : Stage} {version : Nat} {limits : Limits}
    {units : List TranslationUnit} (proper : ∀ unit ∈ units, unit.WellScoped)
    (leading : ∀ pair ∈ splitMain? (units.map (·.shader)), pair.1.Leading)
    (grants : (link stage version limits units).Grants linked) : linked.Sheltered := by
  obtain ⟨resolutions, blocks, main, others, -, -, splits, assembles⟩ := link_grants grants
  obtain ⟨main_listed, others_listed, has_main⟩ := splitMain?_eq_some splits
  obtain ⟨merged, resolved, agreed, fitted, misfits, moves, resolves, adopts, fits, sizes, -⟩ :=
    assemble_grants assembles
  have libraries : ∀ library ∈ units.map (·.shader) ++ units.flatMap (·.libraries),
      library.WellScoped := by
    refine forall_library fun unit in_units shader listed => ?_
    rcases List.mem_cons.mp listed with rfl | is_library
    · exact (proper unit in_units).shader
    · exact (proper unit in_units).libraries shader is_library
  have shaders : ∀ shader ∈ units.map (·.shader), shader.WellScoped :=
    fun shader listed => libraries shader (List.mem_append_left _ listed)
  obtain ⟨entry, is_entry⟩ := Option.isSome_iff_exists.mp has_main
  let layout := (geometryLayout stage version (units.map (·.shader))).1
  let basis : Shader := { main with uniformBlocks := blocks, geometry := layout }
  have basis_entry : basis.mainSignature? = some entry := is_entry
  have basis_proper : basis.WellScoped := (shaders main main_listed).adorn blocks layout
  obtain ⟨functions, main_first⟩ : basis.Leading := leading _ splits
  have draft : merged.Draft := by
    refine moveStatements_draft ?_ basis_proper.declaresCalls basis_proper.knowsMain moves
    rw [basis_entry]
    rfl
  obtain ⟨coherent, lexical, body, opens, declares⟩ := moveStatements_lexical basis_entry main_first
    basis_proper functions (fun unit listed => shaders unit (others_listed listed)) moves
  obtain ⟨-, -, resolved_opens⟩ := resolveCalls_opens coherent draft.flat opens resolves
  have resolved_sheltered : resolved.Sheltered :=
    sheltered_of_opens (resolveCalls_selfContained draft resolves)
      (Resolution.resolveCalls_lexical coherent lexical libraries resolves) resolved_opens declares
  have agreed_sheltered := resolved_sheltered.revised (adoptResolutions_revises adopts)
  exact (fitStageInputs_sheltered agreed_sheltered fits).revised (sizeArrays_revises sizes)

end Merge

/-! ## Linking -/

namespace Linking

theorem lasting_sheltered :
    Lasting (Everywhere fun _ => Shader.Sheltered) fun _ => Shader.Sheltered where
  stops _ everywhere _ := everywhere
  revised sheltered revised := sheltered.revised revised
  cleaned sheltered := sheltered.run (.removeDeadCode false)
  resized everywhere found runs := by
    obtain ⟨changed, resized, -, retypes⟩ := Shader.resizeArrays_eq_ok runs
    have changed_sheltered := (everywhere _ _ found).revised resized
    rcases retypes with rfl | retypes
    · exact changed_sheltered
    · exact changed_sheltered.retypeElements retypes

end Linking

namespace Program

open Shader

/-- The unit of every stage that holds `main` leads. -/
def MainsLead (program : Program) : Prop :=
  ∀ stage, ∀ pair ∈ Merge.splitMain?
    ((program.units.filter (·.shader.stage = stage)).map (·.shader)), pair.1.Leading

/-- However a link ends, the executables that it leaves have no problems and nothing in them is left
over, if the units and their libraries keep to their scopes and the units that hold `main` lead. -/
theorem link_leaves_sound {options : Options} {program result : Program}
    (proper : ∀ unit ∈ program.units, unit.WellScoped) (lead : program.MainsLead)
    (runs : program.link options = .ok result) {stage : Stage} {shader : Shader}
    (found : result.outcome.executables.get stage = some shader) :
    shader.problems = [] ∧ shader.Compact := by
  have merges : ∀ stage version shader, (Merge.link stage version options.limits
      (program.units.filter (·.shader.stage = stage))).Grants shader → shader.Sheltered :=
    fun stage _ _ grants => Merge.link_sheltered
      (fun unit listed => proper unit (List.mem_filter.mp listed).1) (lead stage) grants
  have lasting := Linking.lasting_sheltered
  have optimizes := @Linking.Keeps.optimize _ (fun _ => Sheltered) lasting.stops
    fun _ _ => Sheltered.optimizeFully
  obtain ⟨before, sheltered, compacted⟩ :=
    link_keeps (lasting.phases lasting merges optimizes) runs found
  exact ⟨problems_eq_nil.mpr (sheltered.noProblems.compacted sheltered.contained compacted),
    compacted.compact sheltered.contained⟩

/-- A program whose symbol tables have just been rebuilt. -/
def populated (units : List TranslationUnit) : Program where
  units := units.map TranslationUnit.populate

theorem wellScoped_populated {units : List TranslationUnit}
    (checks : ∀ unit ∈ (populated units).units, unit.isWellScoped = true) :
    ∀ unit ∈ (populated units).units, unit.WellScoped := by
  intro unit listed
  have checked := checks unit listed
  obtain ⟨bare, -, rfl⟩ := List.mem_map.mp listed
  exact TranslationUnit.wellScoped_populate checked

/-- The first unit does something before `main` with a variable of its own, and so does the second,
whose `main` and whose `dim` share it.  What the library does has a local variable, too. -/
def lodged : Program :=
  populated [
    ⟨{ ofParts .fragment [.vector "tint" .plain, .vector "last" .temporary] [] with
      topLevel := [.declare 0, .declare 1, .copy 1 0, .copy 0 1] }, []⟩,
    ⟨{ ofParts .fragment [.vector "shade" .shaderOut, .vector "tint" .plain,
          .vector "last" .temporary, .vector "own" .temporary]
        [.ofBody "main" [.declare 3, .copy 3 2, .call ⟨1, 0⟩ [] none,
          .call ⟨2, 0⟩ [] none, .copy 0 3],
          .ofBody "dim" [.copy 1 2], { name := "helper", signatures := [.announce .void []] }] with
      topLevel := [.declare 0, .declare 1, .declare 2, .copy 2 1, .function 0, .function 1,
        .function 2] },
      [{ ofParts .fragment [.vector "tint" .plain, .vector "own" .temporary]
          [.ofBody "helper" [.declare 1, .copy 1 0, .copy 0 1]] with
        topLevel := [.declare 0, .function 0] }]⟩]

theorem lodged_leaves_sound : (∀ unit ∈ lodged.units, unit.WellScoped) ∧ lodged.MainsLead ∧
    ∃ result shader, lodged.link {} = .ok result ∧ result.linked = true ∧
      result.outcome.executables.get .fragment = some shader ∧
      shader.vars.entries.map (·.name) = ["shade", "tint", "last", "own", "last", "own"] ∧
      shader.problems = [] ∧ shader.Compact := by
  have proper : ∀ unit ∈ lodged.units, unit.WellScoped := wellScoped_populated (by decide +kernel)
  have lead : lodged.MainsLead := by
    intro stage
    cases stage <;> decide +kernel
  have links : lodged.linksTo {} (fun result => decide (
      (result.outcome.executables.get .fragment).map (fun shader =>
        shader.vars.entries.map (·.name)) = some ["shade", "tint", "last", "own", "last", "own"])) =
      true := by decide +kernel
  obtain ⟨result, runs, succeeds, found⟩ := exists_of_linksTo links
  obtain ⟨shader, here, names⟩ := Option.map_eq_some_iff.mp (of_decide_eq_true found)
  exact ⟨proper, lead, result, shader, runs, succeeds, here, names,
    link_leaves_sound proper lead runs here⟩

/-- The units and libraries of a program keep to their scopes and their globals have different
names, and still a link that succeeds leaves an executable with problems. -/
def BecomesUnsound (program : Program) : Prop :=
  (∀ unit ∈ program.units, unit.WellScoped ∧ ∀ shader ∈ unit.shader :: unit.libraries,
    (shader.declaredVariables.map (·.name)).Nodup) ∧
  ∃ result, program.link {} = .ok result ∧ result.linked = true ∧
    ∃ shader ∈ result.outcome.present, shader.problems ≠ []

theorem becomesUnsound_of_checks {units : List TranslationUnit}
    (checks : ∀ unit ∈ (populated units).units, unit.isWellScoped = true)
    (distinct : ∀ unit ∈ (populated units).units, ∀ shader ∈ unit.shader :: unit.libraries,
      (shader.declaredVariables.map (·.name)).Nodup)
    (unsound : (populated units).linksTo {} (fun result => decide (
      ∃ shader ∈ result.outcome.present, shader.problems ≠ [])) = true) :
    (populated units).BecomesUnsound := by
  have proper := wellScoped_populated checks
  refine ⟨fun unit listed => ⟨proper unit listed, distinct unit listed⟩, ?_⟩
  obtain ⟨result, runs, succeeds, found⟩ := exists_of_linksTo unsound
  exact ⟨result, runs, succeeds, of_decide_eq_true found⟩

/-- A unit that declares `main` twice. -/
def repeating : Program :=
  populated [
    ⟨{ ofParts .fragment [.vector "shade" .shaderOut, .vector "tint" .plain,
      .vector "last" .temporary]
        [.ofBody "main" [.copy 0 2]] with
      topLevel := [.declare 0, .declare 1, .declare 2, .copy 2 1, .function 0, .function 0] }, []⟩]

/-- A unit that announces `main` before it defines it, and calls what it has announced.  A library
defines `main` too, and calls a function of the unit. -/
def eclipsed : Program :=
  populated [
    ⟨{ ofParts .fragment [.vector "shade" .shaderOut, .vector "tint" .plain,
      .vector "last" .temporary]
        [{ name := "main"
           signatures := [.announce .void [], .define .void [] [.call ⟨0, 0⟩ [] none]] },
          .ofBody "helper" [.copy 0 2]] with
      topLevel := [.declare 0, .declare 1, .declare 2, .copy 2 1, .function 0, .function 1] },
      [.ofParts .fragment [] [.ofBody "main" [.call ⟨1, 0⟩ [] none],
        { name := "helper", signatures := [.announce .void []] }]]⟩]

/-- It is not enough that units and libraries keep to their scopes: what `main` declares may be
declared twice in the executable, or may not be declared there at all. -/
theorem repeating_and_eclipsed_become_unsound :
    repeating.BecomesUnsound ∧ eclipsed.BecomesUnsound := by
  constructor
  · exact becomesUnsound_of_checks (by decide +kernel) (by decide +kernel) (by decide +kernel)
  · exact becomesUnsound_of_checks (by decide +kernel) (by decide +kernel) (by decide +kernel)

end Program
end StageLink
