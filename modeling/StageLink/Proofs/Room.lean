import StageLink.Proofs.Members
import StageLink.Proofs.Slots
import StageLink.Proofs.Standing

/-!
# Room for the members of blocks

Through all phases of a link the variables of uniform blocks stay filed, and the table of blocks
keeps what the units declare.  So when a link succeeds, the table has room for every member that an
executable still has, if no array was left to be sized.
-/

namespace StageLink

/-- All variables of the shader are filed. -/
def Shader.Filed (units : List Shader) (shader : Shader) : Prop :=
  ∀ declared ∈ shader.vars.entries, declared.Filed units

namespace Shader

variable {units : List Shader} {before after : Shader}

/-- What every revision of a variable keeps holds of all variables afterwards. -/
theorem Revised.all {holds : Variable → Prop}
    (revised : Revised (fun one other => holds one → holds other) before after)
    (all : ∀ declared ∈ before.vars.entries, holds declared) :
    ∀ declared ∈ after.vars.entries, holds declared := by
  intro declared listed
  obtain ⟨id, now⟩ := Arena.exists_get?_of_mem listed
  obtain ⟨origin, was, keeps⟩ := revised.origin now
  exact keeps (all origin (Arena.mem_of_get? was))

theorem Filed.of_vars (filed : before.Filed units) (same : after.vars = before.vars) :
    after.Filed units := by
  unfold Filed
  rw [same]
  exact filed

/-- Retyping changes only bodies. -/
theorem retypeElements_bodies {shader result : Shader}
    (runs : ArraySize.retypeElements shader = .ok result) :
    result = { shader with topLevel := result.topLevel, functions := result.functions } :=
  (mapBodies_eq_ok runs).1

theorem Filed.resizeArrays {highest : String → Nat} (filed : before.Filed units)
    (runs : Uniform.resizeArrays highest before = .ok after) : after.Filed units := by
  obtain ⟨changed, resized, -, retypes⟩ := resizeArrays_eq_ok runs
  have filed_changed : changed.Filed units := by
    refine Revised.all (resized.imp fun one other related filed => ?_) filed
    rcases related with rfl | ⟨resizable, rfl⟩
    · exact filed
    · simp only [Uniform.isResizable, Bool.and_eq_true, Bool.not_eq_true'] at resizable
      intro in_block
      have was_in_block : one.isInUniformBlock = true := in_block
      rw [resizable.1.2] at was_in_block
      cases was_in_block
  rcases retypes with rfl | retypes
  · exact filed_changed
  · exact filed_changed.of_vars (by rw [retypeElements_bodies retypes])

theorem Filed.run (filed : before.Filed units) (pass : Pass) : (pass.run before).Filed units := by
  cases pass <;> exact filed.of_vars rfl

theorem Filed.optimizeFully (filed : before.Filed units) : before.optimizeFully.Filed units := by
  have run : ∀ pass shader, Filed units shader → Filed units (Pass.run pass shader) :=
    fun pass _ filed => filed.run pass
  exact exhaust_keeps (fun shader => optimize_keeps (fun pass _ => run pass) shader) before filed

theorem Filed.compacted (filed : before.Filed units) (compacted : Compacted before after) :
    after.Filed units := by
  intro declared listed
  obtain ⟨id, now⟩ := Arena.exists_get?_of_mem listed
  rw [compacted.vars] at now
  obtain ⟨_, was, -⟩ := Arena.compact_origin now
  exact filed declared (Arena.mem_of_get? was)

end Shader

/-! ## Merging -/

namespace Merge

variable {stage : Stage} {holds : Variable → Prop} {blocks : List UniformBlock}

/-- What holds of a shader that takes its variables from some sources and its blocks from a
table. -/
structure Sourced (holds : Variable → Prop) (blocks : List UniformBlock)
    (shader : Shader) : Prop where
  coherent : shader.Coherent
  uniformBlocks : shader.uniformBlocks = blocks
  all : ∀ declared ∈ shader.vars.entries, holds declared

theorem Sourced.carried {sources : List Shader}
    (from_sources : ∀ source ∈ sources, ∀ declared ∈ source.vars.entries, holds declared) :
    Carried sources (Sourced holds blocks) where
  coherent sourced := sourced.coherent
  grows listed sourced grows :=
    ⟨grows.coherent sourced.coherent, grows.uniformBlocks.trans sourced.uniformBlocks,
      grows.all_vars (from_sources _ listed) sourced.all⟩
  modifySignature callee change sourced :=
    ⟨coherent_modifySignature sourced.coherent callee change, sourced.uniformBlocks, sourced.all⟩

/-- Fitting inputs changes variables, and the types recorded on element places. -/
theorem fitStageInputs_revised {relation : Variable → Variable → Prop} {shader fitted : Shader}
    {misfits : List LinkError} (reflexive : ∀ declared, relation declared declared)
    (transitive : ∀ one other last, relation one other → relation other last → relation one last)
    (fits : ∀ vertices declared fitted, ArraySize.fitInput vertices declared = .ok fitted →
      relation declared fitted)
    (runs : fitStageInputs stage shader = .ok (fitted, misfits)) :
    ∃ changed, Shader.Revised relation shader changed ∧
      fitted = { changed with topLevel := fitted.topLevel, functions := fitted.functions } := by
  obtain rfl | ⟨_, changed, fits_all, retypes⟩ := fitStageInputs_cases runs
  · exact ⟨_, .refl reflexive _, rfl⟩
  · exact ⟨changed, fitInputs_revised reflexive transitive (fits _) fits_all,
      Shader.retypeElements_bodies retypes⟩

/-- What holds of the variables of units and libraries, and is kept by adopting, fitting and sizing,
holds of those of the executable merged from them; its blocks are the table of those of the
units. -/
theorem link_all {version : Nat} {limits : Limits} {units : List TranslationUnit} {result : Shader}
    (adopts : ∀ one other : Variable, one.KeepsExtent other → holds one → holds other)
    (fits : ∀ vertices declared fitted, ArraySize.fitInput vertices declared = .ok fitted →
      holds declared → holds fitted)
    (sizes : ∀ shader result, ArraySize.sizeArrays shader = .ok result →
      Shader.Revised (fun one other => holds one → holds other) shader result)
    (each : ∀ unit ∈ units, ∀ shader ∈ unit.shader :: unit.libraries,
      ∀ declared ∈ shader.vars.entries, holds declared)
    (grants : (link stage version limits units).Grants result) :
    (∀ declared ∈ result.vars.entries, holds declared) ∧
      UniformBlock.ofUnits limits.uniformBlockSize (units.map (·.shader)) =
        .ok result.uniformBlocks := by
  obtain ⟨resolutions, blocks, main, others, -, tables, splits, assembles⟩ := link_grants grants
  obtain ⟨main_listed, others_listed, has_main⟩ := splitMain?_eq_some splits
  obtain ⟨merged, resolved, agreed, fitted, misfits, moves, resolves, adopting,
    fitting, sizing, -⟩ :=
    assemble_grants assembles
  have from_libraries : ∀ library ∈ units.map (·.shader) ++ units.flatMap (·.libraries),
      ∀ declared ∈ library.vars.entries, holds declared := forall_library each
  have carried : Carried _ (Sourced holds blocks) := Sourced.carried from_libraries
  have sourced : Sourced holds blocks merged := by
    let basis : Shader := { main with
      uniformBlocks := blocks
      geometry := (geometryLayout stage version (units.map (·.shader))).1 }
    refine carried.extended.moveStatements
      (fun other listed => List.mem_append_left _ (others_listed listed))
      (show basis.mainSignature?.isSome = true from has_main) (fun bound => ?_) moves
    exact ⟨Shader.populateSymbols_coherent (bound_declarations bound), rfl,
      from_libraries main (List.mem_append_left _ main_listed)⟩
  have resolved_sourced := carried.extended.resolveCalls sourced resolves
  have agreed_revised := (Shader.adoptResolutions_revised .refl .trans
    (fun declared resolved _ => Variable.KeepsExtent.adopt resolved declared) adopting).imp adopts
  obtain ⟨changed, fitted_revised, same⟩ :=
    @fitStageInputs_revised stage (fun one other => holds one → holds other) agreed fitted misfits
      (fun _ held => held) (fun _ _ _ first second held => second (first held)) fits fitting
  have sized_revised := sizes fitted result sizing
  refine ⟨sized_revised.all ?_, ?_⟩
  · rw [same]
    exact fitted_revised.all (agreed_revised.all resolved_sourced.all)
  · have same_blocks : result.uniformBlocks = blocks := by
      rw [sized_revised.same, same, fitted_revised.same, agreed_revised.same]
      exact resolved_sourced.uniformBlocks
    rw [same_blocks]
    exact tables

/-- The variables of a merged executable are filed like those that it is merged from. -/
theorem link_filed {files : List Shader} {version : Nat} {limits : Limits}
    {units : List TranslationUnit} {result : Shader}
    (each : ∀ unit ∈ units, ∀ shader ∈ unit.shader :: unit.libraries, shader.Filed files)
    (grants : (link stage version limits units).Grants result) : result.Filed files :=
  (link_all (fun _ _ keeps filed => Variable.Filed.keepsExtent filed keeps)
    (fun _ _ _ => ArraySize.fitInput_filed) (fun _ _ => ArraySize.sizeArrays_filed) each grants).1

/-- The blocks of a merged executable are the table of those of its units. -/
theorem link_uniformBlocks {version : Nat} {limits : Limits} {units : List TranslationUnit}
    {result : Shader} (grants : (link stage version limits units).Grants result) :
    UniformBlock.ofUnits limits.uniformBlockSize (units.map (·.shader)) =
      .ok result.uniformBlocks :=
  (@link_all _ (fun _ => True) _ _ _ _ (fun _ _ _ _ => trivial) (fun _ _ _ _ _ => trivial)
    (fun _ _ runs => (sizeArrays_revises runs).imp fun _ _ _ _ => trivial)
    (fun _ _ _ _ _ _ => trivial) grants).2

end Merge

/-! ## Filing through a link -/

namespace Linking

theorem lasting_filed (units : List Shader) : Lasting Failed fun _ => Shader.Filed units where
  stops _ _ failed := failed
  revised filed revised := Shader.Revised.all
    (revised.imp fun _ _ keeps (filed : Variable.Filed units _) => filed.keepsExtent keeps) filed
  cleaned filed := filed.of_vars rfl
  resized everywhere found runs := (everywhere _ _ found).resizeArrays runs

end Linking

namespace Program

theorem link_files {options : Options} {program result : Program} {files : List Shader}
    (each : ∀ unit ∈ program.units, ∀ shader ∈ unit.shader :: unit.libraries, shader.Filed files)
    (runs : program.link options = .ok result) (succeeds : result.linked = true)
    {stage : Stage} {shader : Shader} (found : result.outcome.executables.get stage = some shader) :
    shader.Filed files := by
  have lasting := Linking.lasting_filed files
  have optimizes := Linking.Keeps.optimize lasting.stops
    fun _ _ (filed : Shader.Filed files _) => filed.optimizeFully
  obtain ⟨before, filed, compacted⟩ := link_succeeds (lasting.phases lasting
    (fun _ _ _ grants => (Merge.link_filed
      (fun unit listed => each unit (List.mem_filter.mp listed).1) grants)) optimizes)
      runs succeeds found
  exact filed.compacted compacted

end Program

/-! ## Phases that leave the table alone -/

namespace Linking

variable {Result : Type} {table : List UniformBlock}

def HasTable (table : List UniformBlock) (outcome : Outcome) : Prop := outcome.uniformBlocks = table

abbrev Spares (table : List UniformBlock) (phase : Linking Result) : Prop :=
  Meets Anyhow (HasTable table) phase fun _ => HasTable table

theorem standing_hasTable : Standing (HasTable table) :=
  ⟨fun _ _ has => has, fun _ _ has => has, fun _ has => has, fun _ has => has⟩

namespace Spares

/-- What holds of the table before a phase that leaves it alone holds afterwards. -/
theorem keeps {phase : Linking Result} {holds : List UniformBlock → Prop}
    (spares : ∀ table, Spares table phase) :
    Meets Anyhow (fun outcome => holds outcome.uniformBlocks) phase
      fun _ outcome => holds outcome.uniformBlocks := by
  intro start answer reached held runs
  have spared := spares start.uniformBlocks start answer reached rfl runs
  cases answer with
  | ok _ =>
      have same : reached.uniformBlocks = start.uniformBlocks := spared
      change holds reached.uniformBlocks
      rwa [same]
  | error _ => trivial

end Spares

/-! ## The table of a link -/

/-- The executables of the stages done have blocks that are laid out and declare what those of their
units do. -/
structure Entered (units : List TranslationUnit) (done : List Stage) (executables : Executables) :
    Prop where
  covers : ∀ unit ∈ units, unit.shader.stage ∈ done → ∃ shader,
    executables.get unit.shader.stage = some shader ∧
      UniformBlock.Covered unit.shader.uniformBlocks shader.uniformBlocks
  laid_out : ∀ stage shader, executables.get stage = some shader →
    ∀ block ∈ shader.uniformBlocks, block.LaidOut

/-- The table declares what the blocks of the units do, and its blocks are laid out. -/
structure Tabled (units : List TranslationUnit) (table : List UniformBlock) : Prop where
  covers : ∀ unit ∈ units, UniformBlock.Covered unit.shader.uniformBlocks table
  laid_out : ∀ block ∈ table, block.LaidOut

theorem Entered.store {units : List TranslationUnit} {done : List Stage} {executables : Executables}
    {stage : Stage} {shader : Shader} {limit : Nat} (entered : Entered units done executables)
    (tables : UniformBlock.ofUnits limit
      ((units.filter (·.shader.stage = stage)).map (·.shader)) = .ok shader.uniformBlocks) :
    Entered units (stage :: done) (executables.set stage (some shader)) := by
  obtain ⟨covers, laid_out⟩ := UniformBlock.ofUnits_eq_ok tables
  refine ⟨fun unit listed in_done => ?_, fun other found now => ?_⟩
  · by_cases here : stage = unit.shader.stage
    · subst here
      refine ⟨shader, PerStage.get_set_same .., covers _ (List.mem_map_of_mem ?_)⟩
      exact List.mem_filter.mpr ⟨listed, by simp⟩
    · rw [PerStage.get_set_other _ _ here]
      exact entered.covers unit listed ((List.mem_cons.mp in_done).resolve_left (Ne.symm here))
  · by_cases here : stage = other
    · subst here
      rw [PerStage.get_set_same] at now
      exact Option.some.inj now ▸ laid_out
    · rw [PerStage.get_set_other _ _ here] at now
      exact entered.laid_out other found now

theorem entered_linkStage {limits : Limits} {units : List TranslationUnit} {done : List Stage}
    {stage : Stage} : Meets Anyhow (fun outcome => Entered units done outcome.executables)
      (linkStage limits units stage)
      fun _ outcome => Entered units (stage :: done) outcome.executables := by
  unfold linkStage
  dsimp only
  split
  · next none_there =>
      refine Meets.pure fun outcome entered => ⟨fun unit listed in_done => ?_, entered.laid_out⟩
      rcases List.mem_cons.mp in_done with here | before
      · have filtered : unit ∈ units.filter (·.shader.stage = stage) :=
          List.mem_filter.mpr ⟨listed, by simpa using here⟩
        simp only [List.isEmpty_iff.mp none_there, List.not_mem_nil] at filtered
      · exact entered.covers unit listed before
  · refine Meets.fromExecutables fun start entered => ?_
    refine Meets.bind Meets.get_has fun read => Meets.given fun _ => ?_
    refine Meets.through (fun shader outcome => Has start.executables outcome ∧
      UniformBlock.ofUnits limits.uniformBlockSize
        ((units.filter (·.shader.stage = stage)).map (·.shader)) = .ok shader.uniformBlocks)
      (Meets.settle (fun _ _ has grants => ⟨has, Merge.link_uniformBlocks grants⟩)
        fun _ _ _ _ => trivial) fun shader => Meets.given fun tables => ?_
    refine Meets.through (fun _ => Has start.executables)
      (Meets.settle (fun _ _ has _ => has) fun _ _ _ _ => trivial) fun info => ?_
    refine Meets.through (fun _ => Has start.executables)
      (Meets.modify fun outcome has => (keepInfo_executables info outcome).trans has) fun _ => ?_
    refine (Meets.store_has stage shader).weaken (fun _ has => has) fun _ outcome has => ?_
    rw [has]
    exact entered.store tables

/-- The stages in the order in which they are merged, the last one first. -/
abbrev allMerged : List Stage := [.geometry, .fragment, .vertex]

theorem entered_linkStages {limits : Limits} {units : List TranslationUnit} :
    Meets Anyhow (Has (.constant none)) (linkStages limits units)
      fun _ outcome => Entered units allMerged outcome.executables := by
  have first : Meets Anyhow (Has (.constant none)) (linkStage limits units .vertex)
      fun _ outcome => Entered units [.vertex] outcome.executables := by
    refine entered_linkStage.weaken (fun outcome has => ?_) fun _ _ entered => entered
    have has : outcome.executables = .constant none := has
    rw [has]
    exact ⟨fun _ _ in_done => absurd in_done List.not_mem_nil, fun _ _ found => by simp at found⟩
  exact Meets.bind first fun _ => Meets.bind entered_linkStage fun _ =>
    Meets.bind entered_linkStage fun _ => Meets.pure fun _ entered => entered

theorem tabled_linkInterfaces {units : List TranslationUnit} :
    Meets Anyhow (fun outcome => Entered units allMerged outcome.executables) linkInterfaces
      fun _ outcome => Tabled units outcome.uniformBlocks := by
  refine Meets.fromExecutables fun start entered => ?_
  refine Meets.bind Meets.get_has fun read => Meets.given fun _ => ?_
  refine Meets.through (fun _ => Has start.executables)
    (Meets.settle (fun _ _ has _ => has) fun _ _ _ _ => trivial) fun resolutions => ?_
  let Adopted (outcome : Outcome) : Prop := StageWise
    (fun _ before after => after.uniformBlocks = before.uniformBlocks)
    start.executables outcome.executables
  refine Meets.through (fun _ => Adopted) ?_ fun _ => ?_
  · refine Meets.updateExecutables fun stage shader current found => Meets.lift
      fun _ _ has runs => ?_
    have revised := Shader.adoptResolutions_revised .refl .trans
      (fun declared resolved _ => Variable.KeepsExtent.adopt resolved declared) runs
    exact ⟨has, by rw [revised.same]⟩
  · refine Meets.fromExecutables fun adopted same_blocks => ?_
    refine Meets.bind Meets.get_has fun read => Meets.given fun _ => ?_
    refine Meets.through (fun _ => Has adopted.executables)
      (Meets.forM fun pair _ => ?_) fun _ => ?_
    · exact Meets.through (fun _ => Has adopted.executables)
        (Meets.settle (fun _ _ has _ => has) fun _ _ _ _ => trivial) fun _ =>
          Meets.settle (fun _ _ has _ => has) fun _ _ _ _ => trivial
    refine Meets.bind Meets.get_has fun read => Meets.given fun same => ?_
    refine Meets.through (fun answer _ => Tabled units answer.1)
      (Meets.accept (fun outcome answer _ tables => ?_) fun _ _ _ => trivial) fun answer =>
        Meets.modify fun _ tabled => tabled
    rw [same] at tables
    obtain ⟨covers, no_others⟩ := UniformBlock.ofProgram_eq_ok tables
    refine ⟨fun unit listed => ?_, fun block listed => ?_⟩
    · obtain ⟨shader, found, covered⟩ :=
        entered.covers unit listed (by cases unit.shader.stage <;> decide)
      have here := same_blocks unit.shader.stage
      rw [found] at here
      obtain ⟨later, now, same_here⟩ := exists_of_rel here
      exact covered.trans (same_here ▸ covers _ later now)
    · obtain ⟨stage, shader, now, inside⟩ := no_others block listed
      obtain ⟨origin, was, same_here⟩ := same_blocks.origin_of now
      exact entered.laid_out stage origin was block (same_here ▸ inside)

/-- All phases leave a table that declares what the blocks of the units do. -/
theorem tabled_phases {options : Options} {program : Program} :
    Meets Anyhow (Has (.constant none)) (phases options program)
      fun _ outcome => Tabled program.units outcome.uniformBlocks := by
  refine Meets.through (fun _ => Has (.constant none)) ?_ fun _ => ?_
  · refine Meets.bind (Meets.accept (fun _ _ has _ => has) fun _ _ _ => trivial) fun answer => ?_
    obtain ⟨version, isEs⟩ := answer
    refine Meets.through (fun _ => Has (.constant none)) (Meets.modify fun _ has => has) fun _ => ?_
    split
    · exact Meets.fail fun _ _ => trivial
    · exact Meets.pure fun _ has => has
  refine Meets.bind entered_linkStages fun _ => Meets.bind tabled_linkInterfaces fun _ => ?_
  refine Spares.keeps fun table => ?_
  refine Preserves.bind (Preserves.optimize standing_hasTable) fun _ => ?_
  refine Preserves.bind (Preserves.assignLocations standing_hasTable (fun _ has => has) _ _)
    fun _ => ?_
  exact Preserves.bind (Preserves.assignUniforms standing_hasTable _) fun _ =>
    Preserves.checkRequiredStages _

end Linking

namespace Program

/-! ## Room -/

/-- When a link succeeds, the table of blocks has room for every member of a block without an
instance that is left in an executable: the block has a member of the name and type of the variable,
and this member with all its elements lies inside the block.  The members must be declared like the
blocks of their units, in uniform blocks there must be no arrays without a length, libraries must
not have uniform blocks, and words must be able to say how many bytes the blocks of the table
take. -/
theorem link_has_room {options : Options} {program result : Program}
    (alike : ∀ unit ∈ program.units, ∀ declared ∈ unit.shader.vars.entries,
      ∀ name ∈ declared.unnamedBlock?,
        UniformBlock.typeAmong? unit.shader.uniformBlocks name declared.name = some declared.ty)
    (sized : ∀ unit ∈ program.units, ∀ declared ∈ unit.shader.vars.entries,
      declared.isInUniformBlock = true → declared.ty.isUnsizedArray = false)
    (no_others : ∀ unit ∈ program.units, ∀ library ∈ unit.libraries,
      ∀ declared ∈ library.vars.entries, declared.isInUniformBlock = false)
    (runs : program.link options = .ok result) (succeeds : result.linked = true)
    {stage : Stage} {shader : Shader} (found : result.outcome.executables.get stage = some shader)
    {declared : Variable} (listed : declared ∈ shader.vars.entries) {name : String}
    (of_block : declared.unnamedBlock? = some name)
    (fits : ∀ block ∈ result.outcome.uniformBlocks, block.bytes < UInt32.size) :
    ∃ block member, result.outcome.uniformBlocks.find? (·.name = name) = some block ∧
      block.HasRoom declared member := by
  have filed : ∀ unit ∈ program.units, ∀ shader ∈ unit.shader :: unit.libraries,
      shader.Filed (program.units.map (·.shader)) := by
    intro unit unit_listed shader shader_listed declared listed in_block
    rcases List.mem_cons.mp shader_listed with rfl | of_library
    · exact ⟨sized unit unit_listed declared listed in_block, fun name of_block =>
        ⟨unit.shader, List.mem_map_of_mem unit_listed,
          alike unit unit_listed declared listed name of_block⟩⟩
    · rw [no_others unit unit_listed shader of_library declared listed] at in_block
      cases in_block
  have in_block : declared.isInUniformBlock = true := by
    by_contra outside
    simp [Variable.unnamedBlock?, outside] at of_block
  obtain ⟨file, file_listed, typed⟩ :=
    (link_files filed runs succeeds found declared listed in_block).2 name of_block
  obtain ⟨unit, unit_listed, rfl⟩ := List.mem_map.mp file_listed
  obtain ⟨reached, phases_run, -, same⟩ := link_completes runs succeeds
  have tabled : Linking.Tabled program.units reached.uniformBlocks :=
    Linking.tabled_phases {} (.ok ()) reached rfl phases_run
  obtain ⟨block, is_block, of_member⟩ := Option.bind_eq_some_iff.mp
    (tabled.covers unit unit_listed name declared.name declared.ty typed)
  have in_table := List.mem_of_find?_eq_some is_block
  obtain ⟨member, room⟩ :=
    (tabled.laid_out block in_table).hasRoom (fits block (by rw [same]; exact in_table)) of_member
  exact ⟨block, member, by rw [same]; exact is_block, room⟩

/-- The type of a block that has an array as its only member. -/
def curveBlock (length : Option Nat) : Ty :=
  .interface "Curve" [{ name := "points", ty := .array .float length }] .std140

/-- A fragment shader that reads the last of eight elements of its uniform block, which may give the
array a length or not. -/
def curve (length : Option Nat) : Program where
  units := [⟨{ Shader.ofParts .fragment
      [.ofType "result" .float .shaderOut,
        { Variable.ofType "points" (.array .float length) .uniform with
          maxArrayAccess := 7, interfaceType := some (curveBlock length) }]
      [.ofBody "main" [.store (.whole 0)
        (.load (.element (.whole 1) (.constant (.int 7)) .float))]] with
    uniformBlocks := [.ofMembers "Curve" [("points", .array .float length)]] }, []⟩]

theorem curve_has_room :
    (∀ unit ∈ (curve (some 8)).units, ∀ declared ∈ unit.shader.vars.entries,
      (∀ name ∈ declared.unnamedBlock?,
        UniformBlock.typeAmong? unit.shader.uniformBlocks name declared.name = some declared.ty) ∧
      (declared.isInUniformBlock = true → declared.ty.isUnsizedArray = false)) ∧
    ∃ result shader declared block member, (curve (some 8)).link {} = .ok result ∧
      result.linked = true ∧ result.outcome.executables.get .fragment = some shader ∧
      declared ∈ shader.vars.entries ∧ declared.unnamedBlock? = some "Curve" ∧
      (∀ block ∈ result.outcome.uniformBlocks, block.bytes < UInt32.size) ∧
      result.outcome.uniformBlocks.find? (·.name = "Curve") = some block ∧
      block.HasRoom declared member := by
  have alike : ∀ unit ∈ (curve (some 8)).units, ∀ declared ∈ unit.shader.vars.entries,
      (∀ name ∈ declared.unnamedBlock?,
        UniformBlock.typeAmong? unit.shader.uniformBlocks name declared.name = some declared.ty) ∧
      (declared.isInUniformBlock = true → declared.ty.isUnsizedArray = false) := by decide +kernel
  have links : (curve (some 8)).linksTo {} (fun result => decide (
      (∀ block ∈ result.outcome.uniformBlocks, block.bytes < UInt32.size) ∧
      ∃ shader ∈ result.outcome.executables.get .fragment, ∃ declared ∈ shader.vars.entries,
        declared.unnamedBlock? = some "Curve")) = true := by decide +kernel
  obtain ⟨result, runs, succeeds, there⟩ := exists_of_linksTo links
  obtain ⟨fits, shader, found, declared, listed, of_block⟩ := of_decide_eq_true there
  obtain ⟨block, member, is_block, room⟩ := link_has_room
    (fun unit in_units declared listed => (alike unit in_units declared listed).1)
    (fun unit in_units declared listed => (alike unit in_units declared listed).2)
    (by decide +kernel) runs succeeds found listed of_block fits
  exact ⟨alike, result, shader, declared, block, member, runs, succeeds, found, listed, of_block,
    fits, is_block, room⟩

/-- It is not enough that members are declared like the blocks of their units: an array without a
length becomes as long as its use asks for, but the block that has been laid out keeps it without a
length. -/
theorem curve_lacks_room :
    (∀ unit ∈ (curve none).units, ∀ declared ∈ unit.shader.vars.entries,
      ∀ name ∈ declared.unnamedBlock?,
        UniformBlock.typeAmong? unit.shader.uniformBlocks name declared.name = some declared.ty) ∧
    ∃ result, (curve none).link {} = .ok result ∧ result.linked = true ∧
      ∃ shader ∈ result.outcome.present, ∃ declared ∈ shader.declaredVariables,
        ∃ name ∈ declared.unnamedBlock?,
          declared.ty = .sizedArray .float 8 ∧
          UniformBlock.typeAmong? result.outcome.uniformBlocks name declared.name =
            some (.unsizedArray .float) ∧
          ∃ block ∈ result.outcome.uniformBlocks, block.name = name ∧ block.size = 16 := by
  refine ⟨by decide +kernel, ?_⟩
  have links : (curve none).linksTo {} (fun result => decide (
      ∃ shader ∈ result.outcome.present, ∃ declared ∈ shader.declaredVariables,
        ∃ name ∈ declared.unnamedBlock?,
          declared.ty = .sizedArray .float 8 ∧
          UniformBlock.typeAmong? result.outcome.uniformBlocks name declared.name =
            some (.unsizedArray .float) ∧
          ∃ block ∈ result.outcome.uniformBlocks, block.name = name ∧ block.size = 16)) = true := by
    decide +kernel
  obtain ⟨result, runs, succeeds, there⟩ := exists_of_linksTo links
  exact ⟨result, runs, succeeds, of_decide_eq_true there⟩

end Program
end StageLink
