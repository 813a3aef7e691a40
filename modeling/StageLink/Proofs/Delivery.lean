import StageLink.Proofs.Compaction
import StageLink.Proofs.Pipeline

/-!
# What a successful link delivers

The phases before locations are assigned make the executables conform to each other, and the phases
after that keep the arrangement: they resize uniforms, drop what is dead and renumber handles.
-/

namespace StageLink

/-! ## Executables that keep what is left of their interface -/

/-- The second declaration has the name and mode of the first, and is the same if the first belongs
to the interface of a stage. -/
structure Variable.KeepsInterface (one other : Variable) : Prop where
  name : other.name = one.name
  mode : other.mode = one.mode
  same : one.mode.isInterface = true → other = one

namespace Variable.KeepsInterface

theorem refl (declared : Variable) : declared.KeepsInterface declared := ⟨rfl, rfl, fun _ => rfl⟩

theorem trans (one other last : Variable) (before : one.KeepsInterface other)
    (after : other.KeepsInterface last) : one.KeepsInterface last := by
  refine ⟨after.name.trans before.name, after.mode.trans before.mode, fun is_interface => ?_⟩
  obtain rfl := before.same is_interface
  exact after.same is_interface

end Variable.KeepsInterface

namespace Shader

/-- The second executable has some of the interface of the first, unchanged. -/
structure Trimmed (before after : Shader) : Prop where
  stage : after.stage = before.stage
  tidy : before.Tidy → after.Tidy
  fewer : ∀ mode, mode.isInterface = true → after.generics mode ⊆ before.generics mode

theorem Trimmed.narrowed {before after : Shader} (trimmed : Trimmed before after) :
    Narrowed before after :=
  ⟨trimmed.stage, trimmed.tidy, fun mode is_interface declared listed =>
    ⟨declared, trimmed.fewer mode is_interface listed, .refl declared⟩⟩

theorem Trimmed.trans {first second third : Shader} (before : Trimmed first second)
    (after : Trimmed second third) : Trimmed first third :=
  ⟨after.stage.trans before.stage, fun tidy => after.tidy (before.tidy tidy),
    fun mode is_interface _ listed =>
      before.fewer mode is_interface (after.fewer mode is_interface listed)⟩

theorem Thinned.trimmed {before after : Shader} (thinned : Thinned before after) :
    Trimmed before after :=
  ⟨thinned.stage, thinned.tidy, fun mode _ => thinned.generics mode⟩

theorem Compacted.trimmed {before after : Shader} (compacted : Compacted before after) :
    Trimmed before after :=
  ⟨compacted.stage, compacted.tidy, fun mode _ => by
    rw [generics, generics, compacted.declaredVariables]
    exact List.Subset.refl _⟩

theorem Revised.trimmed {before after : Shader}
    (revised : Revised Variable.KeepsInterface before after) : Trimmed before after := by
  refine ⟨by rw [revised.same], revised.tidy fun _ _ keeps => keeps.name,
    fun mode is_interface declared listed => ?_⟩
  obtain ⟨is_declared, of_mode, not_builtin⟩ := mem_generics.mp listed
  obtain ⟨origin, was, keeps⟩ := revised.mem_declared is_declared
  obtain rfl := keeps.same (by rw [← keeps.mode, of_mode, is_interface])
  exact mem_generics.mpr ⟨was, of_mode, not_builtin⟩

/-- Adopting uniforms leaves the interface alone. -/
theorem trimmed_adoptResolutions {shader result : Shader} {resolutions : Resolutions}
    (uniforms : ∀ name resolved, resolutions.get? name = some resolved → resolved.mode = .uniform)
    (runs : shader.adoptResolutions resolutions = .ok result) : Trimmed shader result := by
  refine Revised.trimmed (adoptResolutions_revised .refl .trans (fun declared resolved found => ?_)
    runs)
  refine ⟨Declaration.adopt_name .., Declaration.adopt_mode .., fun is_interface => ?_⟩
  refine Declaration.adopt_of_mode fun same => ?_
  rw [← same, uniforms _ _ found] at is_interface
  cases is_interface

end Shader

/-! ## Resizing -/

namespace Uniform

/-- The variable as an array that is as long as its use asks for. -/
def resized (highest : String → Nat) (declared : Variable) : Variable :=
  { declared with ty := declared.ty.withLength (wrap (highest declared.name + 1)) }

theorem resized_resized (highest : String → Nat) (declared : Variable) :
    resized highest (resized highest declared) = resized highest declared := by
  unfold resized
  dsimp only
  congr 1
  cases declared.ty <;> rfl

theorem iterate_resized (highest : String → Nat) (count : Nat) (declared : Variable) :
    (resized highest)^[count + 1] declared = resized highest declared := by
  induction count with
  | zero => rfl
  | succ count ih => rw [Function.iterate_succ_apply', ih, resized_resized]

/-- The variable with the length that its use asks for, unless it has that already. -/
def fitted (highest : String → Nat) (declared : Variable) : Variable :=
  if declared.ty.length? = some (wrap (highest declared.name + 1)) then declared
  else resized highest declared

/-- The second variable is the first one, resized if that follows its use. -/
def Resized (highest : String → Nat) (one other : Variable) : Prop :=
  other = one ∨ isResizable one = true ∧ other = resized highest one

end Uniform

namespace Shader

/-- Resizing changes uniform arrays of the default block, and all of these among the globals; the
types recorded on element places follow. -/
theorem resizeArrays_eq_ok {highest : String → Nat} {shader result : Shader}
    (runs : Uniform.resizeArrays highest shader = .ok result) : ∃ changed,
      Revised (Uniform.Resized highest) shader changed ∧
      (∀ id ∈ shader.globals, ∀ declared, shader.vars.get? id = some declared →
        Uniform.isResizable declared = true →
        changed.vars.get? id = some (Uniform.fitted highest declared)) ∧
      (result = changed ∨ ArraySize.retypeElements changed = .ok result) := by
  obtain ⟨pairs, fetches, following⟩ := Checked.bind_eq_ok.mp runs
  have fetches := Checked.mapM_eq_ok.mp fetches
  have fetched : ∀ {id found}, (id, found) ∈ pairs → shader.vars.get? id = some found := by
    intro id found listed
    obtain ⟨_, -, gives⟩ := exists_of_forall₂ fetches listed
    obtain ⟨_, fetched, equal⟩ := Checked.bind_eq_ok.mp gives
    obtain ⟨rfl, rfl⟩ := Prod.mk.inj (Checked.pure_eq_ok.mp equal)
    exact fetchVariable_eq_ok.mp fetched
  have paired : ∀ id ∈ shader.globals, ∀ declared, shader.vars.get? id = some declared →
      (id, declared) ∈ pairs := by
    intro id global declared was
    obtain ⟨pair, listed, gives⟩ := exists_of_forall₂ fetches.flip global
    obtain ⟨found, fetched, equal⟩ := Checked.bind_eq_ok.mp gives
    obtain rfl := Checked.pure_eq_ok.mp equal
    obtain rfl := Option.some.inj (was.symm.trans (fetchVariable_eq_ok.mp fetched))
    exact listed
  dsimp only at following
  split at following
  · next none_listed =>
      obtain rfl := Checked.pure_eq_ok.mp following
      refine ⟨shader, .refl (fun _ => .inl rfl) _,
        fun id global declared was resizable => ?_, .inl rfl⟩
      have kept := List.filter_eq_nil_iff.mp (List.isEmpty_iff.mp none_listed) _
        (paired id global declared was)
      rw [Uniform.fitted, if_pos (by simpa [resizable] using kept)]
      exact was
  · obtain ⟨changed, modifies, retypes⟩ := Checked.bind_eq_ok.mp following
    obtain ⟨same, size, -, get_changed⟩ := modifyVariables_eq_ok modifies
    change ∀ position, changed.vars.get? position = (shader.vars.get? position).map
      (Uniform.resized highest)^[List.count position _] at get_changed
    refine ⟨changed, ⟨same, size, fun {id entry} found => ⟨_, by rw [get_changed, found]; rfl, ?_⟩⟩,
      fun id global declared was resizable => ?_, .inr retypes⟩
    · cases counted : List.count id _ with
      | zero => exact .inl rfl
      | succ count =>
          have listed :=
            List.count_pos_iff.mp (Nat.lt_of_lt_of_eq (Nat.succ_pos count) counted.symm)
          obtain ⟨⟨_, other⟩, in_filter, rfl⟩ := List.mem_map.mp listed
          obtain ⟨in_pairs, chosen⟩ := List.mem_filter.mp in_filter
          obtain rfl := Option.some.inj (found.symm.trans (fetched in_pairs))
          exact .inr ⟨(Bool.and_eq_true_iff.mp chosen).1,
            Uniform.iterate_resized highest count entry⟩
    · rw [get_changed, was, Option.map_some]
      cases counted : List.count id _ with
      | succ count =>
          have listed :=
            List.count_pos_iff.mp (Nat.lt_of_lt_of_eq (Nat.succ_pos count) counted.symm)
          obtain ⟨⟨_, other⟩, in_filter, rfl⟩ := List.mem_map.mp listed
          obtain ⟨in_pairs, chosen⟩ := List.mem_filter.mp in_filter
          obtain rfl := Option.some.inj (was.symm.trans (fetched in_pairs))
          rw [Uniform.iterate_resized, Uniform.fitted, if_neg (by simpa [resizable] using chosen)]
      | zero =>
          have unlisted := List.count_eq_zero.mp counted
          rw [Uniform.fitted, if_pos]
          · rfl
          · by_contra short
            refine unlisted (List.mem_map.mpr ⟨(id, declared), List.mem_filter.mpr
              ⟨paired id global declared was, ?_⟩, rfl⟩)
            simpa [resizable] using short

/-- Resizing the arrays among the uniforms keeps the interface, and so does fitting types to
that. -/
theorem resizeArrays_keepsInterface {highest : String → Nat} {shader result : Shader}
    (tidy : shader.Tidy) (runs : Uniform.resizeArrays highest shader = .ok result) :
    ∃ changed, Revised Variable.KeepsInterface shader changed ∧ Thinned changed result := by
  obtain ⟨changed, resized, -, retypes⟩ := resizeArrays_eq_ok runs
  have revised : Revised Variable.KeepsInterface shader changed := by
    refine ⟨resized.same, resized.size, fun found => ?_⟩
    obtain ⟨other, now, related⟩ := resized.related found
    refine ⟨other, now, ?_⟩
    rcases related with rfl | ⟨resizable, rfl⟩
    · exact ⟨rfl, rfl, fun _ => rfl⟩
    · refine ⟨rfl, rfl, fun is_interface => ?_⟩
      simp only [Uniform.isResizable, Bool.and_eq_true, decide_eq_true_eq] at resizable
      rw [resizable.1.1.1] at is_interface
      cases is_interface
  refine ⟨changed, revised, ?_⟩
  rcases retypes with rfl | retypes
  · exact .refl _
  · rw [retypeElements_eq_ok (revised.trimmed.tidy tidy).flat retypes]
    exact ⟨rfl, rfl, List.Sublist.refl _⟩

/-- Resizing the arrays among the uniforms leaves the interface alone. -/
theorem trimmed_resizeArrays {highest : String → Nat} {shader result : Shader} (tidy : shader.Tidy)
    (runs : Uniform.resizeArrays highest shader = .ok result) : Trimmed shader result := by
  obtain ⟨changed, revised, thinned⟩ := resizeArrays_keepsInterface tidy runs
  exact revised.trimmed.trans thinned.trimmed

end Shader

namespace Linking

variable {executables : Executables} {holds : Variable → Prop}

/-! ## Trimming -/

theorem Arranged.trimmed {limit : Nat} {names : List String} {before after : Executables}
    (arranged : Arranged holds limit names before)
    (trimmed : StageWise (fun _ => Shader.Trimmed) before after) :
    Arranged holds limit names after := by
  refine arranged.fewer (trimmed.imp fun _ _ _ => Shader.Trimmed.narrowed)
    fun stage mode is_interface declared listed => ?_
  obtain ⟨shader, now, in_generics⟩ := Shader.mem_side.mp listed
  obtain ⟨origin, was, trimmed_here⟩ := trimmed.origin_of now
  exact Shader.mem_side.mpr ⟨origin, was, trimmed_here.fewer mode is_interface in_generics⟩

theorem Ready.trimmed {before after : Executables} (ready : Ready holds before)
    (trimmed : StageWise (fun _ => Shader.Trimmed) before after) : Ready holds after := by
  refine ⟨ready.conforming.narrowed (trimmed.imp fun _ _ _ => Shader.Trimmed.narrowed),
    fun stage mode is_interface declared listed => ?_⟩
  obtain ⟨shader, now, in_generics⟩ := Shader.mem_side.mp listed
  obtain ⟨origin, was, trimmed_here⟩ := trimmed.origin_of now
  exact ready.held stage mode is_interface declared
    (Shader.mem_side.mpr ⟨origin, was, trimmed_here.fewer mode is_interface in_generics⟩)

/-- Optimizing trims. -/
theorem optimize_meets (in_place : TidyInPlace executables) :
    Meets Failed (Has executables) optimize fun _ outcome =>
      StageWise (fun _ => Shader.Trimmed) executables outcome.executables := by
  refine Meets.updateExecutables fun stage shader current found => ?_
  obtain ⟨-, tidy⟩ := in_place stage shader found
  refine Meets.through (fun _ => Has current)
    (Meets.grant Recursion.check_reasoned fun _ _ has _ => has) fun _ => ?_
  exact Meets.pure fun _ has => ⟨has, (Shader.thinned_optimizeFully tidy.flat).trimmed⟩

/-- Resizing uniforms trims, and what else is done about uniforms leaves the executables alone. -/
theorem assignUniforms_meets {options : Options} (in_place : TidyInPlace executables) :
    Meets Failed (Has executables) (assignUniforms options) fun _ outcome =>
      StageWise (fun _ => Shader.Trimmed) executables outcome.executables := by
  refine Meets.bind Meets.get_has fun read => Meets.given fun _ => ?_
  refine Meets.through (fun _ outcome =>
    StageWise (fun _ => Shader.Trimmed) executables outcome.executables) ?_ fun _ => ?_
  · refine Meets.updateExecutables fun stage shader current found => ?_
    obtain ⟨-, tidy⟩ := in_place stage shader found
    exact Meets.lift fun _ _ has runs => ⟨has, Shader.trimmed_resizeArrays tidy runs⟩
  · refine Meets.bind Meets.get fun read => ?_
    let Kept (outcome : Outcome) : Prop :=
      StageWise (fun _ => Shader.Trimmed) executables outcome.executables
    refine Meets.through (fun _ => Kept) (Meets.lift fun _ _ holds _ => holds.1) fun answer => ?_
    obtain ⟨uniforms, usages⟩ := answer
    refine Meets.through (fun _ => Kept) (Meets.modify fun _ kept => kept) fun _ => ?_
    refine Meets.through (fun _ => Kept) (Meets.withExecutable (fun shader => ?_)
      fun _ kept _ => kept) fun _ => ?_
    · exact Meets.through (fun _ => Kept) (Meets.lift fun _ _ kept _ => kept.1) fun _ =>
        Meets.modify fun _ kept => kept
    · refine Meets.through (fun _ => Kept) (Meets.modify fun _ kept => kept) fun _ => ?_
      refine Meets.bind Meets.get fun reached => ?_
      split
      · next failed =>
          refine Meets.halt ?_
          rintro outcome ⟨-, rfl⟩
          exact failed
      · exact Meets.pure fun _ kept => kept.1

theorem checkRequiredStages_meets {options : Options} {kept : Outcome → Prop} :
    Meets Failed kept (checkRequiredStages options) fun _ => kept := by
  refine Meets.bind Meets.get fun read => ?_
  split
  · split
    · exact Meets.fail fun outcome _ => failed_errors outcome (by simp)
    · split
      · exact Meets.fail fun outcome _ => failed_errors outcome (by simp)
      · exact Meets.pure fun _ kept => kept.1
  · exact Meets.pure fun _ kept => kept.1

/-! ## Merging -/

/-- The executables of some stages have been merged from the units. -/
structure Assembled (holds : Variable → Prop) (units : List TranslationUnit) (done : List Stage)
    (executables : Executables) : Prop where
  fine : ∀ stage shader, executables.get stage = some shader → Merge.Fine holds stage shader
  there : ∀ stage, (executables.get stage).isSome = true ↔
    stage ∈ done ∧ ∃ unit ∈ units, unit.shader.stage = stage

theorem keepInfo_executables (info : StageInfo) (outcome : Outcome) :
    (keepInfo info outcome).executables = outcome.executables := by
  cases info <;> rfl

theorem Assembled.store {units : List TranslationUnit} {done : List Stage} {stage : Stage}
    {shader : Shader} (assembled : Assembled holds units done executables)
    (fine : Merge.Fine holds stage shader)
    (found : ∃ unit ∈ units, unit.shader.stage = stage) :
    Assembled holds units (stage :: done) (executables.set stage (some shader)) := by
  refine ⟨fun other result now => ?_, fun other => ?_⟩
  · by_cases here : stage = other
    · subst here
      rw [PerStage.get_set_same] at now
      exact Option.some.inj now ▸ fine
    · rw [PerStage.get_set_other _ _ here] at now
      exact assembled.fine other result now
  · rw [List.mem_cons]
    by_cases here : stage = other
    · subst here
      simp [PerStage.get_set_same, found]
    · rw [PerStage.get_set_other _ _ here, assembled.there other]
      simp [Ne.symm here]

theorem exists_unit {units : List TranslationUnit} {stage : Stage}
    (some_there : ¬ (units.filter (·.shader.stage = stage)).isEmpty = true) :
    ∃ unit ∈ units, unit.shader.stage = stage := by
  simpa using some_there

theorem linkStage_meets (inherited : Inherited holds) {limits : Limits}
    {units : List TranslationUnit} {done : List Stage} {stage : Stage}
    (distinct : ∀ unit ∈ units, (unit.shader.declaredVariables.map (·.name)).Nodup)
    (each : ∀ unit ∈ units, ∀ shader ∈ unit.shader :: unit.libraries,
      ∀ declared ∈ shader.vars.entries, holds declared) :
    Meets Failed (fun outcome => Assembled holds units done outcome.executables)
      (linkStage limits units stage)
      fun _ outcome => Assembled holds units (stage :: done) outcome.executables := by
  unfold linkStage
  dsimp only
  split
  · next none_there =>
      refine Meets.pure fun outcome assembled => ⟨assembled.fine, fun other => ?_⟩
      rw [assembled.there other, List.mem_cons]
      refine ⟨fun ⟨listed, found⟩ => ⟨.inr listed, found⟩, fun ⟨listed, found⟩ => ⟨?_, found⟩⟩
      rcases listed with rfl | listed
      · obtain ⟨unit, in_units, of_stage⟩ := found
        have listed : unit ∈ units.filter (·.shader.stage = other) :=
          List.mem_filter.mpr ⟨in_units, by simpa using of_stage⟩
        rw [List.isEmpty_iff.mp none_there] at listed
        cases listed
      · exact listed
  · next some_there =>
      refine Meets.fromExecutables fun start assembled => ?_
      refine Meets.bind Meets.get_has fun read => Meets.given fun _ => ?_
      refine Meets.through (fun shader outcome => Has start.executables outcome ∧
        Merge.Fine holds stage shader) (Meets.grant Merge.link_reasoned
          fun _ _ has grants => ⟨has, ?_⟩) fun shader => Meets.given fun fine => ?_
      · exact Merge.link_fine inherited
          (fun unit listed => by simpa using (List.mem_filter.mp listed).2)
          (fun unit listed => distinct unit (List.mem_filter.mp listed).1)
          (fun unit listed => each unit (List.mem_filter.mp listed).1) grants
      · refine Meets.through (fun _ => Has start.executables)
          (Meets.grant StageRules.check_reasoned fun _ _ has _ => has) fun info => ?_
        refine Meets.through (fun _ => Has start.executables) (Meets.modify fun outcome has => ?_)
          fun _ => ?_
        · exact (keepInfo_executables info outcome).trans has
        · refine (Meets.store_has stage shader).weaken (fun _ has => has) fun _ outcome has => ?_
          rw [has]
          exact assembled.store fine (exists_unit some_there)

theorem linkStages_meets (inherited : Inherited holds) {limits : Limits}
    {units : List TranslationUnit}
    (distinct : ∀ unit ∈ units, (unit.shader.declaredVariables.map (·.name)).Nodup)
    (each : ∀ unit ∈ units, ∀ shader ∈ unit.shader :: unit.libraries,
      ∀ declared ∈ shader.vars.entries, holds declared) :
    Meets Failed (Has (.constant none)) (linkStages limits units)
      fun _ outcome =>
        Assembled holds units [.geometry, .fragment, .vertex] outcome.executables := by
  have step : ∀ done stage, Meets Failed
      (fun outcome => Assembled holds units done outcome.executables)
      (linkStage limits units stage)
      fun _ outcome => Assembled holds units (stage :: done) outcome.executables :=
    fun _ _ => linkStage_meets inherited distinct each
  have vertex_first : Meets Failed (Has (.constant none)) (linkStage limits units .vertex)
      fun _ outcome => Assembled holds units [.vertex] outcome.executables := by
    refine (step [] .vertex).weaken (fun outcome has => ?_) fun _ _ assembled => assembled
    have has : outcome.executables = .constant none := has
    rw [has]
    exact ⟨fun _ _ found => by simp at found, fun _ => by simp⟩
  exact Meets.bind vertex_first fun _ => Meets.bind (step _ .fragment) fun _ =>
    Meets.bind (step _ .geometry) fun _ => Meets.pure fun _ assembled => assembled

theorem checkVersions_meets {units : List TranslationUnit} :
    Meets Failed (Has executables) (checkVersions units) fun _ outcome =>
      Has executables outcome ∧ ((∃ unit ∈ units, unit.shader.stage = .geometry) →
        ∃ unit ∈ units, unit.shader.stage = .vertex) := by
  refine Meets.through (fun _ => Has executables) (Meets.accept (fun _ _ has _ => has)
    fun outcome cause _ => failed_errors outcome (by simp)) fun answer => ?_
  obtain ⟨version, isEs⟩ := answer
  refine Meets.through (fun _ => Has executables) (Meets.modify fun _ has => has) fun _ => ?_
  split
  · exact Meets.fail fun outcome _ => failed_errors outcome (by simp)
  · next goes_together =>
      refine Meets.pure fun _ has => ⟨has, fun ⟨unit, listed, is_geometry⟩ => ?_⟩
      simp only [Bool.and_eq_true, not_and, Bool.not_eq_true, Bool.not_eq_false'] at goes_together
      simpa using goes_together (by simpa using ⟨unit, listed, is_geometry⟩)

/-! ## Interfaces -/

/-- Neighbours among the executables are those of neighbouring stages. -/
theorem mem_neighbours_present {outcome : Outcome} {pair : Shader × Shader} :
    pair ∈ neighbours outcome.present ↔ ∃ stages ∈ neighbours (stagesOf outcome.executables),
      outcome.executables.get stages.1 = some pair.1 ∧
        outcome.executables.get stages.2 = some pair.2 := by
  obtain ⟨producer, consumer⟩ := pair
  rw [Outcome.present]
  generalize outcome.executables = executables
  obtain ⟨vertex, geometry, fragment⟩ := executables
  cases vertex <;> cases geometry <;> cases fragment <;>
    simp [neighbours, stagesOf, PerStage.toList, PerStage.get, Stage.all, eq_comm]

theorem resolve_uniforms {shaders : List Shader} {resolutions : Resolutions}
    (grants : (Declaration.resolve true shaders).Grants resolutions) :
    ∀ name resolved, resolutions.get? name = some resolved → resolved.mode = .uniform := by
  intro name resolved found
  let is_uniform : String → Variable → Prop := fun _ declared => declared.mode = .uniform
  have keeps : ∀ existing declared merged : Variable, existing.name = declared.name →
      is_uniform existing.name existing → is_uniform declared.name declared →
      Declaration.Merged existing declared merged → is_uniform existing.name merged := by
    intro existing _ merged _ existing_uniform _ from_both
    have same : merged.mode = existing.mode := by rw [from_both.rest]
    exact same.trans existing_uniform
  refine (Declaration.resolve_grants keeps (fun _ _ declared _ compared => ?_) grants found).2
  simpa [Declaration.isCompared] using compared

theorem checkBoundary_meets {before : Outcome → Prop} {producer consumer : Shader}
    (tidy : producer.Tidy) :
    Meets Failed before (checkBoundary producer consumer) fun _ outcome =>
      before outcome ∧ Boundary.AllMatch consumer.stage (producer.generics .shaderOut)
        (consumer.generics .shaderIn) :=
  Meets.through (fun _ => before)
    (Meets.grant InterfaceBlock.checkBoundary_reasoned fun _ _ holds _ => holds) fun _ =>
      Meets.grant Boundary.check_reasoned fun _ _ holds grants =>
        ⟨holds, Boundary.check_grants tidy grants⟩

theorem checkBoundaries_meets {before : Outcome → Prop} {pairs : List (Shader × Shader)}
    (tidy : ∀ pair ∈ pairs, pair.1.Tidy) :
    Meets Failed before (pairs.forM fun pair => checkBoundary pair.1 pair.2) fun _ outcome =>
      before outcome ∧ ∀ pair ∈ pairs, Boundary.AllMatch pair.2.stage
        (pair.1.generics .shaderOut) (pair.2.generics .shaderIn) :=
  Meets.forEach fun pair listed => checkBoundary_meets (tidy pair listed)

/-- Merged executables are ready when what has become of their boundaries matches. -/
theorem ready_of_matched {before after : Executables} (in_place : TidyInPlace before)
    (rooted : (before.get .geometry).isSome = true → (before.get .vertex).isSome = true)
    (held : ∀ stage mode, mode.isInterface = true →
      ∀ declared ∈ Shader.side mode (before.get stage), holds declared)
    (trimmed : StageWise (fun _ => Shader.Trimmed) before after)
    (matched : ∀ pair : Shader × Shader, (∃ stages ∈ neighbours (stagesOf after),
      after.get stages.1 = some pair.1 ∧ after.get stages.2 = some pair.2) →
      Boundary.AllMatch pair.2.stage (pair.1.generics .shaderOut) (pair.2.generics .shaderIn)) :
    Ready holds after := by
  have in_place_now := in_place.narrowed (trimmed.imp fun _ _ _ => Shader.Trimmed.narrowed)
  refine ⟨⟨in_place_now, fun stages listed output in_outputs input in_inputs named => ?_, ?_⟩,
    fun stage mode is_interface declared listed => ?_⟩
  · obtain ⟨producer, is_producer, output_listed⟩ := Shader.mem_side.mp in_outputs
    obtain ⟨consumer, is_consumer, input_listed⟩ := Shader.mem_side.mp in_inputs
    have all_match := matched (producer, consumer) ⟨stages, listed, is_producer, is_consumer⟩
    rw [(in_place_now _ _ is_consumer).1] at all_match
    exact all_match output output_listed input input_listed named
  · rw [trimmed.isSome, trimmed.isSome]
    exact rooted
  · obtain ⟨shader, now, in_generics⟩ := Shader.mem_side.mp listed
    obtain ⟨origin, was, trimmed_here⟩ := trimmed.origin_of now
    exact held stage mode is_interface declared
      (Shader.mem_side.mpr ⟨origin, was, trimmed_here.fewer mode is_interface in_generics⟩)

/-- Comparing interfaces makes the executables ready. -/
theorem linkInterfaces_meets (in_place : TidyInPlace executables)
    (rooted : (executables.get .geometry).isSome = true → (executables.get .vertex).isSome = true)
    (held : ∀ stage mode, mode.isInterface = true →
      ∀ declared ∈ Shader.side mode (executables.get stage), holds declared) :
    Meets Failed (Has executables) linkInterfaces fun _ outcome =>
      Ready holds outcome.executables := by
  refine Meets.bind Meets.get_has fun read => Meets.given fun _ => ?_
  refine Meets.through (fun resolutions outcome => Has executables outcome ∧
      ∀ name resolved, resolutions.get? name = some resolved → resolved.mode = .uniform)
    (Meets.grant Declaration.resolveFrom_reasoned
      fun _ _ has grants => ⟨has, resolve_uniforms grants⟩)
    fun resolutions => Meets.given fun uniforms => ?_
  refine Meets.through (fun _ outcome =>
    StageWise (fun _ => Shader.Trimmed) executables outcome.executables) ?_ fun _ => ?_
  · exact Meets.updateExecutables fun stage shader current found => Meets.lift fun _ _ has runs =>
      ⟨has, Shader.trimmed_adoptResolutions uniforms runs⟩
  · refine Meets.fromExecutables fun start trimmed => ?_
    have narrowed : StageWise (fun _ => Shader.Narrowed) executables start.executables :=
      trimmed.imp fun _ _ _ => Shader.Trimmed.narrowed
    have in_place_now := in_place.narrowed narrowed
    refine Meets.bind Meets.get_has fun read => Meets.given fun same => ?_
    refine Meets.bind (checkBoundaries_meets fun pair listed => ?_) fun _ =>
      Meets.given fun matched => ?_
    · obtain ⟨stages, -, is_producer, -⟩ := mem_neighbours_present.mp listed
      rw [same] at is_producer
      exact (in_place_now _ _ is_producer).2
    · have ready : Ready holds start.executables :=
        (ready_of_matched in_place rooted held trimmed fun pair listed =>
          matched pair (mem_neighbours_present.mpr (by rwa [same])))
      refine Meets.bind Meets.get_has fun _ => Meets.given fun _ => ?_
      refine Meets.through (fun _ outcome => Ready holds outcome.executables)
        (Meets.accept (fun outcome _ has _ => ?_) fun outcome cause _ =>
          failed_errors outcome (by simp)) fun answer => ?_
      · have has : outcome.executables = start.executables := has
        rwa [has]
      · exact Meets.modify fun _ ready => ready

/-! ## All phases -/

theorem phases_meet (inherited : Inherited holds) {options : Options} {program : Program}
    (distinct : ∀ unit ∈ program.units, (unit.shader.declaredVariables.map (·.name)).Nodup)
    (each : ∀ unit ∈ program.units, ∀ shader ∈ unit.shader :: unit.libraries,
      ∀ declared ∈ shader.vars.entries, holds declared) :
    Meets Failed (Has (.constant none)) (phases options program) fun _ outcome =>
      Arranged holds options.limits.varyingSlots (requestedNames program.feedback)
        outcome.executables := by
  refine Meets.bind checkVersions_meets fun _ => Meets.given fun goes_together => ?_
  refine Meets.bind (linkStages_meets inherited distinct each) fun _ => ?_
  refine Meets.fromExecutables fun merged assembled => ?_
  have in_place : TidyInPlace merged.executables := fun stage shader found =>
    ⟨(assembled.fine stage shader found).stage, (assembled.fine stage shader found).tidy⟩
  have rooted : (merged.executables.get .geometry).isSome = true →
      (merged.executables.get .vertex).isSome = true := by
    rw [assembled.there, assembled.there]
    exact fun ⟨_, found⟩ => ⟨by simp, goes_together found⟩
  have held : ∀ stage mode, mode.isInterface = true →
      ∀ declared ∈ Shader.side mode (merged.executables.get stage), holds declared := by
    intro stage mode _ declared listed
    obtain ⟨shader, found, in_generics⟩ := Shader.mem_side.mp listed
    obtain ⟨id, -, was⟩ := Shader.mem_declaredVariables.mp (Shader.mem_generics.mp in_generics).1
    exact (assembled.fine stage shader found).all declared (Arena.mem_of_get? was)
  refine Meets.bind (linkInterfaces_meets in_place rooted held) fun _ => ?_
  refine Meets.fromExecutables fun compared ready => ?_
  refine Meets.bind (optimize_meets ready.conforming.in_place) fun _ => ?_
  refine Meets.fromExecutables fun optimized trimmed => ?_
  refine Meets.bind (assignLocations_meets inherited (ready.trimmed trimmed)) fun _ => ?_
  refine Meets.fromExecutables fun located arranged => ?_
  refine Meets.bind ((assignUniforms_meets arranged.conforming.in_place).weaken (fun _ has => has)
    fun _ _ trimmed => arranged.trimmed trimmed) fun _ => ?_
  exact checkRequiredStages_meets

end Linking

namespace Outcome

theorem compactExecutable_eq_ok {executable compacted : Option Shader}
    (runs : compactExecutable executable = .ok compacted) :
    Option.Rel Shader.Compacted executable compacted := by
  cases executable with
  | none =>
      obtain rfl := Checked.pure_eq_ok.mp runs
      exact .none
  | some shader =>
      obtain ⟨result, compacts, equal⟩ := Checked.bind_eq_ok.mp runs
      obtain rfl := Checked.pure_eq_ok.mp equal
      exact .some (Shader.compact_eq_ok compacts)

theorem compactAll_eq_ok {outcome result : Outcome} (runs : outcome.compactAll = .ok result) :
    result = { outcome with executables := result.executables } ∧
      Linking.StageWise (fun _ => Shader.Compacted) outcome.executables result.executables := by
  obtain ⟨vertex, compacts_vertex, runs⟩ := Checked.bind_eq_ok.mp runs
  obtain ⟨geometry, compacts_geometry, runs⟩ := Checked.bind_eq_ok.mp runs
  obtain ⟨fragment, compacts_fragment, equal⟩ := Checked.bind_eq_ok.mp runs
  obtain rfl := Checked.pure_eq_ok.mp equal
  refine ⟨rfl, fun stage => ?_⟩
  cases stage with
  | vertex => exact compactExecutable_eq_ok compacts_vertex
  | geometry => exact compactExecutable_eq_ok compacts_geometry
  | fragment => exact compactExecutable_eq_ok compacts_fragment

end Outcome

namespace Program

open Linking in
/-- A link without an error leaves executables whose locations are arranged. -/
theorem link_arranges {holds : Variable → Prop} (inherited : Inherited holds) {options : Options}
    {program result : Program}
    (distinct : ∀ unit ∈ program.units, (unit.shader.declaredVariables.map (·.name)).Nodup)
    (each : ∀ unit ∈ program.units, ∀ shader ∈ unit.shader :: unit.libraries,
      ∀ declared ∈ shader.vars.entries, holds declared)
    (runs : program.link options = .ok result) (succeeds : result.linked = true) :
    Arranged holds options.limits.varyingSlots (requestedNames program.feedback)
      result.outcome.executables := by
  obtain ⟨⟨answer, reached⟩, phases_run, following⟩ := Checked.bind_eq_ok.mp runs
  obtain ⟨outcome, compacts, equal⟩ := Checked.bind_eq_ok.mp following
  obtain rfl := Checked.pure_eq_ok.mp equal
  obtain ⟨same, compacted⟩ := Outcome.compactAll_eq_ok compacts
  have met := phases_meet inherited distinct each {} answer reached rfl phases_run
  cases answer with
  | ok _ => exact met.trimmed (compacted.imp fun _ _ _ => Shader.Compacted.trimmed)
  | error _ =>
      have failed : reached.log.hasErrors = true := met
      have no_errors : outcome.log.hasErrors = false := by simpa using succeeds
      rw [same] at no_errors
      rw [failed] at no_errors
      cases no_errors

end Program
end StageLink
