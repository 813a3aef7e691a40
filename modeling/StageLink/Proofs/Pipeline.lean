import StageLink.Proofs.Locations
import StageLink.Proofs.Merging
import StageLink.Proofs.Placement

/-!
# Pipelines with locations

The first side of a pipeline are the vertex inputs and the last one the fragment outputs, which are
allocated as attributes; between them lie the boundaries, and at either end there may be a side
without a counterpart.  When all locations have been assigned, every side is settled.
-/

namespace StageLink
namespace Linking

variable {executables : Executables} {holds : Variable → Prop}

/-- The stages that have an executable, in pipeline order. -/
def stagesOf (executables : Executables) : List Stage :=
  Stage.all.filter fun stage => (executables.get stage).isSome

theorem mem_stagesOf {stage : Stage} :
    stage ∈ stagesOf executables ↔ (executables.get stage).isSome = true := by
  rw [stagesOf, List.mem_filter]
  exact and_iff_right (by cases stage <;> decide)

/-! ## Neighbours -/

/-- The stages of a pipeline by whether each of them is there. -/
def stagesWith (there : PerStage Bool) : List Stage := Stage.all.filter there.get

theorem stagesOf_eq (executables : Executables) :
    stagesOf executables = stagesWith (executables.map (·.isSome)) :=
  List.filter_congr fun stage _ => by rw [PerStage.get_map]

/-- What is known of neighbours in a pipeline: both are there and different, nothing comes before a
vertex stage, and nothing behind a fragment stage. -/
structure Neighbours (stages : List Stage) (pair : Stage × Stage) : Prop where
  first : pair.1 ∈ stages
  second : pair.2 ∈ stages
  different : pair.1 ≠ pair.2
  not_fragment : pair.1 ≠ .fragment
  not_vertex : pair.2 ≠ .vertex
  not_first : stages.head? ≠ some pair.2
  not_last : stages.getLast? ≠ some pair.1

instance (stages : List Stage) (pair : Stage × Stage) : Decidable (Neighbours stages pair) :=
  decidable_of_iff (pair.1 ∈ stages ∧ pair.2 ∈ stages ∧ pair.1 ≠ pair.2 ∧ pair.1 ≠ .fragment ∧
      pair.2 ≠ .vertex ∧ stages.head? ≠ some pair.2 ∧ stages.getLast? ≠ some pair.1)
    ⟨fun ⟨a, b, c, d, e, f, g⟩ => ⟨a, b, c, d, e, f, g⟩,
      fun ⟨a, b, c, d, e, f, g⟩ => ⟨a, b, c, d, e, f, g⟩⟩

theorem neighbours_of_mem (there : PerStage Bool) :
    ∀ pair ∈ neighbours (stagesWith there), Neighbours (stagesWith there) pair := by
  obtain ⟨vertex, geometry, fragment⟩ := there
  revert vertex geometry fragment
  decide

theorem neighbours_apart (there : PerStage Bool) :
    (neighbours (stagesWith there)).reverse.Pairwise
      fun one other => one.1 ≠ other.1 ∧ one.2 ≠ other.2 := by
  obtain ⟨vertex, geometry, fragment⟩ := there
  revert vertex geometry fragment
  decide

theorem last_of_first (there : PerStage Bool) :
    (stagesWith there).head? = some .fragment → (stagesWith there).getLast? = some .fragment := by
  obtain ⟨vertex, geometry, fragment⟩ := there
  revert vertex geometry fragment
  decide

/-! ## Sides along a narrowing -/

theorem StageWise.origin {before after : Executables}
    (narrowed : StageWise (fun _ => Shader.Narrowed) before after) {stage : Stage}
    {mode : VariableMode} (is_interface : mode.isInterface = true) {declared : Variable}
    (listed : declared ∈ Shader.side mode (after.get stage)) :
    ∃ origin ∈ Shader.side mode (before.get stage), origin.SameButPlace declared := by
  obtain ⟨shader, found, in_generics⟩ := Shader.mem_side.mp listed
  obtain ⟨before_here, was, narrowed_here⟩ := narrowed.origin_of found
  obtain ⟨origin, in_origin, same⟩ :=
    narrowed_here.origin mode is_interface declared in_generics
  exact ⟨origin, Shader.mem_side.mpr ⟨before_here, was, in_origin⟩, same⟩

/-- The outputs of every stage match the inputs of the next. -/
def AllMatched (executables : Executables) : Prop :=
  ∀ pair ∈ neighbours (stagesOf executables), Boundary.AllMatch pair.2
    (Shader.side .shaderOut (executables.get pair.1))
    (Shader.side .shaderIn (executables.get pair.2))

theorem stagesOf_narrowed {related : Stage → Shader → Shader → Prop} {before after : Executables}
    (stage_wise : StageWise related before after) : stagesOf after = stagesOf before :=
  List.filter_congr fun stage _ => stage_wise.isSome stage

theorem AllMatched.narrowed {before after : Executables} (matched : AllMatched before)
    (narrowed : StageWise (fun _ => Shader.Narrowed) before after) : AllMatched after := by
  intro pair listed output output_listed input input_listed named
  rw [stagesOf_narrowed narrowed] at listed
  obtain ⟨output_was, in_outputs, same⟩ := narrowed.origin rfl output_listed
  obtain ⟨input_was, in_inputs, same_input⟩ := narrowed.origin rfl input_listed
  have named_before : output_was.name = input_was.name := by
    rw [← same.name, ← same_input.name, named]
  exact (matched pair listed output_was in_outputs input_was in_inputs named_before).moved same
    same_input

/-- Executables that go together: each is a tidy one of its stage, the outputs of every stage match
the inputs of the next, and there is no geometry stage without a vertex stage. -/
structure Conforming (executables : Executables) : Prop where
  in_place : TidyInPlace executables
  all_matched : AllMatched executables
  rooted : (executables.get .geometry).isSome = true → (executables.get .vertex).isSome = true

theorem Conforming.narrowed {before after : Executables} (conforming : Conforming before)
    (narrowed : StageWise (fun _ => Shader.Narrowed) before after) : Conforming after := by
  refine ⟨conforming.in_place.narrowed narrowed, conforming.all_matched.narrowed narrowed, ?_⟩
  rw [narrowed.isSome, narrowed.isSome]
  exact conforming.rooted

/-! ## Attributes -/

/-- What allocating attributes makes of the executables. -/
structure SettlesAttributes (target : AttributeTarget) (at_stage : Stage)
    (before after : Executables) : Prop where
  narrowed : StageWise (fun _ => Shader.Narrowed) before after
  others : ∀ stage mode, (stage, mode) ≠ (at_stage, target.mode) →
    Shader.side mode (after.get stage) ⊆ Shader.side mode (before.get stage)
  located : ∀ declared ∈ Shader.side target.mode (after.get at_stage),
    declared.location.isSome = true
  separate : Variable.Separate (fun ty => ty) (Shader.side target.mode (after.get at_stage))

theorem settlesAttributes_of_allocate {stage : Stage} {target : AttributeTarget} {limit : Nat}
    {bindings : Bindings} {shader allocated : Shader} (in_place : TidyInPlace executables)
    (found : executables.get stage = some shader)
    (allocates : Attribute.allocate target limit bindings shader = .ok (allocated, none)) :
    SettlesAttributes target stage executables (executables.set stage (some allocated)) := by
  obtain ⟨-, tidy⟩ := in_place stage shader found
  obtain ⟨located, separate, others⟩ := Attribute.allocate_generics tidy allocates
  have now : (executables.set stage (some allocated)).get stage = some allocated :=
    PerStage.get_set_same ..
  have rest : ∀ other, other ≠ stage →
      (executables.set stage (some allocated)).get other = executables.get other :=
    fun other different => PerStage.get_set_other _ _ (Ne.symm different)
  refine ⟨narrowed_of_get found now (Attribute.allocate_revised allocates).narrowed rest,
    fun other mode elsewhere declared listed => ?_, ?_, ?_⟩
  · by_cases here : other = stage
    · subst here
      have different : mode ≠ target.mode := fun same => elsewhere (by rw [same])
      rw [now] at listed
      obtain ⟨_, ⟨⟩, in_generics⟩ := Shader.mem_side.mp listed
      exact Shader.mem_side.mpr ⟨shader, found, others mode different in_generics⟩
    · rwa [rest other here] at listed
  · rw [now]
    simpa [Shader.side] using located
  · rw [now]
    simpa [Shader.side] using separate

theorem assignAttributes_meets {stage : Stage} {target : AttributeTarget} {limit : Nat}
    {bindings : Bindings} (in_place : TidyInPlace executables) :
    Meets Failed (Has executables) (assignAttributes stage target limit bindings)
      fun _ outcome => SettlesAttributes target stage executables outcome.executables := by
  refine Meets.atExecutable (fun shader found => ?_) fun absent outcome has => ?_
  · refine Meets.through (fun answer outcome => Has executables outcome ∧
        Attribute.allocate target limit bindings shader = .ok answer)
      (Meets.lift fun _ _ has runs => ⟨has, runs⟩) fun answer => Meets.given fun allocates => ?_
    obtain ⟨allocated, failure⟩ := answer
    refine Meets.bind (Meets.store_has stage _) fun _ => ?_
    refine Meets.surrender (fun outcome has none_failed => ?_)
      fun outcome cause _ => failed_errors outcome (by simp)
    have has : outcome.executables = executables.set stage (some allocated) := has
    rw [has]
    exact settlesAttributes_of_allocate in_place found (none_failed ▸ allocates)
  · have has : outcome.executables = executables := has
    rw [has]
    refine ⟨.refl (fun _ => .refl) _, fun _ _ _ _ listed => listed, ?_, ?_⟩
    · simp [absent, Shader.side]
    · simp [absent, Shader.side, Variable.Separate]

/-! ## Requested names -/

/-- The names of the variables that are to be captured, as a whole or one element of them. -/
def requestedNames (request : FeedbackRequest) : List String :=
  request.varyings.filterMap fun requested => (ResourceName.parse requested).toOption.map (·.base)

theorem parseFrom_grants {requested : List String} :
    ∀ {sofar captures : List Capture}, (Capture.parseFrom sofar requested).Grants captures →
      captures.map (·.name.base) = sofar.map (·.name.base) ++
        requested.filterMap fun text => (ResourceName.parse text).toOption.map (·.base) := by
  induction requested with
  | nil =>
      intro sofar captures grants
      obtain rfl := Judged.grants_pure.mp grants
      simp
  | cons first rest ih =>
      intro sofar captures grants
      obtain ⟨name, parses, following⟩ := Judged.grants_bind.mp grants
      split at following
      · simp at following
      · have parsed : ResourceName.parse first = .ok name := Judged.grants_monadLift.mp parses
        rw [ih following]
        simp [parsed, Except.toOption]

theorem requestedCaptures_meets {request : FeedbackRequest} {first : Stage} :
    Meets Failed (Has executables) (requestedCaptures request first) fun captures outcome =>
      Has executables outcome ∧ captures.map (·.name.base) = requestedNames request := by
  unfold requestedCaptures
  split
  · next none_asked =>
      exact Meets.pure fun _ has =>
        ⟨has, by rw [requestedNames, List.isEmpty_iff.mp none_asked]; rfl⟩
  · split
    · exact Meets.fail fun outcome _ => failed_errors outcome (by simp)
    · exact Meets.grant Capture.parseAll_reasoned fun _ captures has grants =>
        ⟨has, parseFrom_grants grants⟩

/-! ## The whole pipeline -/

/-- Executables that may have their locations assigned, every variable of an interface having what
is inherited. -/
structure Ready (holds : Variable → Prop) (executables : Executables) : Prop where
  conforming : Conforming executables
  held : ∀ stage mode, mode.isInterface = true →
    ∀ declared ∈ Shader.side mode (executables.get stage), holds declared

/-- Executables whose locations have been assigned.  The names are those of captured outputs. -/
structure Arranged (holds : Variable → Prop) (limit : Nat) (names : List String)
    (executables : Executables) : Prop where
  conforming : Conforming executables
  inputs_located : ∀ declared ∈ Shader.side .shaderIn (executables.get .vertex),
    declared.location.isSome = true
  inputs_separate : Variable.Separate (fun ty => ty)
    (Shader.side .shaderIn (executables.get .vertex))
  outputs_located : ∀ declared ∈ Shader.side .shaderOut (executables.get .fragment),
    declared.location.isSome = true
  outputs_separate : Variable.Separate (fun ty => ty)
    (Shader.side .shaderOut (executables.get .fragment))
  boundaries : ∀ pair ∈ neighbours (stagesOf executables), Varying.Bounded holds limit
    (if pair.2 = .fragment then names else []) (Boundary.perVertex pair.2)
    (Shader.side .shaderOut (executables.get pair.1))
    (Shader.side .shaderIn (executables.get pair.2))
  last_outputs : ∀ last, (stagesOf executables).getLast? = some last → last ≠ .fragment →
    Varying.Bounded holds limit names (fun ty => ty)
      (Shader.side .shaderOut (executables.get last)) []
  first_inputs : (stagesOf executables).head? = some .fragment →
    Varying.Bounded holds limit [] (fun ty => ty) []
      (Shader.side .shaderIn (executables.get .fragment))

/-- The sides of the second executables are those of the first, or fewer. -/
def Fewer (before after : Executables) : Prop :=
  ∀ stage mode, mode.isInterface = true →
    Shader.side mode (after.get stage) ⊆ Shader.side mode (before.get stage)

/-- Dropping variables keeps the arrangement. -/
theorem Arranged.fewer {holds : Variable → Prop} {limit : Nat} {names : List String}
    {before after : Executables} (arranged : Arranged holds limit names before)
    (narrowed : StageWise (fun _ => Shader.Narrowed) before after) (fewer : Fewer before after) :
    Arranged holds limit names after := by
  have stages := stagesOf_narrowed narrowed
  refine ⟨arranged.conforming.narrowed narrowed,
    fun declared listed => arranged.inputs_located declared (fewer _ _ rfl listed),
    fun one one_listed other other_listed =>
      arranged.inputs_separate one (fewer _ _ rfl one_listed) other (fewer _ _ rfl other_listed),
    fun declared listed => arranged.outputs_located declared (fewer _ _ rfl listed),
    fun one one_listed other other_listed =>
      arranged.outputs_separate one (fewer _ _ rfl one_listed) other (fewer _ _ rfl other_listed),
    fun pair listed => ?_, fun last is_last not_fragment => ?_, fun is_first => ?_⟩
  · rw [stages] at listed
    exact (arranged.boundaries pair listed).mono (fewer _ _ rfl) (fewer _ _ rfl)
  · rw [stages] at is_last
    exact (arranged.last_outputs last is_last not_fragment).mono (fewer _ _ rfl)
      fun _ listed => listed
  · rw [stages] at is_first
    exact (arranged.first_inputs is_first).mono (fun _ listed => listed) (fewer _ _ rfl)

/-! ## Assigning locations -/

/-- Executables whose locations have been forgotten. -/
structure Unplaced (holds : Variable → Prop) (executables : Executables) : Prop where
  conforming : Conforming executables
  is_open : ∀ stage mode, mode.isInterface = true →
    ∀ declared ∈ Shader.side mode (executables.get stage), declared.Open ∧ holds declared

theorem open_invalidate {mode : VariableMode} {declared : Variable}
    (is_interface : mode.isInterface = true) (generic : Varying.isGeneric mode declared = true) :
    (Varying.invalidate declared).Open := by
  simp only [Varying.isGeneric, Bool.and_eq_true, decide_eq_true_eq] at generic
  obtain ⟨of_mode, not_builtin⟩ := generic
  unfold Varying.invalidate
  rw [of_mode, is_interface]
  cases explicit : declared.explicitLocation <;> simp_all [Variable.Open]

theorem invalidate_meets {holds : Variable → Prop} (inherited : Inherited holds)
    (ready : Ready holds executables) :
    Meets Failed (Has executables)
      (updateExecutables fun shader => monadLift (shader.modifyGlobals Varying.invalidate))
      fun _ outcome => Unplaced holds outcome.executables := by
  let Invalidated (_ : Stage) (before after : Shader) : Prop :=
    before.Narrowed after ∧ ∀ mode, after.generics mode =
      (before.generics mode).map Varying.invalidate
  have changes : Meets Failed (Has executables)
      (updateExecutables fun shader => monadLift (shader.modifyGlobals Varying.invalidate))
      fun _ outcome => StageWise Invalidated executables outcome.executables := by
    refine Meets.updateExecutables fun stage shader current found => ?_
    obtain ⟨-, tidy⟩ := ready.conforming.in_place stage shader found
    exact Meets.lift fun _ changed has runs => ⟨has, Shader.Revised.narrowed
      (Shader.revised_modifyVariables .refl .trans Variable.SameButPlace.invalidate runs),
      fun _ => Shader.generics_invalidated tidy runs⟩
  refine changes.weaken (fun _ has => has) fun _ outcome invalidated => ?_
  have narrowed : StageWise (fun _ => Shader.Narrowed) executables outcome.executables :=
    invalidated.imp fun _ _ _ related => related.1
  refine ⟨ready.conforming.narrowed narrowed, fun stage mode is_interface declared listed => ?_⟩
  obtain ⟨changed, now, in_generics⟩ := Shader.mem_side.mp listed
  obtain ⟨shader, was, -, mapped⟩ := invalidated.origin_of now
  rw [mapped] at in_generics
  obtain ⟨origin, in_origin, rfl⟩ := List.mem_map.mp in_generics
  exact ⟨open_invalidate is_interface (List.mem_filter.mp in_origin).2,
    inherited.invalidate
      (ready.held stage mode is_interface origin (Shader.mem_side.mpr ⟨shader, was, in_origin⟩))⟩

/-- Executables whose attributes have been allocated. -/
structure Attributed (holds : Variable → Prop) (executables : Executables) : Prop where
  conforming : Conforming executables
  inputs_located : ∀ declared ∈ Shader.side .shaderIn (executables.get .vertex),
    declared.location.isSome = true
  inputs_separate : Variable.Separate (fun ty => ty)
    (Shader.side .shaderIn (executables.get .vertex))
  outputs_located : ∀ declared ∈ Shader.side .shaderOut (executables.get .fragment),
    declared.location.isSome = true
  outputs_separate : Variable.Separate (fun ty => ty)
    (Shader.side .shaderOut (executables.get .fragment))
  is_open : ∀ stage mode, mode.isInterface = true → (stage, mode) ≠ (.vertex, .shaderIn) →
    (stage, mode) ≠ (.fragment, .shaderOut) →
    ∀ declared ∈ Shader.side mode (executables.get stage), declared.Open ∧ holds declared

theorem attributed_of_settles {holds : Variable → Prop} {first second third : Executables}
    (unplaced : Unplaced holds first)
    (inputs : SettlesAttributes .vertexInputs .vertex first second)
    (outputs : SettlesAttributes .fragmentOutputs .fragment second third) :
    Attributed holds third := by
  have inputs_kept : Shader.side .shaderIn (third.get .vertex) ⊆
      Shader.side .shaderIn (second.get .vertex) := outputs.others _ _ (by simp)
  refine ⟨(unplaced.conforming.narrowed inputs.narrowed).narrowed outputs.narrowed,
    fun declared listed => inputs.located declared (inputs_kept listed),
    fun one one_listed other other_listed =>
      inputs.separate one (inputs_kept one_listed) other (inputs_kept other_listed),
    outputs.located, outputs.separate,
    fun stage mode is_interface not_inputs not_outputs declared listed => ?_⟩
  exact unplaced.is_open stage mode is_interface declared
    (inputs.others stage mode not_inputs (outputs.others stage mode not_outputs listed))

/-- The boundaries are unsettled until it is their turn. -/
theorem Attributed.unsettled {holds : Variable → Prop} {limit : Nat} {captures : List Capture}
    {first last : Stage} {before after : Executables} (attributed : Attributed holds before)
    (is_last : (stagesOf before).getLast? = some last)
    (settles : SettlesEnd holds limit captures first last before after)
    {pair : Stage × Stage} (listed : pair ∈ neighbours (stagesOf before)) :
    pair.1 ≠ pair.2 ∧ Unsettled holds pair.1 pair.2 after ∧
      (after.get pair.1).isSome = true ∧ (after.get pair.2).isSome = true := by
  have known : Neighbours (stagesOf before) pair := by
    rw [stagesOf_eq] at listed ⊢
    exact neighbours_of_mem _ pair listed
  have stages := stagesOf_narrowed settles.narrowed
  have not_last : pair.1 ≠ last := fun same => known.not_last (same ▸ is_last)
  refine ⟨known.different, ⟨fun output in_outputs => ?_, fun input in_inputs => ?_, ?_⟩,
    mem_stagesOf.mp (stages ▸ known.first), mem_stagesOf.mp (stages ▸ known.second)⟩
  · refine attributed.is_open pair.1 .shaderOut rfl (by simp) (by simp [known.not_fragment]) output
      (settles.others _ _ rfl (fun _ => by simp [not_last]) in_outputs)
  · exact attributed.is_open pair.2 .shaderIn rfl (by simp [known.not_vertex]) (by simp) input
      (settles.others _ _ rfl (fun _ => by simp) in_inputs)
  · exact (attributed.conforming.narrowed settles.narrowed).all_matched pair (stages ▸ listed)

/-- When all boundaries and the open end have been settled, everything is arranged. -/
theorem arranged_of_settles {holds : Variable → Prop} {limit : Nat}
    {captures resolved : List Capture} {first last : Stage} {before middle after : Executables}
    (attributed : Attributed holds before) (is_first : (stagesOf before).head? = some first)
    (is_last : (stagesOf before).getLast? = some last)
    (named : resolved.map (·.name) = captures.map (·.name))
    (settles_end : SettlesEnd holds limit captures first last before middle)
    (settles :
      SettlesAll holds limit resolved (neighbours (stagesOf before)).reverse middle after) :
    Arranged holds limit (captures.map (·.name.base)) after := by
  have narrowed : StageWise (fun _ => Shader.Narrowed) before after :=
    settles_end.narrowed.trans (fun _ _ _ _ => Shader.Narrowed.trans) settles.narrowed
  have stages := stagesOf_narrowed narrowed
  have known : ∀ pair ∈ neighbours (stagesOf before), Neighbours (stagesOf before) pair := by
    rw [stagesOf_eq]
    exact neighbours_of_mem _
  have inputs_kept : Shader.side .shaderIn (after.get .vertex) ⊆
      Shader.side .shaderIn (before.get .vertex) := fun _ listed =>
    settles_end.others _ _ rfl (fun _ => by simp) (settles.others _ _ rfl (fun pair in_pairs =>
      ⟨by simp, by simp [(known pair (List.mem_reverse.mp in_pairs)).not_vertex.symm]⟩) listed)
  have outputs_kept : Shader.side .shaderOut (after.get .fragment) ⊆
      Shader.side .shaderOut (before.get .fragment) := fun _ listed =>
    settles_end.others _ _ rfl (fun not_fragment => by simp [not_fragment.symm])
      (settles.others _ _ rfl (fun pair in_pairs =>
        ⟨by simp [(known pair (List.mem_reverse.mp in_pairs)).not_fragment.symm], by simp⟩) listed)
  refine ⟨attributed.conforming.narrowed narrowed,
    fun declared listed => attributed.inputs_located declared (inputs_kept listed),
    fun one one_listed other other_listed =>
      attributed.inputs_separate one (inputs_kept one_listed) other (inputs_kept other_listed),
    fun declared listed => attributed.outputs_located declared (outputs_kept listed),
    fun one one_listed other other_listed =>
      attributed.outputs_separate one (outputs_kept one_listed) other (outputs_kept other_listed),
    fun pair listed => ?_, fun stage stage_last not_fragment => ?_, fun fragment_first => ?_⟩
  · rw [stages] at listed
    have settled := settles.bounded pair (List.mem_reverse.mpr listed)
    rw [capturedBefore_congr named] at settled
    exact settled
  · rw [stages, is_last] at stage_last
    obtain rfl := Option.some.inj stage_last
    refine (settles_end.outputs not_fragment).mono (settles.others _ _ rfl fun pair in_pairs => ?_)
      fun _ listed => listed
    have not_last := (known pair (List.mem_reverse.mp in_pairs)).not_last
    exact ⟨by simp; rintro rfl; exact not_last is_last, by simp⟩
  · rw [stages, is_first] at fragment_first
    obtain rfl := Option.some.inj fragment_first
    have alone : last = .fragment := by
      rw [stagesOf_eq] at is_first is_last
      exact Option.some.inj (is_last.symm.trans (last_of_first _ is_first))
    subst alone
    refine (settles_end.inputs rfl rfl).mono (fun _ listed => listed)
      (settles.others _ _ rfl fun pair in_pairs => ?_)
    have not_first := (known pair (List.mem_reverse.mp in_pairs)).not_first
    exact ⟨by simp, by simp; rintro same; exact not_first (same ▸ is_first)⟩

/-- Without any stage there is nothing to arrange. -/
theorem arranged_of_none {holds : Variable → Prop} {limit : Nat} {names : List String}
    (attributed : Attributed holds executables) (no_stages : stagesOf executables = []) :
    Arranged holds limit names executables := by
  refine ⟨attributed.conforming, attributed.inputs_located, attributed.inputs_separate,
    attributed.outputs_located, attributed.outputs_separate, ?_, ?_, ?_⟩
  · simp [no_stages, neighbours]
  · simp [no_stages]
  · simp [no_stages]

theorem assignLocations_meets {holds : Variable → Prop} (inherited : Inherited holds)
    {limits : Limits} {program : Program} (ready : Ready holds executables) :
    Meets Failed (Has executables) (assignLocations limits program) fun _ outcome =>
      Arranged holds limits.varyingSlots (requestedNames program.feedback)
        outcome.executables := by
  refine Meets.bind (invalidate_meets inherited ready) fun _ => ?_
  refine Meets.fromExecutables fun first unplaced => ?_
  refine Meets.bind (assignAttributes_meets unplaced.conforming.in_place) fun _ => ?_
  refine Meets.fromExecutables fun second inputs => ?_
  refine Meets.bind (assignAttributes_meets (unplaced.conforming.in_place.narrowed inputs.narrowed))
    fun _ => ?_
  refine Meets.fromExecutables fun third outputs => ?_
  have attributed := attributed_of_settles unplaced inputs outputs
  generalize third.executables = executables at attributed
  refine Meets.bind Meets.get_has fun read => Meets.given fun same => ?_
  have stages : read.presentStages = stagesOf executables := by rw [← same]; rfl
  rw [stages]
  dsimp only
  split
  · next first last is_first is_last =>
      refine Meets.bind requestedCaptures_meets fun requested => Meets.given fun asked => ?_
      have last_there := mem_stagesOf.mp (List.mem_of_getLast? is_last)
      refine Meets.bind (assignOpenEnd_meets attributed.conforming.in_place last_there
        (fun not_fragment => attributed.is_open last .shaderOut rfl (by simp)
          (by simp [not_fragment]))
        fun alone => ?_) fun captures => ?_
      · have last_too : last = .fragment := by
          rw [alone] at is_first
          rw [stagesOf_eq] at is_first is_last
          exact Option.some.inj (is_last.symm.trans (last_of_first _ is_first))
        exact attributed.is_open last .shaderIn rfl (by simp [last_too]) (by simp)
      · refine Meets.fromExecutables ?_
        rintro middle ⟨named, settles_end⟩
        have apart := neighbours_apart (executables.map (·.isSome))
        rw [← stagesOf_eq] at apart
        refine Meets.bind (assignBoundaries_meets middle.executables captures
          (attributed.conforming.in_place.narrowed settles_end.narrowed) apart fun pair listed =>
            attributed.unsettled is_last settles_end (List.mem_reverse.mp listed))
              fun resolved => ?_
        refine Meets.through (fun _ outcome => Arranged holds limits.varyingSlots
            (requestedNames program.feedback) outcome.executables)
          (Meets.accept ?_ fun outcome cause _ => failed_errors outcome (by simp)) fun _ =>
            Meets.modify fun _ arranged => arranged
        rintro outcome _ ⟨-, settles⟩ -
        exact asked ▸ arranged_of_settles attributed is_first is_last named settles_end settles
  · next absent =>
      refine Meets.pure fun outcome has => ?_
      have has : outcome.executables = executables := has
      rw [has]
      refine arranged_of_none attributed ?_
      cases listed : stagesOf executables with
      | nil => rfl
      | cons first rest =>
          exact (absent first _ (by rw [listed]; rfl)
            (by rw [listed]; exact List.getLast?_eq_some_getLast (by simp))).elim

end Linking
end StageLink
