import StageLink.Proofs.Captures
import StageLink.Proofs.Phases
import StageLink.Proofs.Reasons
import StageLink.Proofs.Sides

/-!
# Locations of a pipeline

Boundaries are settled one after the other.  Settling one of them changes where the outputs before
it and the inputs behind it are, and from all other sides it only drops variables; so what one
boundary has settled survives the others, as it survives every later phase.
-/

namespace StageLink

/-! ## Executables that lose variables -/

namespace Shader

/-- The second executable has variables of the first, perhaps in other places. -/
structure Narrowed (before after : Shader) : Prop where
  stage : after.stage = before.stage
  tidy : before.Tidy → after.Tidy
  origin : ∀ mode, mode.isInterface = true → ∀ declared ∈ after.generics mode,
    ∃ origin ∈ before.generics mode, origin.SameButPlace declared

namespace Narrowed

variable {first second third : Shader}

theorem refl (shader : Shader) : Narrowed shader shader :=
  ⟨rfl, fun tidy => tidy, fun _ _ declared listed => ⟨declared, listed, .refl declared⟩⟩

theorem trans (before : Narrowed first second) (after : Narrowed second third) :
    Narrowed first third := by
  refine ⟨after.stage.trans before.stage, fun tidy => after.tidy (before.tidy tidy),
    fun mode is_interface declared listed => ?_⟩
  obtain ⟨halfway, halfway_listed, same⟩ := after.origin mode is_interface declared listed
  obtain ⟨origin, origin_listed, same_before⟩ :=
    before.origin mode is_interface halfway halfway_listed
  exact ⟨origin, origin_listed, same_before.trans _ _ _ same⟩

end Narrowed

theorem Revised.narrowed {before after : Shader}
    (revised : Revised Variable.SameButPlace before after) : Narrowed before after := by
  refine ⟨by rw [revised.same], revised.tidy fun _ _ same => same.name,
    fun mode _ declared listed => ?_⟩
  obtain ⟨is_declared, generic⟩ := List.mem_filter.mp listed
  obtain ⟨origin, was, same⟩ := revised.mem_declared is_declared
  exact ⟨origin, List.mem_filter.mpr ⟨was, same.isGeneric mode ▸ generic⟩, same⟩

/-- The second executable has variables of the first, and none that are unmatched of the mode. -/
structure Cleared (mode : VariableMode) (before after : Shader) : Prop where
  stage : after.stage = before.stage
  tidy : after.Tidy
  fewer : ∀ other, other.isInterface = true → ∀ declared ∈ after.generics other,
    declared ∈ before.generics other ∧ (other = mode → declared.unmatched = false)

theorem Cleared.narrowed {mode : VariableMode} {before after : Shader}
    (cleared : Cleared mode before after) : Narrowed before after :=
  ⟨cleared.stage, fun _ => cleared.tidy, fun other is_interface declared listed =>
    ⟨declared, (cleared.fewer other is_interface declared listed).1, .refl declared⟩⟩

/-- Unmatched variables and dead code go. -/
theorem cleared_of_demote {mode : VariableMode} {before demoted : Shader} (tidy : before.Tidy)
    (runs : before.modifyGlobals (Varying.demote mode) = .ok demoted) :
    Cleared mode before demoted.removeAllDeadCode := by
  obtain ⟨same, -, -, -⟩ := modifyVariables_eq_ok runs
  have demoted_tidy : demoted.Tidy := by
    have revised : Revised (fun one other => other.name = one.name) before demoted :=
      revised_modifyVariables (fun _ => rfl) (fun _ _ _ one other => other.trans one)
        (fun declared => by unfold Varying.demote; split <;> rfl) runs
    exact revised.tidy (fun _ _ named => named) tidy
  have thinned := thinned_removeAllDeadCode demoted_tidy.flat
  refine ⟨by rw [thinned.stage, same], thinned.tidy demoted_tidy,
    fun other is_interface declared listed => ?_⟩
  exact mem_generics_demoted tidy is_interface runs (thinned.generics other listed)

end Shader

namespace Linking

/-- Every executable belongs to its stage and is tidy. -/
def TidyInPlace (executables : Executables) : Prop :=
  ∀ stage shader, executables.get stage = some shader → shader.stage = stage ∧ shader.Tidy

theorem TidyInPlace.narrowed {before after : Executables} (in_place : TidyInPlace before)
    (narrowed : StageWise (fun _ => Shader.Narrowed) before after) : TidyInPlace after := by
  intro stage shader found
  obtain ⟨origin, was, narrowed_here⟩ := narrowed.origin_of found
  obtain ⟨of_stage, tidy⟩ := in_place stage origin was
  exact ⟨narrowed_here.stage.trans of_stage, narrowed_here.tidy tidy⟩

variable {executables : Executables}

/-! ## One boundary -/

theorem demote_meets {mode : VariableMode} {shader : Shader} (tidy : shader.Tidy) :
    Meets Failed (Has executables) (demote mode shader) fun demoted outcome =>
      Has executables outcome ∧ Shader.Cleared mode shader demoted.removeAllDeadCode :=
  Meets.lift fun _ _ has runs => ⟨has, Shader.cleared_of_demote tidy runs⟩

theorem clearBoundary_meets {limits : Limits} {producerStage consumerStage : Stage}
    {producer consumer : Shader} (producer_tidy : producer.Tidy) (consumer_tidy : consumer.Tidy) :
    Meets Failed (Has executables)
      (clearBoundary limits producerStage consumerStage producer consumer) fun _ outcome =>
        ∃ producer' consumer', Shader.Cleared .shaderOut producer producer' ∧
          Shader.Cleared .shaderIn consumer consumer' ∧
          Has ((executables.set producerStage (some producer')).set consumerStage (some consumer'))
            outcome := by
  refine Meets.bind (demote_meets producer_tidy) fun outputs => Meets.given fun cleared => ?_
  refine Meets.bind (demote_meets consumer_tidy) fun inputs => Meets.given fun cleared_inputs => ?_
  refine Meets.bind (Meets.store_has producerStage _) fun _ => ?_
  refine Meets.bind (Meets.store_has consumerStage _) fun _ => ?_
  refine Meets.through (fun _ => Has _)
    (Meets.grant Varying.checkOutputs_reasoned fun _ _ has _ => has) fun _ => ?_
  exact Meets.grant Varying.checkInputs_reasoned fun _ _ has _ =>
    ⟨_, _, cleared, cleared_inputs, has⟩

theorem resolve_name {producer : Shader} {capture resolved : Capture}
    (grants : (Capture.resolve producer capture).Grants resolved) :
    resolved.name = capture.name := by
  obtain ⟨_, _, -, -, rfl⟩ := Capture.resolve_grants grants
  rfl

theorem resolveCaptures_meets {producer : Shader} (captures : List Capture) :
    Meets Failed (Has executables) (resolveCaptures producer captures) fun resolved outcome =>
      Has executables outcome ∧ resolved.map (·.name) = captures.map (·.name) := by
  induction captures with
  | nil => exact Meets.pure fun _ has => ⟨has, rfl⟩
  | cons capture captures ih =>
      rw [resolveCaptures, List.mapM_cons]
      refine Meets.through (fun resolved outcome => Has executables outcome ∧
        resolved.name = capture.name) (Meets.grant Capture.resolve_reasoned
        fun _ _ has grants => ⟨has, resolve_name grants⟩) fun resolved =>
          Meets.given fun named => ?_
      refine Meets.bind ih fun rest => Meets.given fun named_rest => ?_
      exact Meets.pure fun _ has => ⟨has, by rw [List.map_cons, List.map_cons, named, named_rest]⟩

theorem capturesBefore_meets {stage : Stage} {producer : Shader} {captures : List Capture} :
    Meets Failed (Has executables) (capturesBefore stage producer captures) fun resolved outcome =>
      Has executables outcome ∧ resolved.map (·.name) = captures.map (·.name) := by
  unfold capturesBefore
  split
  · exact resolveCaptures_meets captures
  · exact Meets.pure fun _ has => ⟨has, rfl⟩

/-- What settling a boundary makes of the executables. -/
structure Settles (holds : Variable → Prop) (limit : Nat) (captured : List String)
    (producer consumer : Stage) (before after : Executables) : Prop where
  narrowed : StageWise (fun _ => Shader.Narrowed) before after
  others : ∀ stage mode, mode.isInterface = true → (stage, mode) ≠ (producer, .shaderOut) →
    (stage, mode) ≠ (consumer, .shaderIn) →
    Shader.side mode (after.get stage) ⊆ Shader.side mode (before.get stage)
  bounded : Varying.Bounded holds limit captured (Boundary.perVertex consumer)
    (Shader.side .shaderOut (after.get producer)) (Shader.side .shaderIn (after.get consumer))

/-- What a boundary needs before it can be settled. -/
structure Unsettled (holds : Variable → Prop) (producer consumer : Stage)
    (executables : Executables) : Prop where
  outputs : ∀ output ∈ Shader.side .shaderOut (executables.get producer),
    output.Open ∧ holds output
  inputs : ∀ input ∈ Shader.side .shaderIn (executables.get consumer), input.Open ∧ holds input
  all_match : Boundary.AllMatch consumer (Shader.side .shaderOut (executables.get producer))
    (Shader.side .shaderIn (executables.get consumer))

/-- An allocation of a boundary after which unmatched variables have gone settles it. -/
theorem settles_of_allocate {holds : Variable → Prop} {limit : Nat} {captured : List String}
    {before after : Executables} {producerStage consumerStage : Stage}
    {producer consumer producer' consumer' : Shader} {allocation : Varying.Allocation}
    (in_place : TidyInPlace before) (unsettled : Unsettled holds producerStage consumerStage before)
    (is_producer : before.get producerStage = some producer)
    (is_consumer : before.get consumerStage = some consumer)
    (allocates : Varying.allocate captured limit producer (some consumer) = .ok (allocation, none))
    (cleared : Shader.Cleared .shaderOut allocation.producer producer')
    (cleared_inputs : Shader.Cleared .shaderIn (allocation.consumer.getD consumer) consumer')
    (now_producer : after.get producerStage = some producer')
    (now_consumer : after.get consumerStage = some consumer')
    (rest : ∀ stage, stage ≠ producerStage → stage ≠ consumerStage →
      after.get stage = before.get stage) :
    Settles holds limit captured producerStage consumerStage before after := by
  have producer_tidy := (in_place _ producer is_producer).2
  have opposite_tidy : ∀ other, some consumer = some other → other.Tidy := by
    rintro _ ⟨⟩
    exact (in_place _ consumer is_consumer).2
  obtain ⟨producer_revised, consumer_revised⟩ := Varying.allocate_sameSides allocates
  have others := Varying.allocate_others producer_tidy opposite_tidy allocates
  obtain ⟨middle, is_middle, inputs_revised⟩ := exists_of_rel consumer_revised
  rw [is_middle, Option.getD_some] at cleared_inputs
  have outputs_narrowed := producer_revised.narrowed.trans cleared.narrowed
  have inputs_narrowed := inputs_revised.narrowed.trans cleared_inputs.narrowed
  refine ⟨fun stage => ?_, fun stage mode is_interface not_outputs not_inputs declared listed => ?_,
    ?_⟩
  · by_cases here : stage = producerStage
    · rw [here, is_producer, now_producer]
      exact .some outputs_narrowed
    · by_cases there : stage = consumerStage
      · rw [there, is_consumer, now_consumer]
        exact .some inputs_narrowed
      · rw [rest stage here there]
        exact StageWise.refl (fun _ => Shader.Narrowed.refl) before stage
  · by_cases here : stage = producerStage
    · subst here
      have different : mode ≠ .shaderOut := fun same => not_outputs (by rw [same])
      rw [now_producer, Shader.side_some] at listed
      rw [is_producer, Shader.side_some, ← (others mode).1 different]
      exact (cleared.fewer mode is_interface declared listed).1
    · by_cases there : stage = consumerStage
      · subst there
        have different : mode ≠ .shaderIn := fun same => not_inputs (by rw [same])
        rw [now_consumer, Shader.side_some] at listed
        rw [is_consumer, ← (others mode).2 different, is_middle, Shader.side_some]
        exact (cleared_inputs.fewer mode is_interface declared listed).1
      · rwa [← rest stage here there]
  · have outputs_open := unsettled.outputs
    have inputs_open := unsettled.inputs
    have all_match := unsettled.all_match
    rw [is_producer, Shader.side_some] at outputs_open all_match
    rw [is_consumer] at inputs_open all_match
    refine Varying.allocate_bounded producer_tidy opposite_tidy outputs_open inputs_open all_match
      allocates (fun output listed => ?_) (fun input listed => ?_)
    · rw [now_producer, Shader.side_some] at listed
      obtain ⟨was, matched⟩ := cleared.fewer .shaderOut rfl output listed
      exact ⟨was, matched rfl⟩
    · rw [now_consumer, Shader.side_some] at listed
      obtain ⟨was, matched⟩ := cleared_inputs.fewer .shaderIn rfl input listed
      rw [is_middle, Shader.side_some]
      exact ⟨was, matched rfl⟩

theorem assignBoundary_meets {holds : Variable → Prop} {limits : Limits}
    {producerStage consumerStage : Stage} {captures : List Capture}
    (in_place : TidyInPlace executables) (different : producerStage ≠ consumerStage)
    (unsettled : Unsettled holds producerStage consumerStage executables)
    (producer_there : (executables.get producerStage).isSome = true)
    (consumer_there : (executables.get consumerStage).isSome = true) :
    Meets Failed (Has executables)
      (assignBoundary limits producerStage consumerStage captures) fun resolved outcome =>
        resolved.map (·.name) = captures.map (·.name) ∧
          Settles holds limits.varyingSlots (capturedBefore consumerStage captures) producerStage
            consumerStage executables outcome.executables := by
  obtain ⟨producer, is_producer⟩ := Option.isSome_iff_exists.mp producer_there
  obtain ⟨consumer, is_consumer⟩ := Option.isSome_iff_exists.mp consumer_there
  obtain ⟨-, producer_tidy⟩ := in_place _ producer is_producer
  obtain ⟨-, consumer_tidy⟩ := in_place _ consumer is_consumer
  refine Meets.bind Meets.get_has fun read => Meets.given fun same => ?_
  simp only [same, is_producer, is_consumer]
  refine Meets.through (fun answer outcome => Has executables outcome ∧
      Varying.allocate (capturedBefore consumerStage captures) limits.varyingSlots producer
        (some consumer) = .ok answer)
    (Meets.lift fun _ _ has runs => ⟨has, runs⟩) fun answer => Meets.given fun allocates => ?_
  obtain ⟨allocation, failure⟩ := answer
  dsimp only
  obtain ⟨producer_revised, consumer_revised⟩ := Varying.allocate_sameSides allocates
  have opposite_tidy : (allocation.consumer.getD consumer).Tidy := by
    obtain ⟨middle, is_middle, inputs_revised⟩ := exists_of_rel consumer_revised
    rw [is_middle]
    exact inputs_revised.narrowed.tidy consumer_tidy
  refine Meets.bind (Meets.store_has producerStage _) fun _ => ?_
  refine Meets.bind (Meets.store_has consumerStage _) fun _ => ?_
  refine Meets.through (fun _ outcome => Has _ outcome ∧ failure = none)
    (Meets.surrender (fun _ has none_failed => ⟨has, none_failed⟩)
      fun outcome cause _ => failed_errors outcome (by simp)) fun _ => Meets.given ?_
  rintro rfl
  refine Meets.bind capturesBefore_meets fun resolved => Meets.given fun named => ?_
  refine Meets.bind (clearBoundary_meets (producer_revised.narrowed.tidy producer_tidy)
    opposite_tidy) fun _ => ?_
  refine Meets.pure ?_
  rintro outcome ⟨producer', consumer', cleared, cleared_inputs, has⟩
  refine ⟨named, settles_of_allocate in_place unsettled is_producer is_consumer allocates cleared
    cleared_inputs ?_ ?_ fun stage not_producer not_consumer => ?_⟩
  · rw [has, PerStage.get_set_other _ _ different.symm, PerStage.get_set_same]
  · rw [has, PerStage.get_set_same]
  · rw [has, PerStage.get_set_other _ _ (Ne.symm not_consumer),
      PerStage.get_set_other _ _ (Ne.symm not_producer),
      PerStage.get_set_other _ _ (Ne.symm not_consumer),
      PerStage.get_set_other _ _ (Ne.symm not_producer)]

/-! ## All boundaries -/

theorem capturedBefore_congr {stage : Stage} {captures others : List Capture}
    (same : others.map (·.name) = captures.map (·.name)) :
    capturedBefore stage others = capturedBefore stage captures := by
  have bases : others.map (·.name.base) = captures.map (·.name.base) := by
    have mapped := congrArg (List.map (·.base)) same
    rwa [List.map_map, List.map_map] at mapped
  rw [capturedBefore, capturedBefore, bases]

theorem Unsettled.mono {holds : Variable → Prop} {producer consumer : Stage}
    {before after : Executables} (unsettled : Unsettled holds producer consumer before)
    (outputs : Shader.side .shaderOut (after.get producer) ⊆
      Shader.side .shaderOut (before.get producer))
    (inputs : Shader.side .shaderIn (after.get consumer) ⊆
      Shader.side .shaderIn (before.get consumer)) :
    Unsettled holds producer consumer after :=
  ⟨fun output listed => unsettled.outputs output (outputs listed),
    fun input listed => unsettled.inputs input (inputs listed),
    fun output output_listed input input_listed =>
      unsettled.all_match output (outputs output_listed) input (inputs input_listed)⟩

/-- What settling some boundaries makes of the executables. -/
structure SettlesAll (holds : Variable → Prop) (limit : Nat) (captures : List Capture)
    (pairs : List (Stage × Stage)) (before after : Executables) : Prop where
  narrowed : StageWise (fun _ => Shader.Narrowed) before after
  others : ∀ stage mode, mode.isInterface = true →
    (∀ pair ∈ pairs, (stage, mode) ≠ (pair.1, .shaderOut) ∧ (stage, mode) ≠ (pair.2, .shaderIn)) →
    Shader.side mode (after.get stage) ⊆ Shader.side mode (before.get stage)
  bounded : ∀ pair ∈ pairs, Varying.Bounded holds limit (capturedBefore pair.2 captures)
    (Boundary.perVertex pair.2) (Shader.side .shaderOut (after.get pair.1))
    (Shader.side .shaderIn (after.get pair.2))

theorem SettlesAll.nil {holds : Variable → Prop} {limit : Nat} (captures : List Capture)
    (executables : Executables) : SettlesAll holds limit captures [] executables executables :=
  ⟨StageWise.refl (fun _ => Shader.Narrowed.refl) executables,
    fun _ _ _ _ => List.Subset.refl _, fun _ listed => (by cases listed)⟩

/-- Settling boundaries leaves one settled that shares no side with them. -/
theorem SettlesAll.cons {holds : Variable → Prop} {limit : Nat} {captures resolved : List Capture}
    {producer consumer : Stage} {pairs : List (Stage × Stage)} {before middle after : Executables}
    (apart : ∀ pair ∈ pairs, producer ≠ pair.1 ∧ consumer ≠ pair.2)
    (named : resolved.map (·.name) = captures.map (·.name))
    (settles : Settles holds limit (capturedBefore consumer captures) producer
      consumer before middle)
    (rest : SettlesAll holds limit resolved pairs middle after) :
    SettlesAll holds limit captures ((producer, consumer) :: pairs) before after where
  narrowed := settles.narrowed.trans (fun _ _ _ _ => Shader.Narrowed.trans) rest.narrowed
  others := by
    intro stage mode is_interface elsewhere
    have here := elsewhere _ (List.mem_cons_self ..)
    have first := settles.others stage mode is_interface here.1 here.2
    exact List.Subset.trans (rest.others stage mode is_interface fun other in_rest =>
      elsewhere other (List.mem_cons_of_mem _ in_rest)) first
  bounded := by
    intro other listed
    rcases List.mem_cons.mp listed with rfl | later
    · refine settles.bounded.mono ?_ ?_
      · exact rest.others _ _ rfl fun pair in_rest => ⟨by simp [(apart pair in_rest).1], by simp⟩
      · exact rest.others _ _ rfl fun pair in_rest => ⟨by simp, by simp [(apart pair in_rest).2]⟩
    · have settled := rest.bounded other later
      rwa [capturedBefore_congr named] at settled

/-- Boundaries that share no side are settled one after the other. -/
theorem assignBoundaries_meets {holds : Variable → Prop} {limits : Limits}
    {pairs : List (Stage × Stage)} :
    ∀ (executables : Executables) (captures : List Capture), TidyInPlace executables →
      pairs.Pairwise (fun one other => one.1 ≠ other.1 ∧ one.2 ≠ other.2) →
      (∀ pair ∈ pairs, pair.1 ≠ pair.2 ∧ Unsettled holds pair.1 pair.2 executables ∧
        (executables.get pair.1).isSome = true ∧ (executables.get pair.2).isSome = true) →
      Meets Failed (Has executables) (assignBoundaries limits pairs captures)
        fun resolved outcome => resolved.map (·.name) = captures.map (·.name) ∧
          SettlesAll holds limits.varyingSlots captures pairs executables outcome.executables := by
  induction pairs with
  | nil =>
      intro executables captures _ _ _
      refine Meets.pure fun outcome has => ⟨rfl, ?_⟩
      have has : outcome.executables = executables := has
      rw [has]
      exact .nil captures executables
  | cons pair pairs ih =>
      intro executables captures in_place apart each
      obtain ⟨producer, consumer⟩ := pair
      obtain ⟨apart_first, apart_rest⟩ := List.pairwise_cons.mp apart
      obtain ⟨different, unsettled, producer_there, consumer_there⟩ :=
        each _ (List.mem_cons_self ..)
      refine Meets.bind (assignBoundary_meets in_place different unsettled producer_there
        consumer_there) fun resolved => ?_
      refine Meets.fromExecutables ?_
      rintro middle ⟨named, settles⟩
      have each_rest : ∀ other ∈ pairs, other.1 ≠ other.2 ∧
          Unsettled holds other.1 other.2 middle.executables ∧
          (middle.executables.get other.1).isSome = true ∧
          (middle.executables.get other.2).isSome = true := by
        intro other listed
        obtain ⟨different, unsettled, there, there_too⟩ :=
          each other (List.mem_cons_of_mem _ listed)
        obtain ⟨other_producer, other_consumer⟩ := apart_first other listed
        refine ⟨different, unsettled.mono ?_ ?_, ?_, ?_⟩
        · exact settles.others _ _ rfl (by simp [Ne.symm other_producer]) (by simp)
        · exact settles.others _ _ rfl (by simp) (by simp [Ne.symm other_consumer])
        · rw [settles.narrowed.isSome, there]
        · rw [settles.narrowed.isSome, there_too]
      have rest := ih middle.executables resolved (in_place.narrowed settles.narrowed) apart_rest
        each_rest
      refine rest.weaken (fun _ has => has) ?_
      rintro last outcome ⟨named_rest, settles_rest⟩
      exact ⟨named_rest.trans named, .cons apart_first named settles settles_rest⟩

/-! ## The open end -/

theorem bounded_of_matched {holds : Variable → Prop} {limit : Nat} {seen : Ty → Ty}
    {outputs inputs : List Variable}
    (outputs_open : ∀ output ∈ outputs, output.Open ∧ holds output)
    (outputs_matched : ∀ output ∈ outputs, output.unmatched = false)
    (inputs_open : ∀ input ∈ inputs, input.Open ∧ holds input)
    (inputs_matched : ∀ input ∈ inputs, input.unmatched = false)
    (nothing_shared : outputs = [] ∨ inputs = []) :
    Varying.Bounded holds limit [] seen outputs inputs := by
  have explicit : ∀ side : List Variable, (∀ declared ∈ side, declared.Open ∧ holds declared) →
      (∀ declared ∈ side, declared.unmatched = false) → ∀ seen,
      Varying.Follows holds (fun _ => none) seen side := by
    intro side is_open matched seen
    refine ⟨fun _ _ _ entry => (by cases entry), fun declared listed _ => ?_⟩
    obtain ⟨given | unmatched, held⟩ := is_open declared listed
    · exact ⟨given, held⟩
    · rw [matched declared listed] at unmatched
      cases unmatched
  refine ⟨fun _ => none, ⟨fun _ entry => (by cases entry), fun entry => (by cases entry)⟩,
    explicit outputs outputs_open outputs_matched _, explicit inputs inputs_open inputs_matched _,
    fun output listed wanted => ?_⟩
  rcases wanted with ⟨input, in_inputs, -⟩ | captured
  · rcases nothing_shared with rfl | rfl
    · cases listed
    · cases in_inputs
  · cases captured

/-- What allocating captured outputs makes of the last executable. -/
structure Captures (holds : Variable → Prop) (limit : Nat) (captured : List String)
    (before after : Shader) : Prop where
  narrowed : Shader.Narrowed before after
  others : ∀ mode, mode ≠ .shaderOut → after.generics mode = before.generics mode
  bounded : ∀ outputs : List Variable,
    (∀ output ∈ outputs, output ∈ after.generics .shaderOut ∧ output.unmatched = false) →
    Varying.Bounded holds limit captured (fun ty => ty) outputs []

theorem captures_of_allocate {holds : Variable → Prop} {limit : Nat} {captured : List String}
    {shader : Shader} {allocation : Varying.Allocation} (tidy : shader.Tidy)
    (outputs_open : ∀ output ∈ shader.generics .shaderOut, output.Open ∧ holds output)
    (allocates : Varying.allocate captured limit shader none = .ok (allocation, none)) :
    Captures holds limit captured shader allocation.producer := by
  obtain ⟨revised, -⟩ := Varying.allocate_sameSides allocates
  have no_opposite : ∀ consumer, (none : Option Shader) = some consumer → consumer.Tidy := by simp
  refine ⟨revised.narrowed,
    fun mode => (Varying.allocate_others tidy no_opposite allocates mode).1, fun outputs left => ?_⟩
  have settled : Varying.Bounded holds limit captured (Boundary.perVertex .vertex) outputs [] :=
    Varying.allocate_bounded tidy no_opposite outputs_open (by simp [Shader.side])
      (by simp [Boundary.AllMatch, Shader.side]) allocates left (by simp)
  exact settled

theorem assignLastOutputs_meets {holds : Variable → Prop} {limit : Nat} {last : Stage}
    {captures : List Capture} {shader : Shader} (found : executables.get last = some shader)
    (tidy : shader.Tidy)
    (outputs_open : ∀ output ∈ shader.generics .shaderOut, output.Open ∧ holds output) :
    Meets Failed (Has executables) (assignLastOutputs limit last captures shader)
      fun resolved outcome => resolved.map (·.name) = captures.map (·.name) ∧
        ∃ after, Captures holds limit (captures.map (·.name.base)) shader after ∧
          outcome.executables.get last = some after ∧
          ∀ stage, stage ≠ last → outcome.executables.get stage = executables.get stage := by
  unfold assignLastOutputs
  split
  · next none_asked =>
      refine Meets.pure fun outcome has => ?_
      have has : outcome.executables = executables := has
      have no_captures : captures = [] := by simpa using none_asked
      refine ⟨rfl, shader, ⟨.refl shader, fun _ _ => rfl, fun outputs left => ?_⟩,
        by rw [has, found], fun stage _ => by rw [has]⟩
      rw [no_captures]
      exact bounded_of_matched (fun output listed => outputs_open output (left output listed).1)
        (fun output listed => (left output listed).2) (by simp) (by simp) (.inr rfl)
  · refine Meets.through (fun answer outcome => Has executables outcome ∧
        Varying.allocate (captures.map (·.name.base)) limit shader none = .ok answer)
      (Meets.lift fun _ _ has runs => ⟨has, runs⟩) fun answer => Meets.given fun allocates => ?_
    obtain ⟨allocation, failure⟩ := answer
    dsimp only
    refine Meets.bind (Meets.store_has last _) fun _ => ?_
    refine Meets.through (fun _ outcome => Has _ outcome ∧ failure = none)
      (Meets.surrender (fun _ has none_failed => ⟨has, none_failed⟩)
        fun outcome cause _ => failed_errors outcome (by simp)) fun _ => Meets.given ?_
    rintro rfl
    refine (resolveCaptures_meets captures).weaken (fun _ has => has) ?_
    rintro resolved outcome ⟨has, named⟩
    refine ⟨named, allocation.producer, captures_of_allocate tidy outputs_open allocates, ?_, ?_⟩
    · rw [has, PerStage.get_set_same]
    · intro stage different
      rw [has, PerStage.get_set_other _ _ (Ne.symm different)]

/-- What seeing to the open end of the pipeline makes of the executables. -/
structure SettlesEnd (holds : Variable → Prop) (limit : Nat) (captures : List Capture)
    (first last : Stage) (before after : Executables) : Prop where
  narrowed : StageWise (fun _ => Shader.Narrowed) before after
  others : ∀ stage mode, mode.isInterface = true →
    (last ≠ .fragment → (stage, mode) ≠ (last, .shaderOut)) →
    Shader.side mode (after.get stage) ⊆ Shader.side mode (before.get stage)
  outputs : last ≠ .fragment → Varying.Bounded holds limit (captures.map (·.name.base))
    (fun ty => ty) (Shader.side .shaderOut (after.get last)) []
  inputs : first = .fragment → last = .fragment → Varying.Bounded holds limit []
    (fun ty => ty) [] (Shader.side .shaderIn (after.get last))

theorem narrowed_of_get {before after : Executables} {stage : Stage} {shader changed : Shader}
    (was : before.get stage = some shader) (now : after.get stage = some changed)
    (narrowed : Shader.Narrowed shader changed)
    (rest : ∀ other, other ≠ stage → after.get other = before.get other) :
    StageWise (fun _ => Shader.Narrowed) before after := by
  intro other
  by_cases here : other = stage
  · rw [here, was, now]
    exact .some narrowed
  · rw [rest other here]
    exact StageWise.refl (fun _ => Shader.Narrowed.refl) before other

section OpenEnd

variable {holds : Variable → Prop} {limit : Nat} {captures : List Capture} {first last : Stage}
  {before after : Executables} {shader allocated cleared : Shader}

/-- Capturing outputs and dropping those that are left unmatched sees to the open end. -/
theorem settlesEnd_of_captures (not_fragment : last ≠ .fragment)
    (was : before.get last = some shader)
    (captured : Captures holds limit (captures.map (·.name.base)) shader allocated)
    (drops : Shader.Cleared .shaderOut allocated cleared) (now : after.get last = some cleared)
    (rest : ∀ stage, stage ≠ last → after.get stage = before.get stage) :
    SettlesEnd holds limit captures first last before after := by
  refine ⟨narrowed_of_get was now (captured.narrowed.trans drops.narrowed) rest,
    fun stage mode is_interface elsewhere declared listed => ?_, fun _ => ?_,
    fun _ is_fragment => absurd is_fragment not_fragment⟩
  · by_cases here : stage = last
    · subst here
      have different : mode ≠ .shaderOut := fun same => elsewhere not_fragment (by rw [same])
      rw [now, Shader.side_some] at listed
      rw [was, Shader.side_some, ← captured.others mode different]
      exact (drops.fewer mode is_interface declared listed).1
    · rwa [rest stage here] at listed
  · rw [now, Shader.side_some]
    refine captured.bounded _ fun output listed => ?_
    obtain ⟨still, matched⟩ := drops.fewer .shaderOut rfl output listed
    exact ⟨still, matched rfl⟩

/-- Dropping unmatched inputs of a fragment stage that is alone sees to the open end. -/
theorem settlesEnd_of_cleared (is_fragment : last = .fragment) (was : before.get last = some shader)
    (inputs_open : ∀ input ∈ shader.generics .shaderIn, input.Open ∧ holds input)
    (drops : Shader.Cleared .shaderIn shader cleared) (now : after.get last = some cleared)
    (rest : ∀ stage, stage ≠ last → after.get stage = before.get stage) :
    SettlesEnd holds limit captures first last before after := by
  refine ⟨narrowed_of_get was now drops.narrowed rest,
    fun stage mode is_interface _ declared listed => ?_,
    fun differs => absurd is_fragment differs, fun _ _ => ?_⟩
  · by_cases here : stage = last
    · subst here
      rw [now, Shader.side_some] at listed
      rw [was, Shader.side_some]
      exact (drops.fewer mode is_interface declared listed).1
    · rwa [rest stage here] at listed
  · rw [now, Shader.side_some]
    have left : ∀ input ∈ cleared.generics .shaderIn,
        input ∈ shader.generics .shaderIn ∧ input.unmatched = false := by
      intro input listed
      obtain ⟨still, matched⟩ := drops.fewer .shaderIn rfl input listed
      exact ⟨still, matched rfl⟩
    exact bounded_of_matched (by simp) (by simp)
      (fun input listed => inputs_open input (left input listed).1)
      (fun input listed => (left input listed).2) (.inl rfl)

end OpenEnd

theorem dropUnmatched_meets {last : Stage} {shader : Shader}
    (found : executables.get last = some shader) (tidy : shader.Tidy) :
    Meets Failed (Has executables) (withExecutable last fun allocated => do
        Linking.store last (← demote .shaderOut allocated).removeAllDeadCode)
      fun _ outcome => ∃ cleared, Shader.Cleared .shaderOut shader cleared ∧
        Has (executables.set last (some cleared)) outcome := by
  refine Meets.atExecutable (fun allocated there => ?_) fun absent => ?_
  · obtain rfl := Option.some.inj (found.symm.trans there)
    refine Meets.bind (demote_meets tidy) fun demoted => Meets.given fun drops => ?_
    exact (Meets.store_has last _).weaken (fun _ has => has) fun _ _ has => ⟨_, drops, has⟩
  · rw [found] at absent
    cases absent

theorem assignOpenEnd_meets {holds : Variable → Prop} {limit : Nat} {first last : Stage}
    {captures : List Capture} (in_place : TidyInPlace executables)
    (last_there : (executables.get last).isSome = true)
    (outputs_open : last ≠ .fragment → ∀ output ∈ Shader.side .shaderOut (executables.get last),
      output.Open ∧ holds output)
    (inputs_open : first = .fragment → ∀ input ∈ Shader.side .shaderIn (executables.get last),
      input.Open ∧ holds input) :
    Meets Failed (Has executables) (assignOpenEnd limit first last captures)
      fun resolved outcome => resolved.map (·.name) = captures.map (·.name) ∧
        SettlesEnd holds limit captures first last executables outcome.executables := by
  obtain ⟨shader, found⟩ := Option.isSome_iff_exists.mp last_there
  obtain ⟨-, tidy⟩ := in_place last shader found
  refine Meets.bind Meets.get_has fun read => Meets.given fun same => ?_
  simp only [same, found]
  split
  · next not_fragment =>
      have outputs_here := outputs_open not_fragment
      rw [found, Shader.side_some] at outputs_here
      refine Meets.bind (assignLastOutputs_meets found tidy outputs_here) fun resolved => ?_
      refine Meets.fromExecutables ?_
      rintro middle ⟨named, allocated, captured, now, rest⟩
      have allocated_tidy := captured.narrowed.tidy tidy
      refine Meets.bind (dropUnmatched_meets now allocated_tidy) fun _ => Meets.pure ?_
      rintro outcome ⟨cleared, drops, has⟩
      refine ⟨named, settlesEnd_of_captures not_fragment found captured drops ?_
        fun stage different => ?_⟩
      · rw [has, PerStage.get_set_same]
      · rw [has, PerStage.get_set_other _ _ (Ne.symm different), rest stage different]
  · next is_fragment =>
      have is_fragment : last = .fragment := by simpa using is_fragment
      split
      · next alone =>
          refine Meets.bind (demote_meets tidy) fun demoted => Meets.given fun drops => ?_
          refine Meets.bind (Meets.store_has last _) fun _ => Meets.pure fun outcome has => ?_
          have inputs_here := inputs_open alone
          rw [found, Shader.side_some] at inputs_here
          refine ⟨rfl, settlesEnd_of_cleared is_fragment found inputs_here drops ?_
            fun stage different => ?_⟩
          · rw [has, PerStage.get_set_same]
          · rw [has, PerStage.get_set_other _ _ (Ne.symm different)]
      · next accompanied =>
          refine Meets.pure fun outcome has => ⟨rfl, ?_⟩
          have has : outcome.executables = executables := has
          rw [has]
          exact ⟨narrowed_of_get found found (.refl shader) fun _ _ => rfl,
            fun _ _ _ _ _ listed => listed, fun differs => absurd is_fragment differs,
            fun alone => absurd alone accompanied⟩

end Linking
end StageLink
