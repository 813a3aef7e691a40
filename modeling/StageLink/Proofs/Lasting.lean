import StageLink.Proofs.Delivery

/-!
# What lasts through a link

Some properties of executables hold from a certain phase on, whether the link goes through or ends
early.  Such a property is established by merging or by optimizing, and kept by removing dead code,
by resizing uniforms, and by all changes that leave the names and the extents of variables alone.
-/

namespace StageLink

/-- The second declaration has the name, the highest access and the block of the first, and the type
too, unless that is an array without a length.  It is no uniform if the first is none. -/
structure Variable.KeepsExtent (one other : Variable) : Prop where
  name : other.name = one.name
  highest : other.maxArrayAccess = one.maxArrayAccess
  interfaceType : other.interfaceType = one.interfaceType
  uniform : other.mode = .uniform → one.mode = .uniform
  ty : one.ty.isUnsizedArray = false → other.ty = one.ty

namespace Variable.KeepsExtent

theorem refl (declared : Variable) : declared.KeepsExtent declared :=
  ⟨rfl, rfl, rfl, fun same => same, fun _ => rfl⟩

theorem trans (one other last : Variable) (before : one.KeepsExtent other)
    (after : other.KeepsExtent last) : one.KeepsExtent last := by
  refine ⟨after.name.trans before.name, after.highest.trans before.highest,
    after.interfaceType.trans before.interfaceType,
    fun is_uniform => before.uniform (after.uniform is_uniform), fun sized => ?_⟩
  have same := before.ty sized
  rw [after.ty (same ▸ sized), same]

theorem adopt (resolved declared : Variable) :
    declared.KeepsExtent (Declaration.adopt resolved declared) := by
  unfold Declaration.adopt
  split
  · exact refl declared
  · exact ⟨rfl, rfl, rfl, fun is_uniform => is_uniform, fun sized => by simp [sized]⟩

end Variable.KeepsExtent

/-- The second declaration has the extent and the type of the first. -/
structure Variable.KeepsType
    (one other : Variable) : Prop extends Variable.KeepsExtent one other where
  same_ty : other.ty = one.ty

namespace Variable.KeepsType

theorem refl (declared : Variable) : declared.KeepsType declared := ⟨.refl declared, rfl⟩

theorem trans (one other last : Variable) (before : one.KeepsType other)
    (after : other.KeepsType last) : one.KeepsType last :=
  ⟨.trans _ _ _ before.toKeepsExtent after.toKeepsExtent, after.same_ty.trans before.same_ty⟩

theorem of_sameButPlace {one other : Variable} (same : one.SameButPlace other) :
    one.KeepsType other :=
  ⟨⟨same.name, by rw [same], by rw [same], by rw [same]; exact fun is_uniform => is_uniform,
    fun _ => same.ty⟩, same.ty⟩

theorem demote (mode : VariableMode) (declared : Variable) :
    declared.KeepsType (Varying.demote mode declared) := by
  unfold Varying.demote
  split
  · exact ⟨⟨rfl, rfl, rfl, fun is_uniform => absurd is_uniform (by simp), fun _ => rfl⟩, rfl⟩
  · exact refl declared

end Variable.KeepsType

namespace Linking

variable {Part Result : Type} {halted : Outcome → Prop} {lasts early : Stage → Shader → Prop}

def Everywhere (lasts : Stage → Shader → Prop) (outcome : Outcome) : Prop :=
  ∀ stage shader, outcome.executables.get stage = some shader → lasts stage shader

/-- A link may end, with an error, where all executables have the property. -/
def Stops (halted : Outcome → Prop) (lasts : Stage → Shader → Prop) : Prop :=
  ∀ outcome, Everywhere lasts outcome → Failed outcome → halted outcome

abbrev Keeps (halted : Outcome → Prop) (lasts : Stage → Shader → Prop) (phase : Linking Result) :
    Prop :=
  Meets halted (Everywhere lasts) phase fun _ => Everywhere lasts

/-- A phase keeps what all executables have, and finds out something about its result. -/
abbrev Finds (halted : Outcome → Prop) (lasts : Stage → Shader → Prop) (phase : Linking Result)
    (fact : Result → Prop) : Prop :=
  Meets halted (Everywhere lasts) phase fun result outcome => Everywhere lasts outcome ∧ fact result

theorem Everywhere.of_same {outcome other : Outcome} (everywhere : Everywhere lasts outcome)
    (same : other.executables = outcome.executables) : Everywhere lasts other := by
  intro stage shader found
  rw [same] at found
  exact everywhere stage shader found

/-- Without executables there is nothing to ask for. -/
theorem everywhere_nothing : Everywhere lasts {} := fun _ _ absent => by simp at absent

namespace Stops

theorem errors (stops : Stops halted lasts) {outcome : Outcome} {causes : List LinkError}
    (some_cause : causes ≠ []) (everywhere : Everywhere lasts outcome) :
    halted { outcome with log := outcome.log.errors causes } :=
  stops _ (everywhere.of_same rfl) (failed_errors outcome some_cause)

theorem fail (stops : Stops halted lasts) {causes : List LinkError} (some_cause : causes ≠ []) :
    Keeps halted lasts (fail causes : Linking Result) :=
  Meets.fail fun _ => stops.errors some_cause

/-- What a check grants is found out. -/
theorem grant (stops : Stops halted lasts) {check : Judged Result} (reasoned : check.Reasoned)
    {fact : Result → Prop} (holds : ∀ result, check.Grants result → fact result) :
    Finds halted lasts (settle check) fact :=
  Meets.settle (fun _ result everywhere grants => ⟨everywhere, holds result grants⟩)
    fun _ causes everywhere rejects => stops.errors (reasoned causes rejects) everywhere

theorem settle (stops : Stops halted lasts) {check : Judged Result} (reasoned : check.Reasoned) :
    Keeps halted lasts (settle check) :=
  Meets.settle (fun _ _ everywhere _ => everywhere)
    fun _ causes everywhere rejects => stops.errors (reasoned causes rejects) everywhere

theorem accept (stops : Stops halted lasts) (given : Except LinkError Result) :
    Keeps halted lasts (accept given) :=
  Meets.accept (fun _ _ holds _ => holds) fun _ _ => stops.errors (by simp)

theorem surrender (stops : Stops halted lasts) (failure : Option LinkError) :
    Keeps halted lasts (surrender failure) :=
  Meets.surrender (fun _ holds _ => holds) fun _ _ => stops.errors (by simp)

end Stops

namespace Keeps

theorem pure (result : Result) : Keeps halted lasts (pure result) := Meets.pure fun _ holds => holds

theorem lift (operation : Checked Result) :
    Keeps halted lasts (monadLift operation : Linking Result) :=
  Meets.lift fun _ _ holds _ => holds

theorem modify {change : Outcome → Outcome}
    (same : ∀ outcome, (change outcome).executables = outcome.executables) :
    Keeps halted lasts (modify change) :=
  Meets.modify fun outcome holds => holds.of_same (same outcome)

theorem store {stage : Stage} {shader : Shader} (has : lasts stage shader) :
    Keeps halted lasts (store stage shader) := by
  refine Meets.store fun outcome holds other found now => ?_
  by_cases here : stage = other
  · subst here
    rw [PerStage.get_set_same] at now
    exact Option.some.inj now ▸ has
  · rw [PerStage.get_set_other _ _ here] at now
    exact holds other found now

theorem bind {first : Linking Part} {next : Part → Linking Result}
    (first_keeps : Keeps halted lasts first) (next_keeps : ∀ part, Keeps halted lasts (next part)) :
    Keeps halted lasts (first >>= next) :=
  Meets.bind first_keeps next_keeps

/-- What the first step has found out may be used by the next. -/
theorem bind_finds {first : Linking Part} {next : Part → Linking Result} {fact : Part → Prop}
    (first_finds : Finds halted lasts first fact)
    (next_keeps : ∀ part, fact part → Keeps halted lasts (next part)) :
    Keeps halted lasts (first >>= next) :=
  Meets.bind first_finds fun part => Meets.given (next_keeps part)

theorem get : Finds halted lasts MonadState.get (Everywhere lasts) :=
  Meets.get.weaken (fun _ holds => holds) fun _ _ read => ⟨read.1, read.2 ▸ read.1⟩

theorem lift_finds {operation : Checked Result} {fact : Result → Prop}
    (holds : ∀ result, operation = .ok result → fact result) :
    Finds halted lasts (monadLift operation : Linking Result) fact :=
  Meets.lift fun _ result everywhere runs => ⟨everywhere, holds result runs⟩

theorem forM {Item : Type} {items : List Item} {step : Item → Linking PUnit}
    (steps : ∀ item, Keeps halted lasts (step item)) : Keeps halted lasts (items.forM step) :=
  Meets.forM fun item _ => steps item

theorem withExecutable {stage : Stage} {action : Shader → Linking Unit}
    (acts : ∀ shader, lasts stage shader → Keeps halted lasts (action shader)) :
    Keeps halted lasts (withExecutable stage action) := by
  refine Meets.withExecutable (fun shader => ?_) fun _ holds _ => holds
  intro start answer reached holds runs
  exact acts shader (holds.1 stage shader holds.2) start answer reached holds.1 runs

theorem updateExecutables {change : Shader → Linking Shader}
    (changes : ∀ stage shader, lasts stage shader →
      Finds halted lasts (change shader) fun changed => lasts stage changed) :
    Keeps halted lasts (updateExecutables change) :=
  forM fun stage => withExecutable fun shader has =>
    bind_finds (changes stage shader has) fun _ => store

theorem optimize (stops : Stops halted lasts)
    (optimized : ∀ stage shader, lasts stage shader → lasts stage shader.optimizeFully) :
    Keeps halted lasts optimize :=
  updateExecutables fun stage shader has =>
    Meets.bind (stops.settle Recursion.check_reasoned) fun _ =>
      Meets.pure fun _ holds => ⟨holds, optimized stage shader has⟩

end Keeps

/-! ## Phases -/

/-- What it takes for a property to outlast the assignment of locations. -/
structure Steady (halted : Outcome → Prop) (lasts : Stage → Shader → Prop) : Prop where
  stops : Stops halted lasts
  moved : ∀ {stage before after}, lasts stage before →
    Shader.Revised Variable.SameButPlace before after → lasts stage after
  cleared : ∀ {stage before after}, lasts stage before →
    Shader.Revised Variable.KeepsType before after → lasts stage after.removeAllDeadCode

/-- What it takes for a property to outlast all that follows optimizing. -/
structure Persisting (halted : Outcome → Prop) (lasts : Stage → Shader → Prop) : Prop
    extends Steady halted lasts where
  resized : ∀ {outcome stage shader result}, Everywhere lasts outcome →
    outcome.executables.get stage = some shader →
    Uniform.resizeArrays (Uniform.highestAccess outcome.present) shader = .ok result →
    lasts stage result

/-- What it takes for a property to outlast the comparison of interfaces, too. -/
structure Enduring (halted : Outcome → Prop) (lasts : Stage → Shader → Prop) : Prop where
  stops : Stops halted lasts
  revised : ∀ {stage before after}, lasts stage before →
    Shader.Revised Variable.KeepsExtent before after → lasts stage after
  cleaned : ∀ {stage shader}, lasts stage shader → lasts stage (shader.removeDeadCode false)

/-- What it takes for a property to last. -/
structure Lasting (halted : Outcome → Prop) (lasts : Stage → Shader → Prop) : Prop
    extends Enduring halted lasts where
  resized : ∀ {outcome stage shader result}, Everywhere lasts outcome →
    outcome.executables.get stage = some shader →
    Uniform.resizeArrays (Uniform.highestAccess outcome.present) shader = .ok result →
    lasts stage result

namespace Steady

variable {stage : Stage} {shader : Shader}

theorem demote (steady : Steady halted lasts) (has : lasts stage shader) (mode : VariableMode) :
    Finds halted lasts (demote mode shader) fun demoted => lasts stage demoted.removeAllDeadCode :=
  Keeps.lift_finds fun _ runs => steady.cleared has
    (Shader.revised_modifyVariables .refl .trans (.demote mode) runs)

theorem assignAttributes (steady : Steady halted lasts) (stage : Stage) (target : AttributeTarget)
    (limit : Nat) (bindings : Bindings) :
    Keeps halted lasts (assignAttributes stage target limit bindings) := by
  refine Keeps.withExecutable fun shader has => ?_
  have allocates : Finds halted lasts
      (monadLift (Attribute.allocate target limit bindings shader) : Linking _)
      fun answer => lasts stage answer.1 :=
    Keeps.lift_finds fun answer runs => steady.moved has (Attribute.allocate_revised runs)
  refine Keeps.bind_finds allocates fun answer has_now => ?_
  exact Keeps.bind (Keeps.store has_now) fun _ => steady.stops.surrender _

theorem resolveCaptures (steady : Steady halted lasts) (producer : Shader)
    (captures : List Capture) : Keeps halted lasts (resolveCaptures producer captures) := by
  induction captures with
  | nil => exact Keeps.pure _
  | cons capture captures ih =>
      rw [Linking.resolveCaptures, List.mapM_cons]
      exact Keeps.bind (steady.stops.settle Capture.resolve_reasoned) fun _ =>
        Keeps.bind ih fun _ => Keeps.pure _

theorem requestedCaptures (steady : Steady halted lasts) (request : FeedbackRequest)
    (first : Stage) : Keeps halted lasts (requestedCaptures request first) := by
  unfold Linking.requestedCaptures
  split
  · exact Keeps.pure _
  · split
    · exact steady.stops.fail (by simp)
    · exact steady.stops.settle Capture.parseAll_reasoned

/-- An allocation of varyings keeps the property on both sides. -/
theorem allocate (steady : Steady halted lasts) (next : Stage) {captured : List String}
    {limit : Nat} {consumer : Option Shader} (has : lasts stage shader)
    (has_consumer : ∀ other ∈ consumer, lasts next other) :
    Finds halted lasts (monadLift (Varying.allocate captured limit shader consumer) : Linking _)
      fun answer => lasts stage answer.1.producer ∧
        ∀ other ∈ answer.1.consumer, lasts next other := by
  refine Keeps.lift_finds fun answer runs => ?_
  obtain ⟨producer_revised, consumer_revised⟩ := Varying.allocate_sameSides runs
  refine ⟨steady.moved has producer_revised, ?_⟩
  revert consumer_revised
  generalize answer.1.consumer = allocated
  rintro (revised | _)
  · rintro _ ⟨⟩
    exact steady.moved (has_consumer _ rfl) revised
  · rintro _ ⟨⟩

theorem assignLastOutputs (steady : Steady halted lasts) (limit : Nat) (captures : List Capture)
    (has : lasts stage shader) :
    Keeps halted lasts (assignLastOutputs limit stage captures shader) := by
  unfold Linking.assignLastOutputs
  split
  · exact Keeps.pure _
  · refine Keeps.bind_finds (steady.allocate stage has (by simp)) fun answer found => ?_
    refine Keeps.bind (Keeps.store found.1) fun _ => ?_
    exact Keeps.bind (steady.stops.surrender _) fun _ => steady.resolveCaptures _ _

theorem assignOpenEnd (steady : Steady halted lasts) (limit : Nat) (first last : Stage)
    (captures : List Capture) : Keeps halted lasts (assignOpenEnd limit first last captures) := by
  refine Keeps.bind_finds Keeps.get fun read everywhere => ?_
  split
  · exact Keeps.pure _
  · next shader found =>
      have has := everywhere last shader found
      split
      · refine Keeps.bind (steady.assignLastOutputs limit captures has) fun _ => ?_
        refine Keeps.bind (Keeps.withExecutable fun allocated has_now => ?_) fun _ => Keeps.pure _
        exact Keeps.bind_finds (steady.demote has_now .shaderOut) fun _ => Keeps.store
      · split
        · refine Keeps.bind_finds (steady.demote has .shaderIn) fun _ demoted => ?_
          exact Keeps.bind (Keeps.store demoted) fun _ => Keeps.pure _
        · exact Keeps.pure _

theorem clearBoundary (steady : Steady halted lasts) (limits : Limits) {next : Stage}
    {consumer : Shader} (has : lasts stage shader) (has_consumer : lasts next consumer) :
    Keeps halted lasts (clearBoundary limits stage next shader consumer) := by
  refine Keeps.bind_finds (steady.demote has .shaderOut) fun _ has_now => ?_
  refine Keeps.bind_finds (steady.demote has_consumer .shaderIn) fun _ consumer_now => ?_
  refine Keeps.bind (Keeps.store has_now) fun _ => ?_
  refine Keeps.bind (Keeps.store consumer_now) fun _ => ?_
  exact Keeps.bind (steady.stops.settle Varying.checkOutputs_reasoned) fun _ =>
    steady.stops.settle Varying.checkInputs_reasoned

theorem capturesBefore (steady : Steady halted lasts) (next : Stage) (producer : Shader)
    (captures : List Capture) : Keeps halted lasts (capturesBefore next producer captures) := by
  unfold Linking.capturesBefore
  split
  · exact steady.resolveCaptures _ _
  · exact Keeps.pure _

theorem assignBoundary (steady : Steady halted lasts) (limits : Limits) (stage next : Stage)
    (captures : List Capture) : Keeps halted lasts (assignBoundary limits stage next captures) := by
  refine Keeps.bind_finds Keeps.get fun read everywhere => ?_
  dsimp only
  split
  · next producer consumer is_producer is_consumer =>
      have has := everywhere stage producer is_producer
      have has_consumer := everywhere next consumer is_consumer
      refine Keeps.bind_finds (steady.allocate next has (by simpa using has_consumer))
        fun answer found => ?_
      have consumer_now : lasts next (answer.1.consumer.getD consumer) := by
        cases allocated : answer.1.consumer with
        | none => exact has_consumer
        | some other => exact found.2 other allocated
      refine Keeps.bind (Keeps.store found.1) fun _ => ?_
      refine Keeps.bind (Keeps.store consumer_now) fun _ => ?_
      refine Keeps.bind (steady.stops.surrender _) fun _ => ?_
      refine Keeps.bind (steady.capturesBefore _ _ _) fun _ => ?_
      exact Keeps.bind (steady.clearBoundary limits found.1 consumer_now) fun _ => Keeps.pure _
  · exact Keeps.pure _

theorem assignBoundaries (steady : Steady halted lasts) (limits : Limits)
    (pairs : List (Stage × Stage)) (captures : List Capture) :
    Keeps halted lasts (assignBoundaries limits pairs captures) := by
  induction pairs generalizing captures with
  | nil => exact Keeps.pure _
  | cons pair pairs ih => exact Keeps.bind (steady.assignBoundary limits _ _ _) fun _ => ih _

theorem assignLocations (steady : Steady halted lasts) (limits : Limits) (program : Program) :
    Keeps halted lasts (assignLocations limits program) := by
  refine Keeps.bind (Keeps.updateExecutables fun stage shader has => ?_) fun _ => ?_
  · exact Keeps.lift_finds fun _ runs => steady.moved has
      (Shader.revised_modifyVariables .refl .trans Variable.SameButPlace.invalidate runs)
  refine Keeps.bind (steady.assignAttributes _ _ _ _) fun _ => ?_
  refine Keeps.bind (steady.assignAttributes _ _ _ _) fun _ => ?_
  refine Keeps.bind_finds Keeps.get fun read _ => ?_
  dsimp only
  split
  · refine Keeps.bind (steady.requestedCaptures _ _) fun _ => ?_
    refine Keeps.bind (steady.assignOpenEnd _ _ _ _) fun _ => ?_
    refine Keeps.bind (steady.assignBoundaries _ _ _) fun _ => ?_
    exact Keeps.bind (steady.stops.accept _) fun _ => Keeps.modify fun _ => rfl
  · exact Keeps.pure _

end Steady

namespace Enduring

theorem steady (enduring : Enduring halted lasts) : Steady halted lasts where
  stops := enduring.stops
  moved has revised := enduring.revised has
    (revised.imp fun _ _ same => (Variable.KeepsType.of_sameButPlace same).toKeepsExtent)
  cleared has revised := Shader.exhaust_keeps (fun _ so_far => enduring.cleaned so_far) _
    (enduring.revised has (revised.imp fun _ _ => (·.toKeepsExtent)))

theorem linkInterfaces (enduring : Enduring halted lasts) : Keeps halted lasts linkInterfaces := by
  have stops := enduring.stops
  refine Keeps.bind_finds Keeps.get fun read _ => ?_
  refine Keeps.bind (stops.settle Declaration.resolveFrom_reasoned) fun resolutions => ?_
  refine Keeps.bind (Keeps.updateExecutables fun stage shader has => ?_) fun _ => ?_
  · refine Keeps.lift_finds fun result runs => enduring.revised has ?_
    exact Shader.adoptResolutions_revised .refl .trans (fun declared resolved _ =>
      .adopt resolved declared) runs
  · refine Keeps.bind_finds Keeps.get fun _ _ => ?_
    refine Keeps.bind (Keeps.forM fun pair => ?_) fun _ => ?_
    · exact Keeps.bind (stops.settle InterfaceBlock.checkBoundary_reasoned) fun _ =>
        stops.settle Boundary.check_reasoned
    · refine Keeps.bind_finds Keeps.get fun _ _ => ?_
      exact Keeps.bind (stops.accept _) fun _ => Keeps.modify fun _ => rfl

end Enduring

/-- What is kept by resizing uniforms is kept by what else is done about them. -/
theorem keeps_assignUniforms (stops : Stops halted lasts)
    (resized : ∀ {outcome stage shader result}, Everywhere lasts outcome →
      outcome.executables.get stage = some shader →
      Uniform.resizeArrays (Uniform.highestAccess outcome.present) shader = .ok result →
      lasts stage result) (options : Options) : Keeps halted lasts (assignUniforms options) := by
  refine Meets.fromExecutables fun start everywhere => ?_
  refine Meets.bind Meets.get_has fun read => Meets.given fun same => ?_
  let related (stage : Stage) (_ after : Shader) : Prop := lasts stage after
  refine Meets.bind (@Meets.updateExecutables _ related _ _
    fun stage shader current found => ?_) fun _ => ?_
  · refine Meets.lift fun _ _ has runs => ⟨has, resized (everywhere.of_same same) ?_ runs⟩
    rw [same]
    exact found
  · refine @Meets.weaken _ _ _ _ (Everywhere lasts) _ _ ?_
      (fun outcome stage_wise stage shader now => ?_) fun _ _ holds => holds
    · refine Keeps.bind_finds Keeps.get fun _ _ => ?_
      refine Keeps.bind (Keeps.lift _) fun answer => ?_
      refine Keeps.bind (Keeps.modify fun _ => rfl) fun _ => ?_
      refine Keeps.bind (Keeps.withExecutable fun shader _ => ?_) fun _ => ?_
      · exact Keeps.bind (Keeps.lift _) fun _ => Keeps.modify fun _ => rfl
      refine Keeps.bind (Keeps.modify fun _ => rfl) fun _ => ?_
      refine Meets.bind Meets.get fun read => ?_
      split
      · next some_error =>
          refine Meets.halt fun outcome holds => stops outcome holds.1 ?_
          rw [← holds.2]
          exact some_error
      · exact Meets.pure fun _ holds => holds.1
    · obtain ⟨_, -, has⟩ := stage_wise.origin_of now
      exact has

theorem keeps_checkVersions (stops : Stops halted lasts) (units : List TranslationUnit) :
    Keeps halted lasts (checkVersions units) := by
  refine Keeps.bind (stops.accept _) fun _ => ?_
  refine Keeps.bind (Keeps.modify fun _ => rfl) fun _ => ?_
  split
  · exact stops.fail (by simp)
  · exact Keeps.pure _

theorem keeps_checkRequiredStages (stops : Stops halted lasts) (options : Options) :
    Keeps halted lasts (checkRequiredStages options) := by
  refine Keeps.bind_finds Keeps.get fun _ _ => ?_
  split
  · split
    · exact stops.fail (by simp)
    · split
      · exact stops.fail (by simp)
      · exact Keeps.pure _
  · exact Keeps.pure _

theorem keeps_linkStage (stops : Stops halted lasts) {limits : Limits}
    {units : List TranslationUnit} {stage : Stage}
    (merges : ∀ version shader,
      (Merge.link stage version limits (units.filter (·.shader.stage = stage))).Grants shader →
        lasts stage shader) : Keeps halted lasts (linkStage limits units stage) := by
  unfold linkStage
  dsimp only
  split
  · exact Keeps.pure _
  · refine Keeps.bind_finds Keeps.get fun read _ => ?_
    refine Keeps.bind_finds (stops.grant Merge.link_reasoned (merges read.version))
      fun shader has => ?_
    refine Keeps.bind (stops.settle StageRules.check_reasoned) fun info => ?_
    exact Keeps.bind (Keeps.modify (keepInfo_executables info)) fun _ => Keeps.store has

/-- Optimizing establishes what optimizing each executable does where there is no recursion. -/
theorem establishes_optimize (optimized : ∀ stage shader, early stage shader →
      (Recursion.check shader).Grants () → lasts stage shader.optimizeFully) :
    Meets Failed (Everywhere early) optimize fun _ => Everywhere lasts := by
  refine Meets.fromExecutables fun start everywhere => ?_
  let related (stage : Stage) (_ after : Shader) : Prop := lasts stage after
  refine (@Meets.updateExecutables _ related _ start.executables
    fun stage shader current found => ?_).weaken ?_ ?_
  · have checks : Meets Failed (Has current) (settle (Recursion.check shader))
        fun _ outcome => Has current outcome ∧ (Recursion.check shader).Grants () :=
      Meets.grant Recursion.check_reasoned fun outcome _ has grants => ⟨has, grants⟩
    exact Meets.bind checks fun _ => Meets.pure fun outcome holds =>
      ⟨holds.1, optimized stage shader (everywhere stage shader found) holds.2⟩
  · exact fun _ holds => holds
  · intro _ outcome stage_wise stage shader now
    obtain ⟨_, -, has⟩ := stage_wise.origin_of now
    exact has

/-- A property that merging establishes is turned into another by optimizing, and that one
persists. -/
theorem Persisting.phases (early_lasts : Enduring halted early)
    (persisting : Persisting halted lasts) {options : Options} {program : Program}
    (merges : ∀ stage version shader, (Merge.link stage version options.limits
      (program.units.filter (·.shader.stage = stage))).Grants shader → early stage shader)
    (optimizes : Meets halted (Everywhere early) optimize fun _ => Everywhere lasts) :
    Meets halted (Everywhere early) (phases options program) fun _ => Everywhere lasts := by
  refine Meets.bind (keeps_checkVersions early_lasts.stops _) fun _ => ?_
  refine Meets.bind (Keeps.forM fun stage =>
    keeps_linkStage early_lasts.stops (merges stage)) fun _ => ?_
  refine Meets.bind early_lasts.linkInterfaces fun _ => ?_
  refine Meets.bind optimizes fun _ => ?_
  refine Keeps.bind (persisting.assignLocations _ _) fun _ => ?_
  exact Keeps.bind (keeps_assignUniforms persisting.stops persisting.resized _) fun _ =>
    keeps_checkRequiredStages persisting.stops _

theorem Lasting.persisting (lasting : Lasting halted lasts) : Persisting halted lasts :=
  ⟨lasting.steady, lasting.resized⟩

theorem Lasting.phases (early_lasts : Lasting halted early) (lasting : Lasting halted lasts)
    {options : Options} {program : Program}
    (merges : ∀ stage version shader, (Merge.link stage version options.limits
      (program.units.filter (·.shader.stage = stage))).Grants shader → early stage shader)
    (optimizes : Meets halted (Everywhere early) optimize fun _ => Everywhere lasts) :
    Meets halted (Everywhere early) (phases options program) fun _ => Everywhere lasts :=
  lasting.persisting.phases early_lasts.toEnduring merges optimizes

/-! ## Phases report why they end a link -/

/-- The phases of a link in order. -/
def allPhases (options : Options) (program : Program) : List (Linking Unit) :=
  [checkVersions program.units, linkStages options.limits program.units, linkInterfaces, optimize,
    assignLocations options.limits program, assignUniforms options, checkRequiredStages options]

theorem phases_eq_forM (options : Options) (program : Program) :
    phases options program = (allPhases options program).forM id := by
  simp [phases, allPhases]

theorem lasting_anything : Lasting Failed fun _ _ => True where
  stops _ _ failed := failed
  revised _ _ := trivial
  cleaned _ := trivial
  resized _ _ _ := trivial

theorem reports_phase {options : Options} {program : Program} {phase : Linking Unit}
    (listed : phase ∈ allPhases options program) : Keeps Failed (fun _ _ => True) phase := by
  have lasting := lasting_anything
  have stops := lasting.stops
  simp only [allPhases, List.mem_cons, List.not_mem_nil, or_false] at listed
  rcases listed with rfl | rfl | rfl | rfl | rfl | rfl | rfl
  · exact keeps_checkVersions stops _
  · exact Keeps.forM fun _ => keeps_linkStage stops fun _ _ _ => trivial
  · exact lasting.linkInterfaces
  · exact Keeps.optimize stops fun _ _ _ => trivial
  · exact lasting.steady.assignLocations _ _
  · exact keeps_assignUniforms stops lasting.resized _
  · exact keeps_checkRequiredStages stops _

/-- A link that does not go through all phases has reported an error. -/
theorem reports_phases (options : Options) (program : Program) :
    Keeps Failed (fun _ _ => True) (phases options program) := by
  rw [phases_eq_forM]
  exact Meets.forM fun phase listed => reports_phase listed

end Linking

/-- What the phases of a link reach is compacted in the end; the link has succeeded if nothing has
been reported. -/
theorem Program.link_eq_ok {options : Options} {program result : Program}
    (runs : program.link options = .ok result) : ∃ answer reached,
      (Linking.phases options program).run.run {} = .ok (answer, reached) ∧
      Linking.StageWise (fun _ => Shader.Compacted) reached.executables result.outcome.executables ∧
      result.outcome = { reached with executables := result.outcome.executables } ∧
      (result.linked = true → ¬ Linking.Failed reached) := by
  obtain ⟨⟨answer, reached⟩, phases_run, following⟩ := Checked.bind_eq_ok.mp runs
  obtain ⟨outcome, compacts, equal⟩ := Checked.bind_eq_ok.mp following
  obtain rfl := Checked.pure_eq_ok.mp equal
  obtain ⟨same, compacted⟩ := Outcome.compactAll_eq_ok compacts
  refine ⟨answer, reached, phases_run, compacted, same, fun succeeds failed => ?_⟩
  have failed : reached.log.hasErrors = true := failed
  have no_errors : outcome.log.hasErrors = false := by simpa using succeeds
  rw [same, failed] at no_errors
  cases no_errors

/-- A link succeeds only if all phases go through. -/
theorem Program.link_completes {options : Options} {program result : Program}
    (runs : program.link options = .ok result) (succeeds : result.linked = true) :
    ∃ reached, (Linking.phases options program).run.run {} = .ok (.ok (), reached) ∧
      Linking.StageWise (fun _ => Shader.Compacted) reached.executables result.outcome.executables ∧
      result.outcome = { reached with executables := result.outcome.executables } := by
  obtain ⟨answer, reached, phases_run, compacted, same, no_errors⟩ := link_eq_ok runs
  have met :=
    Linking.reports_phases options program {} answer reached Linking.everywhere_nothing phases_run
  cases answer with
  | ok _ => exact ⟨reached, phases_run, compacted, same⟩
  | error _ => exact absurd met (no_errors succeeds)

/-- The executables of a link that succeeds come from compacting some that have what the phases
establish. -/
theorem Program.link_succeeds {early lasts : Stage → Shader → Prop} {options : Options}
    {program result : Program}
    (phases : Linking.Meets Linking.Failed (Linking.Everywhere early)
      (Linking.phases options program) fun _ => Linking.Everywhere lasts)
    (runs : program.link options = .ok result) (succeeds : result.linked = true)
    {stage : Stage} {shader : Shader} (found : result.outcome.executables.get stage = some shader) :
    ∃ before, lasts stage before ∧ Shader.Compacted before shader := by
  obtain ⟨answer, reached, phases_run, compacted, -, no_errors⟩ := Program.link_eq_ok runs
  obtain ⟨before, was, compacted_here⟩ := compacted.origin_of found
  have met := phases {} answer reached Linking.everywhere_nothing phases_run
  cases answer with
  | ok _ => exact ⟨before, met stage before was, compacted_here⟩
  | error _ => exact absurd met (no_errors succeeds)

/-- Whether a link goes through or not, its executables come from compacting some that have what
merging establishes and what lasts. -/
theorem Program.link_keeps {lasts : Stage → Shader → Prop} {options : Options}
    {program result : Program}
    (phases : Linking.Keeps (Linking.Everywhere lasts) lasts (Linking.phases options program))
    (runs : program.link options = .ok result) {stage : Stage} {shader : Shader}
    (found : result.outcome.executables.get stage = some shader) :
    ∃ before, lasts stage before ∧ Shader.Compacted before shader := by
  obtain ⟨answer, reached, phases_run, compacted, -, -⟩ := Program.link_eq_ok runs
  obtain ⟨before, was, compacted_here⟩ := compacted.origin_of found
  have met := phases {} answer reached Linking.everywhere_nothing phases_run
  have everywhere : Linking.Everywhere lasts reached := by
    cases answer with
    | ok _ => exact met
    | error _ => exact met
  exact ⟨before, everywhere stage before was, compacted_here⟩

end StageLink
