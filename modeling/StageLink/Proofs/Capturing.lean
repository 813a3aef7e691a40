import StageLink.Proofs.Feeding
import StageLink.Proofs.Finishing

/-!
# Captured varyings

Requests for captures are resolved when the outputs of the last stage before the fragment stage get
their slots: at the boundary before the fragment stage, or where the pipeline ends if there is none.
From then on that stage is no producer of any boundary, and so what the requests have come to
stands.
-/

namespace StageLink

def Program.stages (program : Program) : List Stage :=
  Stage.all.filter fun stage => program.units.any (·.shader.stage = stage)

namespace Linking

/-! ## The stage that is captured -/

/-- The last stage that comes before the fragment stage. -/
def lastBeforeFragment (stages : List Stage) : Option Stage :=
  (stages.filter (· ≠ .fragment)).getLast?

theorem lastBeforeFragment_of_last (there : PerStage Bool) {last : Stage} :
    (stagesWith there).getLast? = some last → last ≠ .fragment →
      lastBeforeFragment (stagesWith there) = some last := by
  obtain ⟨vertex, geometry, fragment⟩ := there
  revert vertex geometry fragment
  cases last <;> decide

theorem exists_lastBeforeFragment (there : PerStage Bool) {first : Stage} :
    (stagesWith there).head? = some first → first ≠ .fragment →
      (lastBeforeFragment (stagesWith there)).isSome = true := by
  obtain ⟨vertex, geometry, fragment⟩ := there
  revert vertex geometry fragment
  cases first <;> decide

theorem neighbours_feed (there : PerStage Bool) :
    ∀ pair ∈ neighbours (stagesWith there),
      pair.2 = .fragment ↔ lastBeforeFragment (stagesWith there) = some pair.1 := by
  obtain ⟨vertex, geometry, fragment⟩ := there
  revert vertex geometry fragment
  decide

theorem presentStages_eq {program : Program} {outcome : Outcome}
    (covers : Covers program.units outcome)
    (listed : Everywhere (fun stage _ => stage ∈ program.stages) outcome) :
    outcome.presentStages = program.stages := by
  refine List.filter_congr fun stage in_all => Bool.eq_iff_iff.mpr
    ⟨fun present => ?_, fun has => ?_⟩
  · obtain ⟨shader, found⟩ := Option.isSome_iff_exists.mp present
    exact (List.mem_filter.mp (listed stage shader found)).2
  · obtain ⟨unit, in_units, of_stage⟩ := List.any_eq_true.mp has
    obtain rfl := of_decide_eq_true of_stage
    exact covers unit in_units

/-! ## What is guarded -/

variable {Result : Type} {stages : List Stage} {feeder : Stage} {captures : List Capture}

/-- The executable is of one of the stages, and is what resolved captures have been taken from if
its stage is the one that feeds them. -/
structure Guards (stages : List Stage) (feeder : Stage) (captures : List Capture) (stage : Stage)
    (shader : Shader) : Prop where
  listed : stage ∈ stages
  placeable : shader.Placeable
  serves : stage = feeder → ∀ capture ∈ captures, ∀ captured, capture.resolved = some captured →
    shader.Serves capture.name captured

theorem Guards.spares {stage : Stage} {before after : Shader}
    (guards : Guards stages feeder captures stage before) (spares : Shader.Spares before after) :
    Guards stages feeder captures stage after :=
  ⟨guards.listed, guards.placeable.spares spares, fun feeds capture listed captured resolved =>
    (guards.serves feeds capture listed captured resolved).spares spares⟩

theorem Guards.elsewhere {stage : Stage} {shader : Shader} {others : List Capture}
    (guards : Guards stages feeder captures stage shader) (elsewhere : stage ≠ feeder) :
    Guards stages feeder others stage shader :=
  ⟨guards.listed, guards.placeable, fun feeds => absurd feeds elsewhere⟩

theorem stops_anyhow {lasts : Stage → Shader → Prop} : Stops Anyhow lasts := fun _ _ _ => trivial

theorem Meets.of_failure {before : Outcome → Prop} {cause : LinkError}
    {next : Unit → Linking Result} {after : Result → Outcome → Prop} :
    Meets Anyhow before (Linking.surrender (some cause) >>= next) after :=
  Meets.through (fun _ _ => False) (Meets.fail fun _ _ => trivial) fun _ _ _ _ absurd => absurd.elim

/-! ## The feeding stage -/

/-- The feeding stage has the given executable. -/
def Fed (stages : List Stage) (feeder : Stage) (producer : Shader) (stage : Stage)
    (shader : Shader) : Prop :=
  Guards stages feeder [] stage shader ∧ (stage = feeder → shader = producer)

theorem guards_of_serves {producer : Shader} {stage : Stage} (listed : stage ∈ stages)
    (placeable : producer.Placeable) (serves : ∀ capture ∈ captures, ∃ captured,
      capture.resolved = some captured ∧ producer.Serves capture.name captured) :
    Guards stages feeder captures stage producer := by
  refine ⟨listed, placeable, fun _ capture in_captures captured resolved => ?_⟩
  obtain ⟨found, is_resolved, serves_found⟩ := serves capture in_captures
  exact Option.some.inj (is_resolved.symm.trans resolved) ▸ serves_found

theorem Fed.guards {producer shader : Shader} {stage : Stage}
    (guards : Guards stages feeder captures feeder producer)
    (fed : Fed stages feeder producer stage shader) :
    Guards stages feeder captures stage shader := by
  by_cases feeds : stage = feeder
  · rw [feeds, fed.2 feeds]
    exact guards
  · exact fed.1.elsewhere feeds

theorem store_feeder {producer : Shader} (guards : Guards stages feeder [] feeder producer) :
    Meets Anyhow (Everywhere (Guards stages feeder captures)) (store feeder producer)
      fun _ => Everywhere (Fed stages feeder producer) := by
  refine Meets.store fun outcome everywhere stage shader now => ?_
  by_cases here : feeder = stage
  · subst here
    rw [PerStage.get_set_same] at now
    obtain rfl := Option.some.inj now
    exact ⟨guards, fun _ => rfl⟩
  · rw [PerStage.get_set_other _ _ here] at now
    exact ⟨(everywhere stage shader now).elsewhere (Ne.symm here),
      fun feeds => absurd feeds.symm here⟩

/-- Requests for outputs that have been placed come to what describes these outputs. -/
theorem resolveCaptures_serves {before : Outcome → Prop} {producer : Shader}
    (placeable : producer.Placeable) {captures : List Capture}
    (placed : ∀ output ∈ producer.declaredVariables, output.mode = .shaderOut →
      output.isBuiltin = false → output.name ∈ captures.map (·.name.base) →
      output.location.isSome = true ∧ output.unmatched = false) :
    Meets Anyhow before (resolveCaptures producer captures) fun resolved outcome => before outcome ∧
      resolved.map Capture.request = captures.map Capture.request ∧
      ∀ capture ∈ resolved, ∃ captured, capture.resolved = some captured ∧
        producer.Serves capture.name captured := by
  induction captures with
  | nil => exact Meets.pure fun _ holds => ⟨holds, rfl, by simp⟩
  | cons capture captures ih =>
      rw [resolveCaptures, List.mapM_cons]
      let Resolves (resolved : Capture) : Prop := ∃ captured,
        resolved = { capture with resolved := some captured } ∧
          producer.Serves capture.name captured
      refine Meets.through (fun resolved outcome => before outcome ∧ Resolves resolved)
        (Meets.settle (fun _ _ holds grants => ⟨holds, Shader.serves_of_resolve placeable
          (fun output listed is_output generic named => placed output listed is_output generic
            (List.mem_map.mpr ⟨capture, List.mem_cons_self .., named.symm⟩)) grants⟩)
          fun _ _ _ _ => trivial) fun resolved => Meets.given ?_
      rintro ⟨captured, rfl, serves⟩
      refine Meets.bind (ih fun output listed is_output generic named =>
        placed output listed is_output generic (List.mem_cons_of_mem _ named)) fun rest => ?_
      refine Meets.pure ?_
      rintro outcome ⟨holds, same, all_serve⟩
      refine ⟨holds, ?_, ?_⟩
      · rw [List.map_cons, List.map_cons, same]
        rfl
      · rintro other (_ | ⟨_, later⟩)
        · exact ⟨captured, rfl, serves⟩
        · exact all_serve other later

/-- When the feeding stage has been allocated, its captures are resolved. -/
theorem resolveCaptures_guards {producer : Shader} (listed : feeder ∈ stages)
    (placeable : producer.Placeable)
    (placed : ∀ output ∈ producer.declaredVariables, output.mode = .shaderOut →
      output.isBuiltin = false → output.name ∈ captures.map (·.name.base) →
      output.location.isSome = true ∧ output.unmatched = false) :
    Meets Anyhow (Everywhere (Fed stages feeder producer)) (resolveCaptures producer captures)
      fun resolved outcome => Everywhere (Guards stages feeder resolved) outcome ∧
        Guards stages feeder resolved feeder producer ∧
        resolved.map Capture.request = captures.map Capture.request := by
  refine (resolveCaptures_serves placeable placed).weaken (fun _ holds => holds) ?_
  rintro resolved outcome ⟨fed, same, serves⟩
  have guards : Guards stages feeder resolved feeder producer :=
    guards_of_serves listed placeable serves
  exact ⟨fun stage shader found => (fed stage shader found).guards guards, guards, same⟩

/-! ## Locations -/

theorem guards_demote {lasts : Stage → Shader → Prop} {stage : Stage} {shader : Shader}
    (guards : Guards stages feeder captures stage shader) (mode : VariableMode) :
    Finds Anyhow lasts (demote mode shader) fun demoted =>
      Guards stages feeder captures stage demoted.removeAllDeadCode :=
  Keeps.lift_finds fun _ runs => guards.spares (Shader.spares_of_demote guards.placeable.tidy runs)

theorem guards_clearBoundary {limits : Limits} {stage next : Stage} {producer consumer : Shader}
    (guards : Guards stages feeder captures stage producer)
    (guards_consumer : Guards stages feeder captures next consumer) :
    Keeps Anyhow (Guards stages feeder captures)
      (clearBoundary limits stage next producer consumer) := by
  refine Keeps.bind_finds (guards_demote guards .shaderOut) fun _ guards_now => ?_
  refine Keeps.bind_finds (guards_demote guards_consumer .shaderIn) fun _ consumer_now => ?_
  refine Keeps.bind (Keeps.store guards_now) fun _ => ?_
  refine Keeps.bind (Keeps.store consumer_now) fun _ => ?_
  exact Keeps.bind (stops_anyhow.settle Varying.checkOutputs_reasoned) fun _ =>
    stops_anyhow.settle Varying.checkInputs_reasoned

/-- The phase resolves captures, all of which are guarded. -/
abbrev Resolves (stages : List Stage) (feeder : Stage) (captures : List Capture)
    (phase : Linking (List Capture)) : Prop :=
  Meets Anyhow (Everywhere (Guards stages feeder captures)) phase fun resolved outcome =>
    Everywhere (Guards stages feeder resolved) outcome ∧
      resolved.map Capture.request = captures.map Capture.request

theorem Resolves.pure : Resolves stages feeder captures (pure captures) :=
  Meets.pure fun _ everywhere => ⟨everywhere, rfl⟩

theorem Resolves.finish {resolved : List Capture} {phase : Linking Unit}
    (keeps : Keeps Anyhow (Guards stages feeder resolved) phase)
    (same : resolved.map Capture.request = captures.map Capture.request) :
    Meets Anyhow (Everywhere (Guards stages feeder resolved)) (do phase; return resolved)
      fun resolved outcome => Everywhere (Guards stages feeder resolved) outcome ∧
        resolved.map Capture.request = captures.map Capture.request :=
  Meets.bind keeps fun _ => Meets.pure fun _ everywhere => ⟨everywhere, same⟩

theorem resolves_assignBoundary {limits : Limits} {stage next : Stage} (different : stage ≠ next)
    (feeds : next = .fragment ↔ stage = feeder) :
    Resolves stages feeder captures (assignBoundary limits stage next captures) := by
  refine Meets.bind Keeps.get fun read => Meets.given fun everywhere => ?_
  dsimp only
  split
  · next producer consumer is_producer is_consumer =>
      have guards := everywhere stage producer is_producer
      have guards_consumer := everywhere next consumer is_consumer
      refine Meets.through
        (fun answer outcome => Everywhere (Guards stages feeder captures) outcome ∧
          Varying.allocate (capturedBefore next captures) limits.varyingSlots producer
            (some consumer) = .ok answer)
        (Keeps.lift_finds fun _ runs => runs) fun answer => Meets.given fun allocates => ?_
      obtain ⟨allocation, failure⟩ := answer
      dsimp only
      cases failure with
      | some cause =>
          refine Meets.through (fun _ => Anyhow) (Meets.store fun _ _ => trivial) fun _ => ?_
          refine Meets.through (fun _ => Anyhow) (Meets.store fun _ _ => trivial) fun _ => ?_
          exact Meets.of_failure
      | none =>
          have producer_now := guards.placeable.moved (Varying.allocate_moves allocates).1
          have consumer_now := guards_consumer.spares (Shader.spares_of_allocate
            guards.placeable.tidy guards_consumer.placeable.tidy allocates)
          by_cases last : next = .fragment
          · obtain rfl := feeds.mp last
            refine Meets.bind (store_feeder ⟨guards.listed, producer_now, fun _ => by simp⟩)
              fun _ => ?_
            refine Meets.bind (Keeps.store ⟨consumer_now.elsewhere different.symm,
              fun same => absurd same different.symm⟩) fun _ => ?_
            refine Meets.bind (stops_anyhow.surrender none) fun _ => ?_
            rw [capturesBefore, if_pos last]
            rw [capturedBefore, if_pos last] at allocates
            refine Meets.bind (resolveCaptures_guards guards.listed producer_now
              fun output listed is_output generic => Shader.placed_of_allocate guards.placeable.tidy
                (fun other same => Option.some.inj same ▸ guards_consumer.placeable.tidy) allocates
                listed is_output generic) fun resolved => Meets.given ?_
            rintro ⟨producer_guards, same⟩
            exact Resolves.finish (guards_clearBoundary producer_guards
              (consumer_now.elsewhere different.symm)) same
          · have not_feeder : stage ≠ feeder := fun same => last (feeds.mpr same)
            have guards_now : Guards stages feeder captures stage allocation.producer :=
              ⟨guards.listed, producer_now, fun same => absurd same not_feeder⟩
            refine Meets.bind (Keeps.store guards_now) fun _ => ?_
            refine Meets.bind (Keeps.store consumer_now) fun _ => ?_
            refine Meets.bind (stops_anyhow.surrender none) fun _ => ?_
            rw [capturesBefore, if_neg last]
            rw [pure_bind]
            exact Resolves.finish (guards_clearBoundary guards_now consumer_now) rfl
  · exact Resolves.pure

theorem resolves_assignBoundaries {limits : Limits} {pairs : List (Stage × Stage)}
    (each : ∀ pair ∈ pairs, pair.1 ≠ pair.2 ∧ (pair.2 = .fragment ↔ pair.1 = feeder)) :
    ∀ captures, Resolves stages feeder captures (assignBoundaries limits pairs captures) := by
  induction pairs with
  | nil => exact fun _ => Resolves.pure
  | cons pair pairs ih =>
      intro captures
      obtain ⟨different, feeds⟩ := each pair (List.mem_cons_self ..)
      refine Meets.bind (resolves_assignBoundary different feeds) fun resolved =>
        Meets.given fun same => ?_
      exact (ih (fun other listed => each other (List.mem_cons_of_mem _ listed)) resolved).weaken
        (fun _ everywhere => everywhere) fun _ _ ⟨everywhere, same_rest⟩ =>
          ⟨everywhere, same_rest.trans same⟩

theorem resolves_assignLastOutputs {limit : Nat} {shader : Shader}
    (guards : Guards stages feeder captures feeder shader) :
    Resolves stages feeder captures (assignLastOutputs limit feeder captures shader) := by
  unfold assignLastOutputs
  split
  · exact Resolves.pure
  · refine Meets.through (fun answer outcome => Everywhere (Guards stages feeder captures) outcome ∧
      Varying.allocate (captures.map (·.name.base)) limit shader none = .ok answer)
      (Keeps.lift_finds fun _ runs => runs) fun answer => Meets.given fun allocates => ?_
    obtain ⟨allocation, failure⟩ := answer
    dsimp only
    cases failure with
    | some cause =>
        exact Meets.through (fun _ => Anyhow) (Meets.store fun _ _ => trivial) fun _ =>
          Meets.of_failure
    | none =>
        have producer_now := guards.placeable.moved (Varying.allocate_moves allocates).1
        refine Meets.bind (store_feeder ⟨guards.listed, producer_now, fun _ => by simp⟩) fun _ => ?_
        refine Meets.bind (stops_anyhow.surrender none) fun _ => ?_
        refine (resolveCaptures_guards guards.listed producer_now
          fun output listed is_output generic => Shader.placed_of_allocate guards.placeable.tidy
            (by simp) allocates listed is_output generic).weaken (fun _ fed => fed) ?_
        exact fun _ _ ⟨everywhere, _, same⟩ => ⟨everywhere, same⟩

theorem resolves_assignOpenEnd {limit : Nat} {first last : Stage}
    (feeds : last ≠ .fragment → last = feeder) :
    Resolves stages feeder captures (assignOpenEnd limit first last captures) := by
  refine Meets.bind Keeps.get fun read => Meets.given fun everywhere => ?_
  split
  · exact Resolves.pure
  · next shader found =>
      have guards := everywhere last shader found
      split
      · next not_fragment =>
          obtain rfl := feeds not_fragment
          refine Meets.bind (resolves_assignLastOutputs guards) fun resolved =>
            Meets.given fun same => ?_
          refine Resolves.finish (Keeps.withExecutable fun allocated guards_now => ?_) same
          exact Keeps.bind_finds (guards_demote guards_now .shaderOut) fun _ => Keeps.store
      · split
        · exact Meets.bind (guards_demote guards .shaderIn) fun demoted =>
            Meets.given fun guards_now => Resolves.finish (Keeps.store guards_now) rfl
        · exact Resolves.pure

/-! ## Phases -/

/-- The executable is of a stage with units, and tidy. -/
def Staged (program : Program) (stage : Stage) (shader : Shader) : Prop :=
  stage ∈ program.stages ∧ shader.Tidy

/-- The executable is of a stage with units, and built-in outputs are matched. -/
def Emptied (program : Program) (stage : Stage) (shader : Shader) : Prop :=
  stage ∈ program.stages ∧ shader.Placeable

theorem enduring_staged (program : Program) : Enduring Anyhow (Staged program) where
  stops := stops_anyhow
  revised staged revised := ⟨staged.1, revised.tidy (fun _ _ keeps => keeps.name) staged.2⟩
  cleaned staged := ⟨staged.1, (Shader.thinned_removeDeadCode false staged.2.flat).tidy staged.2⟩

theorem emptied_invalidate (program : Program) :
    Meets Anyhow (Everywhere (Staged program))
      (updateExecutables fun shader => monadLift (shader.modifyGlobals Varying.invalidate))
      fun _ => Everywhere (Emptied program) := by
  refine Meets.fromExecutables fun start everywhere => ?_
  let related (stage : Stage) (_ after : Shader) : Prop := Emptied program stage after
  refine (@Meets.updateExecutables _ related _ start.executables fun stage shader current found =>
    Meets.lift fun _ _ has runs => ⟨has, (everywhere stage shader found).1,
      Shader.placeable_invalidated (everywhere stage shader found).2 runs⟩).weaken
        (fun _ has => has) ?_
  intro _ outcome stage_wise stage shader now
  obtain ⟨_, -, emptied⟩ := stage_wise.origin_of now
  exact emptied

theorem emptied_assignAttributes (program : Program) (stage : Stage) (target : AttributeTarget)
    (limit : Nat) (bindings : Bindings) :
    Keeps Anyhow (Emptied program) (assignAttributes stage target limit bindings) := by
  refine Keeps.withExecutable fun shader emptied => ?_
  refine Keeps.bind_finds (Keeps.lift_finds fun answer runs =>
    (⟨emptied.1, emptied.2.moved (Attribute.allocate_moved runs)⟩ : Emptied program stage answer.1))
    fun answer emptied_now => ?_
  exact Keeps.bind (Keeps.store emptied_now) fun _ => stops_anyhow.surrender _

/-- What is asked for is taken apart, if there is a stage that can be captured. -/
theorem requestedCaptures_asks {before : Outcome → Prop} {request : FeedbackRequest} {first : Stage}
    (some_request : request.varyings ≠ []) :
    Meets Anyhow before (requestedCaptures request first) fun captures outcome => before outcome ∧
      first ≠ .fragment ∧ (captures.map (·.name)).Nodup ∧
      List.Forall₂ Capture.Asks request.varyings captures ∧
      ∀ capture ∈ captures, capture.resolved = none := by
  unfold requestedCaptures
  split
  · next none_asked => exact absurd (List.isEmpty_iff.mp none_asked) some_request
  · split
    · exact Meets.fail fun _ _ => trivial
    · next not_fragment =>
        exact Meets.settle
          (fun _ _ holds grants => ⟨holds, not_fragment, Capture.parseAll_asks grants⟩)
          fun _ _ _ _ => trivial

/-- All captures have their entries, and are taken from what the feeding stage has kept. -/
def Recorded (program : Program) (limits : Limits) (outcome : Outcome) : Prop :=
  ∃ feeder captures, lastBeforeFragment program.stages = some feeder ∧
    (captures.map (·.name)).Nodup ∧ List.Forall₂ Capture.Asks program.feedback.varyings captures ∧
    List.Forall₂ Capture.Fills captures outcome.captured ∧
    (total (outcome.captured.map (·.components)) < UInt32.size →
      CapturedVarying.LaidOut program.feedback.mode limits outcome.captured) ∧
    Everywhere (Guards program.stages feeder captures) outcome

theorem recorded_assignLocations {program : Program} {limits : Limits}
    (some_unit : program.units ≠ []) (some_request : program.feedback.varyings ≠ []) :
    Meets Anyhow (fun outcome => Everywhere (Staged program) outcome ∧ Covers program.units outcome)
      (assignLocations limits program) fun _ => Recorded program limits := by
  have standing := standing_covers program.units
  refine Meets.bind (Meets.and (emptied_invalidate program)
    (Preserves.updateExecutables standing fun _ => Preserves.lift _)) fun _ => ?_
  refine Meets.bind (Meets.and (emptied_assignAttributes program _ _ _ _)
    (Preserves.assignAttributes standing _ _ _ _)) fun _ => ?_
  refine Meets.bind (Meets.and (emptied_assignAttributes program _ _ _ _)
    (Preserves.assignAttributes standing _ _ _ _)) fun _ => ?_
  refine Meets.bind Meets.get fun read => ?_
  dsimp only
  refine Meets.weaken (Meets.given fun here : Everywhere (Emptied program) read ∧
    Covers program.units read => ?_) (fun outcome ⟨holds, same⟩ => ⟨holds.1, same ▸ holds⟩)
    fun _ _ recorded => recorded
  obtain ⟨emptied, covers⟩ := here
  have same_stages := presentStages_eq covers fun stage shader found =>
    (emptied stage shader found).1
  have present : program.stages = stagesWith (read.executables.map (·.isSome)) := by
    rw [← same_stages]
    exact stagesOf_eq read.executables
  rw [same_stages]
  split
  · next first last is_first is_last =>
      refine Meets.bind (requestedCaptures_asks some_request) fun captures => Meets.given ?_
      rintro ⟨first_feeds, distinct, asked, unresolved⟩
      obtain ⟨feeder, feeds⟩ := Option.isSome_iff_exists.mp
        (exists_lastBeforeFragment (read.executables.map (·.isSome)) (present ▸ is_first)
          first_feeds)
      rw [← present] at feeds
      refine @Meets.weaken _ _ _ _ (Everywhere (Guards program.stages feeder captures)) _ _ ?_
        (fun outcome emptied stage shader found => ?_) fun _ _ recorded => recorded
      · refine Meets.bind (resolves_assignOpenEnd fun not_fragment => Option.some.inj
          ((lastBeforeFragment_of_last _ (present ▸ is_last) not_fragment).symm.trans
            (present ▸ feeds)))
          fun unplaced => Meets.given fun same => ?_
        refine Meets.bind (resolves_assignBoundaries (fun pair listed => ?_) unplaced)
          fun resolved => Meets.given fun same_too => ?_
        · have in_pairs := List.mem_reverse.mp listed
          rw [present] at in_pairs feeds
          have feeds_pair := neighbours_feed _ pair in_pairs
          rw [feeds, Option.some.injEq, @eq_comm _ feeder] at feeds_pair
          exact ⟨(neighbours_of_mem _ pair in_pairs).different, feeds_pair⟩
        · have requests := same_too.trans same
          refine Meets.through
            (fun entries outcome => Everywhere (Guards program.stages feeder resolved) outcome ∧
              Capture.placeAll program.feedback.mode limits resolved = .ok entries)
            (Meets.accept (fun _ _ everywhere places => ⟨everywhere, places⟩) fun _ _ _ => trivial)
            fun entries => Meets.modify ?_
          rintro outcome ⟨everywhere, places⟩
          obtain ⟨fills, laid_out⟩ := Capture.placeAll_eq_ok places
          refine ⟨feeder, resolved, feeds, ?_, Capture.asks_of_requests requests asked,
            fills, laid_out,
            everywhere.of_same rfl⟩
          have names := congrArg (List.map Prod.snd) requests
          rw [List.map_map, List.map_map] at names
          exact names ▸ distinct
      · exact ⟨(emptied stage shader found).1, (emptied stage shader found).2,
          fun _ capture listed captured resolved => by simp [unresolved capture listed] at resolved⟩
  · next nothing =>
      obtain ⟨unit, listed⟩ := List.exists_mem_of_ne_nil _ some_unit
      have has_stage : unit.shader.stage ∈ program.stages := List.mem_filter.mpr
        ⟨by cases unit.shader.stage <;> decide, List.any_eq_true.mpr ⟨unit, listed, by simp⟩⟩
      have some_stage := List.ne_nil_of_mem has_stage
      exact absurd (List.getLast?_eq_some_getLast some_stage)
        (nothing _ _ (List.head?_eq_some_head some_stage))

theorem recorded_assignUniforms {program : Program} {limits : Limits} (options : Options) :
    Meets Anyhow (Recorded program limits) (assignUniforms options) fun _ =>
      Recorded program limits := by
  rintro start answer reached ⟨feeder, captures, feeds, distinct, asked, fills,
    laid_out, guards⟩ runs
  have keeps : Keeps Anyhow (Guards program.stages feeder captures) (assignUniforms options) :=
    keeps_assignUniforms stops_anyhow (fun everywhere found resizes =>
      (everywhere _ _ found).spares (Shader.spares_resizeArrays
        (everywhere _ _ found).placeable.tidy resizes)) options
  have stands : Standing fun outcome => outcome.captured = start.captured :=
    ⟨fun _ _ same => same, fun _ _ same => same, fun _ same => same, fun _ same => same⟩
  have met := Meets.and keeps (Preserves.assignUniforms stands options) start answer reached
    ⟨guards, rfl⟩ runs
  cases answer with
  | ok _ =>
      obtain ⟨guards_now, same⟩ := met
      rw [← same] at fills laid_out
      exact ⟨feeder, captures, feeds, distinct, asked, fills, laid_out, guards_now⟩
  | error _ => trivial

theorem recorded_phases {options : Options} {program : Program}
    (distinct : ∀ unit ∈ program.units, (unit.shader.declaredVariables.map (·.name)).Nodup)
    (some_unit : program.units ≠ []) (some_request : program.feedback.varyings ≠ []) :
    Meets Anyhow (Has (.constant none)) (phases options program)
      fun _ => Recorded program options.limits := by
  have enduring := enduring_staged program
  have standing := standing_covers program.units
  refine Meets.bind checkVersions_meets.anyhow fun _ => Meets.given fun _ => ?_
  refine Meets.through (fun _ outcome => Everywhere (Staged program) outcome ∧
    Covers program.units outcome) ?_ fun _ => ?_
  · refine (linkStages_meets inherited_trivial distinct (by simp)).anyhow.weaken
      (fun _ has => has) ?_
    intro _ outcome assembled
    refine ⟨fun stage shader found => ⟨?_, (assembled.fine stage shader found).tidy⟩,
      fun unit listed => (assembled.there _).mpr
        ⟨by cases unit.shader.stage <;> decide, unit, listed, rfl⟩⟩
    obtain ⟨-, unit, listed, of_stage⟩ := (assembled.there stage).mp (by rw [found]; rfl)
    exact List.mem_filter.mpr
      ⟨by cases stage <;> decide, List.any_eq_true.mpr ⟨unit, listed, by simpa⟩⟩
  · refine Meets.through (fun _ outcome => Everywhere (Staged program) outcome ∧
      Covers program.units outcome) ((Meets.and enduring.linkInterfaces
        (settled_linkInterfaces program.units)).weaken (fun _ holds => holds)
        fun _ _ holds => ⟨holds.1, holds.2.1⟩) fun _ => ?_
    refine Meets.bind (Meets.and (Keeps.optimize enduring.stops fun stage shader staged =>
      ⟨staged.1, (Shader.thinned_optimizeFully staged.2.flat).tidy staged.2⟩)
      (Preserves.optimize standing)) fun _ => ?_
    refine Meets.bind (recorded_assignLocations some_unit some_request) fun _ => ?_
    exact Meets.bind (recorded_assignUniforms options) fun _ =>
      Preserves.checkRequiredStages options

end Linking

/-! ## Counting without bounds -/

namespace Ty

mutual

/-- What the parts of a type that have no parts themselves take together. -/
def altogether (leaf : Ty → Nat) : Ty → Nat
  | array element length => length.getD 0 * altogether leaf element
  | record _ fields => fieldsAltogether leaf fields
  | interface _ fields _ => fieldsAltogether leaf fields
  | ty => leaf ty

/-- What such parts of some fields take together. -/
def fieldsAltogether (leaf : Ty → Nat) : List (Field Ty) → Nat
  | [] => 0
  | ⟨_, ty, _⟩ :: fields => altogether leaf ty + fieldsAltogether leaf fields

end

/-- The number of columns of a matrix.  A scalar and a vector are one column. -/
def columns : Ty → Nat
  | scalar _ => 1
  | vector _ _ => 1
  | matrix columns _ => columns.count
  | _ => 0

/-- The number of components of a type, which need not be a word. -/
def componentCount : Ty → Nat := altogether components

/-- The number of slots of a type, which need not be a word. -/
def slotCount : Ty → Nat := altogether columns

/-- What a type weighs is what a word holds of what its parts weigh together. -/
structure AddsUp (weight leaf : Ty → Nat) : Prop where
  single : ∀ ty, ty.isArray = false → ty.fields = [] → weight ty = wrap (leaf ty)
  array : ∀ element length,
    weight (Ty.array element length) = wrap (length.getD 0 * weight element)
  record : ∀ name fields, weight (Ty.record name fields) = wrap (total (fields.map (weight ·.ty)))
  interface : ∀ name fields packing,
    weight (Ty.interface name fields packing) = wrap (total (fields.map (weight ·.ty)))

mutual

theorem AddsUp.eq_wrap {weight leaf : Ty → Nat} (adds : AddsUp weight leaf) :
    (ty : Ty) → weight ty = wrap (altogether leaf ty)
  | void | scalar _ | vector .. | matrix .. | sampler .. | atomicCounter => adds.single _ rfl rfl
  | .array element length => by
      rw [adds.array, adds.eq_wrap element, wrap_mul_wrap, altogether]
  | .record name fields => (adds.record name fields).trans (adds.fields_eq_wrap fields)
  | .interface name fields packing =>
      (adds.interface name fields packing).trans (adds.fields_eq_wrap fields)

theorem AddsUp.fields_eq_wrap {weight leaf : Ty → Nat} (adds : AddsUp weight leaf) :
    (fields : List (Field Ty)) →
    wrap (total (fields.map (weight ·.ty))) = wrap (fieldsAltogether leaf fields)
  | [] => rfl
  | ⟨_, ty, _⟩ :: fields => by
      rw [List.map_cons, total_cons, adds.eq_wrap ty, fieldsAltogether, wrap_wrap_add,
        ← wrap_add_wrap, adds.fields_eq_wrap fields, wrap_add_wrap]

end

theorem addsUp_componentSlots : AddsUp componentSlots components where
  single ty no_array no_fields := by
    cases ty with
    | array => cases no_array
    | record | interface =>
        obtain rfl := no_fields
        rfl
    | vector size => cases size <;> rfl
    | matrix columns rows => cases columns <;> cases rows <;> rfl
    | _ => rfl
  array _ _ := by rw [componentSlots]
  record _ _ := by rw [componentSlots, fieldsComponentSlots_eq_total]
  interface _ _ _ := by rw [componentSlots, fieldsComponentSlots_eq_total]

theorem addsUp_attributeSlots : AddsUp attributeSlots columns where
  single ty no_array no_fields := by
    cases ty with
    | array => cases no_array
    | record | interface =>
        obtain rfl := no_fields
        rfl
    | matrix columns => cases columns <;> rfl
    | _ => rfl
  array _ _ := by rw [attributeSlots]
  record _ _ := by rw [attributeSlots, fieldsAttributeSlots_eq_total]
  interface _ _ _ := by rw [attributeSlots, fieldsAttributeSlots_eq_total]

end Ty

/-! ## Answers -/

/-- What a captured varying has been resolved to. -/
def CapturedVarying.resolution (entry : CapturedVarying) : Captured :=
  ⟨entry.location, entry.components, entry.ty⟩

/-- The entry is an output, or the element of it that the name asks for.  Its slots are those of the
output, or of the element within them. -/
structure CapturedVarying.IsPart (entry : CapturedVarying) (name : ResourceName)
    (output : Variable) : Prop where
  is_output : output.mode = .shaderOut
  part : match name.index with
    | none => entry.ty = output.ty
    | some index => ∃ length, output.ty = .array entry.ty (some length) ∧ index < length
  located : output.isBuiltin = false → ∃ location, output.location = some location ∧
    entry.location = some (location + name.index.getD 0 * entry.ty.slotCount) ∧
    ∀ slot,
      Span.Covers ⟨location + name.index.getD 0 * entry.ty.slotCount, entry.ty.slotCount⟩ slot →
      Span.Covers ⟨location, output.ty.slotCount⟩ slot

/-- The entry is what a stage makes of a request: it is part of every output of its name that is
still declared.  Built-in outputs have no slots. -/
structure CapturedVarying.Answers (producer : Shader) (name : ResourceName)
    (entry : CapturedVarying) : Prop where
  components : entry.components = entry.ty.componentCount
  built_in : isBuiltinName name.base = true → entry.location = none
  taken : ∀ output ∈ producer.declaredVariables, output.name = name.base → entry.IsPart name output

/-- What has been taken from an output is part of it, if a word can say where the slots of the
output end. -/
theorem Captured.TakenFrom.isPart {entry : CapturedVarying} {name : ResourceName}
    {output : Variable} (taken : entry.resolution.TakenFrom name output)
    (fits : ∀ location ∈ output.location, location + output.ty.slotCount < UInt32.size) :
    entry.IsPart name output := by
  refine ⟨taken.is_output, taken.part, fun generic => ?_⟩
  obtain ⟨location, output_located, located⟩ := taken.located generic
  have fits := fits location output_located
  have inside : name.index.getD 0 * entry.ty.slotCount + entry.ty.slotCount ≤
      output.ty.slotCount := by
    have part := taken.part
    cases asked : name.index with
    | none =>
        rw [asked] at part
        have same : entry.ty = output.ty := part
        rw [Option.getD_none, Nat.zero_mul, Nat.zero_add, same]
    | some index =>
        rw [asked] at part
        obtain ⟨length, is_array, below⟩ := part
        have is_array : output.ty = .array entry.ty (some length) := is_array
        rw [Option.getD_some, is_array, ← Nat.succ_mul]
        exact Nat.mul_le_mul_right _ below
  have is_word : entry.ty.slotCount < UInt32.size := by omega
  have counted : entry.ty.attributeSlots = entry.ty.slotCount :=
    (Ty.addsUp_attributeSlots.eq_wrap _).trans (wrap_of_lt is_word)
  refine ⟨location, output_located, ?_, ?_⟩
  · have located : entry.location =
        some (wrap (location + name.index.getD 0 * entry.ty.attributeSlots)) := located
    rw [located, counted, wrap_of_lt (by omega)]
  · rintro slot ⟨above, below⟩
    simp only [Span.Covers] at above below ⊢
    omega

theorem Shader.Serves.answers {producer : Shader} {name : ResourceName} {entry : CapturedVarying}
    (serves : producer.Serves name entry.resolution)
    (slots : ∀ output ∈ producer.declaredVariables, output.mode = .shaderOut →
      ∀ location ∈ output.location, location + output.ty.slotCount < UInt32.size)
    (components : entry.ty.componentCount < UInt32.size) : entry.Answers producer name where
  components := serves.components.trans
    ((Ty.addsUp_componentSlots.eq_wrap _).trans (wrap_of_lt components))
  built_in := serves.built_in
  taken output listed named :=
    have taken := (serves.taken output listed named).2
    taken.isPart (slots output listed taken.is_output)

/-- Words can say where the slots of the outputs end, and how many components are captured. -/
structure Outcome.CapturesFit (outcome : Outcome) : Prop where
  slots : ∀ stage, ∀ shader ∈ outcome.executables.get stage, ∀ output ∈ shader.declaredVariables,
    output.mode = .shaderOut → ∀ location ∈ output.location,
      location + output.ty.slotCount < UInt32.size
  components : total (outcome.captured.map (·.ty.componentCount)) < UInt32.size

instance (outcome : Outcome) : Decidable outcome.CapturesFit :=
  decidable_of_iff (_ ∧ _)
    ⟨fun ⟨slots, components⟩ => ⟨slots, components⟩, fun fit => ⟨fit.slots, fit.components⟩⟩

namespace Program

/-- A successful link answers every request for a capture, in the order of the requests, no two of
which ask for the same.  The answers are taken from the last stage before the fragment stage, and
laid out in the feedback buffers, as long as slots and components are counted by words. -/
theorem link_captures {options : Options} {program result : Program}
    (distinct : ∀ unit ∈ program.units, (unit.shader.declaredVariables.map (·.name)).Nodup)
    (some_unit : program.units ≠ []) (some_request : program.feedback.varyings ≠ [])
    (runs : program.link options = .ok result) (succeeds : result.linked = true)
    (fit : result.outcome.CapturesFit) :
    ∃ stage producer names,
      Linking.lastBeforeFragment result.outcome.presentStages = some stage ∧
      result.outcome.executables.get stage = some producer ∧
      program.feedback.varyings.map ResourceName.parse = names.map .ok ∧ names.Nodup ∧
      result.outcome.captured.map (·.name) = program.feedback.varyings ∧
      List.Forall₂ (fun name entry => CapturedVarying.Answers producer name entry) names
        result.outcome.captured ∧
      CapturedVarying.LaidOut program.feedback.mode options.limits result.outcome.captured := by
  obtain ⟨reached, phases_run, compacted, same⟩ := link_completes runs succeeds
  have finished : Linking.Finished program reached :=
    Linking.finished_phases options program {} (.ok ()) reached rfl phases_run
  obtain ⟨feeder, captures, feeds, distinct_names, asked, fills, laid_out, guards⟩ :
      Linking.Recorded program options.limits reached :=
    Linking.recorded_phases distinct some_unit some_request {} (.ok ()) reached rfl phases_run
  have stages := Linking.presentStages_eq finished.1.1 fun stage shader found =>
    (guards stage shader found).listed
  have same_stages : result.outcome.presentStages = program.stages :=
    (Linking.stagesOf_narrowed compacted).trans stages
  have is_present : feeder ∈ result.outcome.presentStages :=
    same_stages ▸ (List.mem_filter.mp (List.mem_of_getLast? feeds)).1
  obtain ⟨producer, found⟩ := Option.isSome_iff_exists.mp (List.mem_filter.mp is_present).2
  obtain ⟨before, was, compacted_here⟩ := compacted.origin_of found
  have serves := (guards feeder before was).serves rfl
  have captured : result.outcome.captured = reached.captured := by rw [same]
  have count := fit.components
  rw [captured] at count
  have answered :
    List.Forall₂ (fun entry capture => CapturedVarying.Answers producer capture.name entry)
      reached.captured captures := by
    have small : ∀ entry ∈ reached.captured, entry.ty.componentCount < UInt32.size :=
      fun entry listed =>
        Nat.lt_of_le_of_lt (le_total_of_mem (List.mem_map.mpr ⟨entry, listed, rfl⟩)) count
    have filled := ((List.forall₂_and_left _ _).mpr ⟨serves, fills⟩).flip
    refine ((List.forall₂_and_left _ _).mpr ⟨small, filled⟩).imp fun entry capture matched => ?_
    obtain ⟨small_here, serves_here, fill⟩ := matched
    exact ((serves_here _ fill.resolved).spares compacted_here.spares).answers
      (fit.slots feeder producer found) small_here
  rw [captured]
  refine ⟨feeder, producer, captures.map (·.name), by rw [same_stages, feeds], found,
    ?_, distinct_names, ?_, List.forall₂_map_left_iff.mpr answered.flip, laid_out ?_⟩
  · rw [List.map_map]
    exact map_eq_of_forall₂ (fun _ _ asks => asks.parsed) asked
  · rw [← map_eq_of_forall₂ (fun _ _ fill => fill.name.symm) fills,
      ← map_eq_of_forall₂ (fun _ _ asks => asks.text.symm) asked, List.map_id']
  · have counted : reached.captured.map (·.components) =
        reached.captured.map (·.ty.componentCount) := by
      refine List.map_congr_left fun entry listed => ?_
      obtain ⟨_, -, answers⟩ := exists_of_forall₂ answered.flip listed
      exact answers.components
    rwa [counted]

/-- A vertex stage of which a built-in output, a varying and one element of an array are
captured. -/
def tapped : Program where
  units := [
    ⟨.ofParts .vertex [.vector "position" .shaderIn, .vector "gl_Position" .shaderOut,
      .vector "color" .shaderOut, .ofType "rows" (.sizedArray (.floatVector .four) 3) .shaderIn,
      .ofType "columns" (.sizedArray (.floatVector .four) 3) .shaderOut]
      [.ofBody "main" [.copy 1 0, .copy 2 0, .copy 4 3]], []⟩,
    ⟨.ofParts .fragment [.vector "color" .shaderIn, .vector "result" .shaderOut]
      [.ofBody "main" [.copy 1 0]], []⟩]
  feedback := { varyings := ["columns[2]", "color", "gl_Position"] }

set_option maxRecDepth 20000 in
theorem tapped_captures : ∃ result producer names, tapped.link {} = .ok result ∧
    result.linked = true ∧ result.outcome.CapturesFit ∧
      result.outcome.executables.get .vertex = some producer ∧
    ["columns[2]", "color", "gl_Position"].map ResourceName.parse = names.map .ok ∧
    List.Forall₂ (fun name entry => CapturedVarying.Answers producer name entry) names
      result.outcome.captured ∧
    result.outcome.captured.map (·.location) = [some 2, some 3, none] ∧
    CapturedVarying.LaidOut .interleaved {} result.outcome.captured := by
  have links : tapped.linksTo {} (fun result => decide (
      Linking.lastBeforeFragment result.outcome.presentStages = some .vertex ∧
      result.outcome.CapturesFit ∧
      result.outcome.captured.map (·.location) = [some 2, some 3, none])) = true := by
    decide +kernel
  obtain ⟨result, runs, succeeds, found⟩ := exists_of_linksTo links
  obtain ⟨is_last, fit, located⟩ := of_decide_eq_true found
  obtain ⟨stage, producer, names, feeds, is_producer, parsed, -, -, answers, laid_out⟩ :=
    link_captures (by decide +kernel) (by decide) (by decide) runs succeeds fit
  obtain rfl : .vertex = stage := Option.some.inj (is_last.symm.trans feeds)
  exact ⟨result, producer, names, runs, succeeds, fit, is_producer, parsed, answers,
    located, laid_out⟩

/-- A vertex stage that writes two built-in outputs of `2 ^ 31` components each, which are
captured. -/
def flooding : Program where
  units := [⟨.ofParts .vertex
    [.ofType "height" .float .shaderIn, .ofType "gl_A" (.sizedArray .float 0x80000000) .shaderOut,
      .ofType "gl_B" (.sizedArray .float 0x80000000) .shaderOut]
    [.ofBody "main" [.store (.element (.whole 1) (.constant (.int 0)) .float) (.load (.whole 0)),
      .store (.element (.whole 2) (.constant (.int 0)) .float) (.load (.whole 0))]], []⟩]
  feedback := { varyings := ["gl_A", "gl_B"] }

/-- The highest limit for the components in one buffer that a word can say. -/
def spacious : Options where
  limits := { interleavedComponents := UInt32.size - 1 }

/-- Without the condition, what is captured can exceed the limit: the sum of the components is
compared with the limit after it has lost a multiple of `2 ^ 32`.  And an output that is captured
and still declared has no location if it is built in. -/
theorem flooding_exceeds :
    (∀ unit ∈ flooding.units, (unit.shader.declaredVariables.map (·.name)).Nodup) ∧
    ∃ result, flooding.link spacious = .ok result ∧ result.linked = true ∧
      result.outcome.captured.map (·.components) = [0x80000000, 0x80000000] ∧
      ¬ CapturedVarying.LaidOut flooding.feedback.mode spacious.limits result.outcome.captured ∧
      (result.outcome.executables.get .vertex).map (fun producer =>
        producer.declaredVariables.map fun output => (output.name, output.mode, output.location)) =
      some [("height", .shaderIn, some 0), ("gl_A", .shaderOut, none),
        ("gl_B", .shaderOut, none)] := by
  refine ⟨by decide +kernel, ?_⟩
  have links : flooding.linksTo spacious (fun result => decide (
      result.outcome.captured.map (·.components) = [0x80000000, 0x80000000] ∧
      (result.outcome.executables.get .vertex).map (fun producer =>
        producer.declaredVariables.map fun output => (output.name, output.mode, output.location)) =
      some [("height", .shaderIn, some 0), ("gl_A", .shaderOut, none),
        ("gl_B", .shaderOut, none)])) = true := by
    decide +kernel
  obtain ⟨result, runs, succeeds, found⟩ := exists_of_linksTo links
  obtain ⟨counts, declares⟩ := of_decide_eq_true found
  refine ⟨result, runs, succeeds, counts, fun laid_out => ?_, declares⟩
  have within := (laid_out.interleaved rfl).2
  rw [counts] at within
  exact absurd within (by decide)

end Program
end StageLink
