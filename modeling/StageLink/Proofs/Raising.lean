import StageLink.Proofs.Finishing
import StageLink.Proofs.Headroom

/-!
# Raising limits

A phase that goes through within some limits goes through within greater ones and comes to the same.
Only the warnings may differ, since fewer things are over their limit.  So raising limits neither
breaks a link nor changes what it leaves.
-/

namespace StageLink
namespace Linking

variable {Item Part Result : Type}

/-- A sequence goes through exactly if both parts do. -/
theorem bind_goes_through {first : Linking Part} {next : Part → Linking Result}
    {start reached : Outcome} {result : Result} :
    (first >>= next).run.run start = .ok (.ok result, reached) ↔
      ∃ part middle, first.run.run start = .ok (.ok part, middle) ∧
        (next part).run.run middle = .ok (.ok result, reached) := by
  rw [ExceptT.run_bind, StateT.run_bind]
  constructor
  · intro runs
    obtain ⟨⟨found, middle⟩, runs_first, following⟩ := Checked.bind_eq_ok.mp runs
    cases found with
    | ok part => exact ⟨part, middle, runs_first, following⟩
    | error stop => cases following
  · rintro ⟨part, middle, runs_first, following⟩
    exact Checked.bind_eq_ok.mpr ⟨(.ok part, middle), runs_first, following⟩

/-- Whatever the one phase comes to when it goes through, the other comes to as well. -/
def Repeats (phase other : Linking Result) : Prop :=
  ∀ start result reached, phase.run.run start = .ok (.ok result, reached) →
    other.run.run start = .ok (.ok result, reached)

/-- The phase never goes through. -/
abbrev Fails (phase : Linking Result) : Prop :=
  Meets Anyhow (fun _ => True) phase fun _ _ => False

namespace Fails

theorem fail (causes : List LinkError) : Fails (fail causes : Linking Result) :=
  Meets.fail fun _ _ => trivial

theorem at_first {first : Linking Part} {next : Part → Linking Result} (fails : Fails first) :
    Fails (first >>= next) :=
  Meets.bind fails fun _ _ _ _ impossible => impossible.elim

theorem later {first : Linking Part} {next : Part → Linking Result}
    (fails : ∀ part, Fails (next part)) :
    Fails (first >>= next) := by
  have goes_on : Meets Anyhow (fun _ => True) first fun _ _ => True := by
    intro _ answer _ _ _
    cases answer <;> trivial
  exact Meets.bind goes_on fails

end Fails

namespace Repeats

variable {phase other : Linking Result}

theorem refl (phase : Linking Result) : Repeats phase phase := fun _ _ _ runs => runs

theorem of_fails (fails : Fails phase) : Repeats phase other :=
  fun start result reached runs => (fails start (.ok result) reached trivial runs).elim

theorem bind {first first_other : Linking Part} {next next_other : Part → Linking Result}
    (first_repeats : Repeats first first_other)
    (next_repeats : ∀ part, Repeats (next part) (next_other part)) :
    Repeats (first >>= next) (first_other >>= next_other) := by
  intro start result reached runs
  obtain ⟨part, middle, runs_first, following⟩ := bind_goes_through.mp runs
  exact bind_goes_through.mpr ⟨part, middle, first_repeats start part middle runs_first,
    next_repeats part middle result reached following⟩

/-- Only what an operation comes to matters. -/
theorem lift_left {operation : Checked Part} {next : Part → Linking Result}
    (each : ∀ part, operation = .ok part → Repeats (next part) other) :
    Repeats (monadLift operation >>= next) other := by
  intro start result reached runs
  cases comes_to : operation with
  | ok part =>
      rw [comes_to] at runs
      exact each part comes_to start result reached runs
  | error fault =>
      rw [comes_to] at runs
      cases runs

theorem lift_right {operation : Checked Part} {next : Part → Linking Result} {part : Part}
    (comes_to : operation = .ok part) (repeats : Repeats phase (next part)) :
    Repeats phase (monadLift operation >>= next) := by
  rw [comes_to]
  exact repeats

theorem settle {check other : Judged Result}
    (widens : ∀ result, check.Grants result → other.Grants result) :
    Repeats (settle check) (settle other) := by
  cases answers : check.run with
  | error fault =>
      rw [settle_of_faults answers]
      exact of_fails (Meets.lift fun _ _ _ impossible => by cases impossible)
  | ok verdict =>
      cases verdict with
      | ok granted =>
          rw [settle_of_grants answers, settle_of_grants (widens granted answers)]
          exact refl _
      | error causes =>
          rw [settle_of_rejects answers]
          exact of_fails (.fail causes)

theorem accept {given other : Except LinkError Result}
    (widens : ∀ result, given = .ok result → other = .ok result) :
    Repeats (accept given) (accept other) := by
  cases given with
  | ok result =>
      rw [widens result rfl]
      exact refl _
  | error cause => exact of_fails (.fail _)

theorem withExecutable (stage : Stage) {action action_other : Shader → Linking Unit}
    (acts : ∀ shader, Repeats (action shader) (action_other shader)) :
    Repeats (withExecutable stage action) (withExecutable stage action_other) := by
  refine bind (refl _) fun read => ?_
  split
  · exact acts _
  · exact refl _

theorem forM {items : List Item} {step step_other : Item → Linking PUnit}
    (steps : ∀ item, Repeats (step item) (step_other item)) :
    Repeats (items.forM step) (items.forM step_other) := by
  induction items with
  | nil => exact refl _
  | cons item items ih => exact bind (steps item) fun _ => ih

end Repeats

/-! ## Phases -/

variable {limits raised : Limits}

theorem repeats_linkStage (at_most : limits.AtMost raised) (units : List TranslationUnit)
    (stage : Stage) : Repeats (linkStage limits units stage) (linkStage raised units stage) := by
  unfold linkStage
  dsimp only
  split
  · exact .refl _
  · exact .bind (.refl _) fun _ => .bind
      (.settle fun _ => Merge.link_widens at_most) fun _ => .refl _

theorem repeats_assignAttributes (stage : Stage) (target : AttributeTarget) {limit larger : Nat}
    (more : limit ≤ larger) (bindings : Bindings) :
    Repeats (assignAttributes stage target limit bindings)
      (assignAttributes stage target larger bindings) := by
  refine .withExecutable stage fun shader => .lift_left fun (allocated, failure) allocates => ?_
  cases failure with
  | none => exact .lift_right (Attribute.allocate_widens more allocates) (.refl _)
  | some cause =>
      exact .of_fails (.later fun _ => .fail _)

theorem repeats_assignLastOutputs {limit larger : Nat} (more : limit ≤ larger) (stage : Stage)
    (captures : List Capture) (shader : Shader) :
    Repeats (assignLastOutputs limit stage captures shader)
      (assignLastOutputs larger stage captures shader) := by
  unfold assignLastOutputs
  split
  · exact .refl _
  · refine .lift_left fun (allocation, failure) allocates => ?_
    cases failure with
    | none =>
        obtain ⟨used, allocates_wider⟩ := Varying.allocate_widens more allocates
        exact .lift_right allocates_wider (.refl _)
    | some cause =>
        exact .of_fails (.later fun _ => .at_first (.fail _))

theorem repeats_assignOpenEnd {limit larger : Nat} (more : limit ≤ larger) (first last : Stage)
    (captures : List Capture) :
    Repeats (assignOpenEnd limit first last captures)
      (assignOpenEnd larger first last captures) := by
  refine .bind (.refl _) fun read => ?_
  split
  · exact .refl _
  · split
    · exact .bind (repeats_assignLastOutputs more _ _ _) fun _ => .refl _
    · exact .refl _

theorem repeats_clearBoundary (at_most : limits.AtMost raised) (stage next : Stage)
    (producer consumer : Shader) :
    Repeats (clearBoundary limits stage next producer consumer)
      (clearBoundary raised stage next producer consumer) := by
  refine .bind (.refl _) fun _ => .bind (.refl _) fun _ => .bind (.refl _) fun _ => ?_
  refine .bind (.refl _) fun _ => .bind (.settle fun _ => ?_) fun _ => .settle fun _ => ?_
  · exact Varying.checkOutputs_widens at_most
  · exact Varying.checkInputs_widens at_most

theorem repeats_assignBoundary (at_most : limits.AtMost raised) (stage next : Stage)
    (captures : List Capture) :
    Repeats (assignBoundary limits stage next captures)
      (assignBoundary raised stage next captures) := by
  refine .bind (.refl _) fun read => ?_
  dsimp only
  split
  · refine .lift_left fun (allocation, failure) allocates => ?_
    cases failure with
    | none =>
        obtain ⟨used, allocates_wider⟩ := Varying.allocate_widens at_most.varyingSlots allocates
        refine .lift_right allocates_wider (.bind (.refl _) fun _ => .bind (.refl _) fun _ => ?_)
        refine .bind (.refl _) fun _ => .bind (.refl _) fun _ => ?_
        exact .bind (repeats_clearBoundary at_most _ _ _ _) fun _ => .refl _
    | some cause =>
        exact .of_fails (.later fun _ => .later fun _ => .at_first (.fail _))
  · exact .refl _

theorem repeats_assignBoundaries (at_most : limits.AtMost raised) (pairs : List (Stage × Stage))
    (captures : List Capture) :
    Repeats (assignBoundaries limits pairs captures) (assignBoundaries raised pairs captures) := by
  induction pairs generalizing captures with
  | nil => exact .refl _
  | cons pair pairs ih => exact .bind (repeats_assignBoundary at_most _ _ _) fun _ => ih _

theorem repeats_assignLocations (at_most : limits.AtMost raised) (program : Program) :
    Repeats (assignLocations limits program) (assignLocations raised program) := by
  refine .bind (.refl _) fun _ => ?_
  refine .bind (repeats_assignAttributes _ _ at_most.vertexAttributes _) fun _ => ?_
  refine .bind (repeats_assignAttributes _ _ at_most.colorOutputs _) fun _ => ?_
  refine .bind (.refl _) fun read => ?_
  dsimp only
  split
  · refine .bind (.refl _) fun _ => ?_
    refine .bind (repeats_assignOpenEnd at_most.varyingSlots _ _ _) fun _ => ?_
    refine .bind (repeats_assignBoundaries at_most _ _) fun _ => ?_
    exact .bind (.accept fun _ => Capture.placeAll_widens at_most) fun _ => .refl _
  · exact .refl _

/-! ## Warnings -/

/-- Whatever the one phase comes to when it goes through, the other comes to but for the log, in
which it leaves no error. -/
def Resembles (phase other : Linking Unit) : Prop :=
  ∀ start reached, phase.run.run start = .ok (.ok (), reached) → ∃ log : Log,
    log.hasErrors = false ∧
    other.run.run start = .ok (.ok (), { reached with log := log })

theorem Resembles.bind {first first_other : Linking Part} {next next_other : Part → Linking Unit}
    (repeats : Repeats first first_other)
    (resembles : ∀ part, Resembles (next part) (next_other part)) :
    Resembles (first >>= next) (first_other >>= next_other) := by
  intro start reached runs
  obtain ⟨part, middle, runs_first, following⟩ := bind_goes_through.mp runs
  obtain ⟨log, no_errors, follows⟩ := resembles part middle reached following
  exact ⟨log, no_errors, bind_goes_through.mpr
    ⟨part, middle, repeats start part middle runs_first, follows⟩⟩

/-- Report some entries, and end the link if an error has been reported. -/
def review (entries : Outcome → List LogEntry) : Linking Unit := do
  modify fun outcome => { outcome with log := ⟨outcome.log.entries ++ entries outcome⟩ }
  if (← get).log.hasErrors then
    throw .halt

theorem review_eq_ok {entries : Outcome → List LogEntry} {start reached : Outcome} :
    (review entries).run.run start = .ok (.ok (), reached) ↔
      start.log.hasErrors = false ∧ Uniform.OnlyWarnings (entries start) ∧
        reached = { start with log := ⟨start.log.entries ++ entries start⟩ } := by
  let reviewed : Outcome := { start with log := ⟨start.log.entries ++ entries start⟩ }
  have follows : (review entries).run.run start =
      (if reviewed.log.hasErrors then throw .halt else pure () : Linking Unit).run.run reviewed :=
      rfl
  have fine : reviewed.log.hasErrors = false ↔
      start.log.hasErrors = false ∧ Uniform.OnlyWarnings (entries start) := by
    simp [reviewed, Log.hasErrors, Uniform.OnlyWarnings, List.any_append]
  rw [follows, ← and_assoc, ← fine]
  by_cases failed : reviewed.log.hasErrors = true
  · rw [if_pos failed]
    constructor
    · intro runs
      cases runs
    · rintro ⟨passed, -⟩
      rw [failed] at passed
      cases passed
  · rw [if_neg failed]
    constructor
    · intro runs
      obtain ⟨-, same⟩ := Prod.mk.inj (Except.ok.inj runs)
      exact ⟨by simpa using failed, same.symm⟩
    · rintro ⟨-, rfl⟩
      rfl

/-- The required stages are there if the check goes through. -/
theorem checkRequiredStages_eq_ok {options : Options} {start reached : Outcome} :
    (checkRequiredStages options).run.run start = .ok (.ok (), reached) ↔ reached = start ∧
      ((options.embeddedApi || start.isEs) = true →
        start.executables.vertex.isNone = false ∧ start.executables.fragment.isNone = false) := by
  have follows : (checkRequiredStages options).run.run start =
      (if options.embeddedApi || start.isEs then
        if start.executables.vertex.isNone then fail [.missingVertexShader]
        else if start.executables.fragment.isNone then fail [.missingFragmentShader]
        else pure ()
      else pure () : Linking Unit).run.run start := rfl
  rw [follows]
  split
  · next embedded =>
      split
      · next missing => exact ⟨fun runs => (by cases runs), fun holds => (by simp_all)⟩
      · split
        · next missing => exact ⟨fun runs => (by cases runs), fun holds => (by simp_all)⟩
        · next has_vertex has_fragment =>
            refine ⟨fun runs => ?_, fun holds => holds.1 ▸ rfl⟩
            cases runs
            exact ⟨rfl, fun _ => ⟨eq_false_of_ne_true has_vertex,
              eq_false_of_ne_true has_fragment⟩⟩
  · next other =>
      refine ⟨fun runs => ?_, fun holds => holds.1 ▸ rfl⟩
      cases runs
      exact ⟨rfl, fun embedded => absurd embedded other⟩

variable {options others : Options}

/-- A review with fewer complaints, followed by the check for required stages. -/
theorem resembles_review (options_raised : options.Raised others) :
    Resembles
      (review (fun outcome => Uniform.overruns options outcome.presentStages outcome.usages
        outcome.blockPositions) >>= fun _ => checkRequiredStages options)
      (review (fun outcome => Uniform.overruns others outcome.presentStages outcome.usages
        outcome.blockPositions) >>= fun _ => checkRequiredStages others) := by
  intro start reached runs
  obtain ⟨_, reviewed, reviews, checks⟩ := bind_goes_through.mp runs
  obtain ⟨no_errors, only_warnings, rfl⟩ := review_eq_ok.mp reviews
  obtain ⟨rfl, required⟩ := checkRequiredStages_eq_ok.mp checks
  have still_warnings := Uniform.overruns_widens options_raised only_warnings
  let log : Log := ⟨start.log.entries ++ Uniform.overruns others start.presentStages start.usages
    start.blockPositions⟩
  have no_errors_still : log.hasErrors = false := by
    have only : ∀ entry ∈ Uniform.overruns others start.presentStages start.usages
        start.blockPositions, ¬ entry.severity = .error := still_warnings
    simpa [log, Log.hasErrors, List.any_append] using
      ⟨by simpa [Log.hasErrors] using no_errors, only⟩
  refine ⟨log, no_errors_still, bind_goes_through.mpr ⟨(), { start with log := log },
    review_eq_ok.mpr ⟨no_errors, still_warnings, rfl⟩, checkRequiredStages_eq_ok.mpr ⟨rfl, ?_⟩⟩⟩
  rw [options_raised.embeddedApi]
  exact required

/-- All phases go through with raised limits and come to the same but for warnings. -/
theorem resembles_phases (options_raised : options.Raised others) (program : Program) :
    Resembles (phases options program) (phases others program) := by
  have at_most := options_raised.limits
  refine .bind (.refl _) fun _ => .bind (.forM (repeats_linkStage at_most _)) fun _ => ?_
  refine .bind (.refl _) fun _ => .bind (.refl _) fun _ => ?_
  refine .bind (repeats_assignLocations at_most program) fun _ => ?_
  -- the review comes last, together with the stages that are required
  simp only [assignUniforms, bind_assoc]
  refine .bind (.refl _) fun _ => .bind (.refl _) fun _ => .bind (.refl _) fun _ => ?_
  refine .bind (.refl _) fun _ => .bind (.refl _) fun _ => .bind (.refl _) fun _ => ?_
  exact resembles_review options_raised

end Linking

/-- Compacting has nothing to do with the log. -/
theorem Outcome.compactAll_log {outcome result : Outcome} (log : Log)
    (compacts : outcome.compactAll = .ok result) :
    ({ outcome with log := log } : Outcome).compactAll = .ok { result with log := log } := by
  obtain ⟨vertex, vertex_compacts, compacts⟩ := Checked.bind_eq_ok.mp compacts
  obtain ⟨geometry, geometry_compacts, compacts⟩ := Checked.bind_eq_ok.mp compacts
  obtain ⟨fragment, fragment_compacts, equal⟩ := Checked.bind_eq_ok.mp compacts
  obtain rfl := Checked.pure_eq_ok.mp equal
  exact Checked.bind_eq_ok.mpr ⟨vertex, vertex_compacts, Checked.bind_eq_ok.mpr ⟨geometry,
    geometry_compacts, Checked.bind_eq_ok.mpr ⟨fragment, fragment_compacts, rfl⟩⟩⟩

namespace Program

/-- A program that links within some limits links within greater ones, too, and with the same
executables, locations, uniforms, blocks, resources and captures; only the log may be another. -/
theorem link_raised {options others : Options} {program result : Program}
    (raised : options.Raised others) (runs : program.link options = .ok result)
    (succeeds : result.linked = true) :
    ∃ again, program.link others = .ok again ∧ again.linked = true ∧
      again = { result with outcome := { result.outcome with log := again.outcome.log } } := by
  obtain ⟨⟨answer, reached⟩, phases_run, following⟩ := Checked.bind_eq_ok.mp runs
  obtain ⟨outcome, compacts, equal⟩ := Checked.bind_eq_ok.mp following
  obtain rfl := Checked.pure_eq_ok.mp equal
  have met := Linking.reports_phases options program {} answer reached Linking.everywhere_nothing
    phases_run
  cases answer with
  | error _ =>
      have failed : reached.log.hasErrors = true := met
      rw [(Outcome.compactAll_eq_ok compacts).1, failed] at succeeds
      cases succeeds
  | ok _ =>
      obtain ⟨log, no_errors, phases_again⟩ :=
        Linking.resembles_phases raised program {} reached phases_run
      refine ⟨_, Checked.bind_eq_ok.mpr ⟨_, phases_again, Checked.bind_eq_ok.mpr ⟨_,
        Outcome.compactAll_log log compacts, rfl⟩⟩, ?_, ?_⟩
      · rw [no_errors]
        rfl
      · simpa [no_errors] using succeeds

/-- Twice as many varyings and attributes, and no strict limits for uniforms. -/
def roomy : Options where
  limits := { varyingComponents := 128, vertexAttributes := 32, interleavedComponents := 128 }
  lenientUniforms := true

theorem recorded_raised : Options.Raised {} roomy ∧ ∃ result again, recorded.link {} = .ok result ∧
    result.linked = true ∧ recorded.link roomy = .ok again ∧ again.linked = true ∧
    again = { result with outcome := { result.outcome with log := again.outcome.log } } := by
  have raised : Options.Raised {} roomy := by
    refine ⟨?_, fun _ => rfl, rfl⟩
    constructor <;> first | exact fun _ => Nat.le_refl _ | decide
  have links : recorded.linksTo {} (fun _ => true) = true := by decide +kernel
  obtain ⟨result, runs, succeeds, -⟩ := exists_of_linksTo links
  obtain ⟨again, runs_again, succeeds_again, same⟩ := link_raised raised runs succeeds
  exact ⟨raised, result, again, runs, succeeds, runs_again, succeeds_again, same⟩

end Program
end StageLink
