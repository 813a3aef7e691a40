import StageLink.Proofs.Allotting
import StageLink.Proofs.Assembling
import StageLink.Proofs.Problems
import StageLink.Proofs.Soundness

/-!
# Links without faults

A link of units without problems comes to an end and says whether it has succeeded, provided that
the handles which no problem is reported about point somewhere, too: parameters, functions declared
in bodies, and what is in bodies that nothing leads to.  Executables are enclosed when they have
been merged, and stay confined until they are compacted.
-/

namespace StageLink

open Shader

/-! ## Capturing -/

namespace Capture

theorem parseFrom_answers {requested : List String}
    (parses : ∀ name ∈ requested, ∃ parsed, ResourceName.parse name = .ok parsed)
    (sofar : List Capture) :
    (parseFrom sofar requested).Answers fun _ => True := by
  induction requested generalizing sofar with
  | nil => exact .pure trivial
  | cons name rest ih =>
      refine .andThen (.of_ok (parses name (List.mem_cons_self ..))) fun parsed => ?_
      split
      · exact .reject _
      · exact ih (fun other listed => parses other (List.mem_cons_of_mem name listed)) _

theorem exists_findOutput {producer : Shader} (name : String) {ids : List VariableId}
    (bound : ∀ id ∈ ids, id < producer.vars.size) :
    ∃ output, findOutput producer name ids = .ok output := by
  induction ids with
  | nil => exact ⟨none, rfl⟩
  | cons id ids ih =>
      obtain ⟨declared, fetched⟩ := exists_fetchVariable (bound id (List.mem_cons_self ..))
      rw [findOutput, fetched, Checked.ok_bind]
      split
      · exact ⟨some declared, rfl⟩
      · exact ih fun other listed => bound other (List.mem_cons_of_mem id listed)

theorem resolve_answers {producer : Shader} (confined : producer.Confined) (capture : Capture) :
    (resolve producer capture).Answers fun _ => True := by
  refine .andThen (.of_ok (exists_findOutput _ confined.globals)) fun output => ?_
  split
  · exact .reject _
  · split
    · exact .pure trivial
    · exact .reject _

end Capture

/-! ## Phases -/

namespace Linking

open Answers

variable {limits : Limits} {units : List TranslationUnit}

theorem checkVersions_answers : Answers Confined (checkVersions units) fun _ => True := by
  refine .andThen (.accept fun _ _ => trivial) fun dialect => ?_
  refine .andThen (.modify fun _ each => each) fun _ => ?_
  split
  · exact .fail _
  · exact .pure trivial

theorem linkStage_answers {stage : Stage}
    (each : ∀ unit ∈ units, ∀ shader ∈ unit.shader :: unit.libraries, shader.Enclosed ∧
      shader.Coherent) :
    Answers Confined (linkStage limits units stage) fun _ => True := by
  unfold linkStage
  dsimp only
  split
  · exact .pure trivial
  · refine .bind .get fun outcome _ => ?_
    refine .bind
      (.settle (Merge.link_answers fun unit listed => each unit (List.mem_filter.mp listed).1)) ?_
    intro shader enclosed
    refine .andThen (.settle (StageRules.check_answers enclosed _ _)) fun info => ?_
    refine .andThen (.modify fun outcome confined => ?_) fun _ => .store enclosed.confined
    cases info <;> exact confined

theorem checkBoundary_answers {producer consumer : Shader} (producer_confined : producer.Confined)
    (consumer_confined : consumer.Confined) :
    Answers Confined (checkBoundary producer consumer) fun _ => True :=
  .andThen (.settle (InterfaceBlock.checkBoundary_answers producer_confined consumer_confined))
    fun _ => .settle (Boundary.check_answers producer_confined consumer_confined)

theorem linkInterfaces_answers : Answers Confined linkInterfaces fun _ => True := by
  refine .bind .get fun read each => ?_
  refine .andThen (.settle (Declaration.resolve_answers each.present)) fun resolutions => ?_
  refine .andThen (.updateExecutables fun shader confined =>
    .lift (confined.exists_modifyGlobals _))
    fun _ => ?_
  refine .bind .get fun read each => ?_
  refine .andThen (.forM fun pair listed => ?_) fun _ => ?_
  · obtain ⟨in_front, behind⟩ := List.of_mem_zip listed
    exact checkBoundary_answers (each.present _ in_front)
      (each.present _ (List.mem_of_mem_tail behind))
  · refine .bind .get fun read _ => ?_
    exact .andThen (.accept fun _ _ => trivial) fun blocks => .modify fun _ each => each

theorem optimize_answers : Answers Confined optimize fun _ => True :=
  .updateExecutables fun _ confined =>
    .andThen (.settle (Recursion.check_answers confined)) fun _ => .pure confined.optimizeFully

theorem assignAttributes_answers {stage : Stage} {target : AttributeTarget} {limit : Nat}
    {bindings : Bindings} :
    Answers Confined (assignAttributes stage target limit bindings) fun _ => True := by
  refine .withExecutable fun shader confined => ?_
  obtain ⟨allocated, failure, runs, still⟩ := Attribute.exists_allocate confined
  have allocates : Answers Confined (monadLift (Attribute.allocate target limit bindings shader))
      fun answer => answer.1.Confined := .lift ⟨_, runs, still⟩
  refine .bind allocates fun answer still => ?_
  exact .andThen (.store still) fun _ => .surrender _

theorem requestedCaptures_answers {request : FeedbackRequest} (first : Stage)
    (parses : ∀ name ∈ request.varyings, ∃ parsed, ResourceName.parse name = .ok parsed) :
    Answers Confined (requestedCaptures request first) fun _ => True := by
  unfold requestedCaptures
  split
  · exact .pure trivial
  · split
    · exact .fail _
    · exact .settle (Capture.parseFrom_answers parses [])

theorem resolveCaptures_answers {producer : Shader} (confined : producer.Confined)
    (captures : List Capture) :
    Answers Confined (resolveCaptures producer captures) fun _ => True :=
  .mapM fun capture _ => .settle (Capture.resolve_answers confined capture)

theorem demote_answers {shader : Shader} (mode : VariableMode) (confined : shader.Confined) :
    Answers Confined (demote mode shader) Confined := .lift (confined.exists_modifyGlobals _)

/-- Slots are allocated at a boundary. -/
theorem allocate_answers {captured : List String} {limit : Nat} {producer : Shader}
    {consumer : Option Shader} (confined : producer.Confined)
    (opposite : ∀ shader ∈ consumer, shader.Confined) :
    Answers Confined (monadLift (Varying.allocate captured limit producer consumer)) fun answer =>
      answer.1.producer.Confined ∧ ∀ shader ∈ answer.1.consumer, shader.Confined := by
  obtain ⟨allocation, failure, runs, still⟩ := Varying.exists_allocate confined opposite
  exact .lift ⟨_, runs, still⟩

theorem assignLastOutputs_answers {limit : Nat} {stage : Stage} {shader : Shader}
    (confined : shader.Confined) (captures : List Capture) :
    Answers Confined (assignLastOutputs limit stage captures shader) fun _ => True := by
  unfold assignLastOutputs
  split
  · exact .pure trivial
  · refine .bind (allocate_answers confined fun _ absent => nomatch absent) fun answer still => ?_
    refine .andThen (.store still.1) fun _ => ?_
    exact .andThen (.surrender _) fun _ => resolveCaptures_answers still.1 captures

theorem assignOpenEnd_answers {limit : Nat} {first last : Stage} (captures : List Capture) :
    Answers Confined (assignOpenEnd limit first last captures) fun _ => True := by
  refine .bind .get fun read each => ?_
  cases present : read.executables.get last with
  | none => exact .pure trivial
  | some shader =>
      have confined := each last shader present
      dsimp only
      split
      · refine .andThen (assignLastOutputs_answers confined captures) fun resolved => ?_
        refine .andThen (.withExecutable fun allocated still => ?_) fun _ => .pure trivial
        exact .bind (demote_answers _ still) fun _ demoted => .store demoted.removeAllDeadCode
      · split
        · refine .bind (demote_answers _ confined) fun demoted still => ?_
          exact .andThen (.store still.removeAllDeadCode) fun _ => .pure trivial
        · exact .pure trivial

theorem clearBoundary_answers {producerStage consumerStage : Stage} {producer consumer : Shader}
    (producer_confined : producer.Confined) (consumer_confined : consumer.Confined) :
    Answers Confined (clearBoundary limits producerStage consumerStage producer consumer)
      fun _ => True := by
  refine .bind (demote_answers _ producer_confined) fun cleared cleared_confined => ?_
  refine .bind (demote_answers _ consumer_confined) fun opposite opposite_confined => ?_
  have producer_done := cleared_confined.removeAllDeadCode
  have consumer_done := opposite_confined.removeAllDeadCode
  refine .andThen (.store producer_done) fun _ => ?_
  refine .andThen (.store consumer_done) fun _ => ?_
  exact .andThen (.settle (Varying.checkOutputs_answers limits producer_done)) fun _ =>
    .settle (Varying.checkInputs_answers limits consumer_done)

theorem assignBoundary_answers {producerStage consumerStage : Stage} (captures : List Capture) :
    Answers Confined (assignBoundary limits producerStage consumerStage captures)
      fun _ => True := by
  refine .bind .get fun read each => ?_
  dsimp only
  split
  · next producer consumer is_producer is_consumer =>
      have producer_confined := each _ producer is_producer
      have consumer_confined := each _ consumer is_consumer
      refine .bind (allocate_answers producer_confined fun shader same => ?_) fun answer still => ?_
      · obtain rfl := Option.some.inj same
        exact consumer_confined
      have opposite : (answer.1.consumer.getD consumer).Confined := by
        cases changed : answer.1.consumer with
        | none => exact consumer_confined
        | some other => exact still.2 other changed
      refine .andThen (.store still.1) fun _ => ?_
      refine .andThen (.store opposite) fun _ => ?_
      refine .andThen (.surrender _) fun _ => ?_
      have captured : Answers Confined (capturesBefore consumerStage answer.1.producer captures)
          fun _ => True := by
        unfold capturesBefore
        split
        · exact resolveCaptures_answers still.1 captures
        · exact .pure trivial
      refine .andThen captured fun resolved => ?_
      exact .andThen (clearBoundary_answers still.1 opposite) fun _ => .pure trivial
  · exact .pure trivial

theorem assignBoundaries_answers {pairs : List (Stage × Stage)} :
    ∀ captures, Answers Confined (assignBoundaries limits pairs captures) fun _ => True := by
  induction pairs with
  | nil => exact fun _ => .pure trivial
  | cons pair pairs ih => exact fun captures => .andThen (assignBoundary_answers captures) ih

theorem assignLocations_answers {program : Program}
    (parses : ∀ name ∈ program.feedback.varyings, ∃ parsed, ResourceName.parse name = .ok parsed) :
    Answers Confined (assignLocations limits program) fun _ => True := by
  refine .andThen (.updateExecutables fun shader confined =>
    .lift (confined.exists_modifyGlobals _))
    fun _ => ?_
  refine .andThen assignAttributes_answers fun _ => ?_
  refine .andThen assignAttributes_answers fun _ => ?_
  refine .bind .get fun read _ => ?_
  dsimp only
  split
  · next first last _ _ =>
      refine .andThen (requestedCaptures_answers first parses) fun requested => ?_
      refine .andThen (assignOpenEnd_answers requested) fun captures => ?_
      refine .andThen (assignBoundaries_answers captures) fun resolved => ?_
      exact .andThen (.accept fun _ _ => trivial) fun captured => .modify fun _ each => each
  · exact .pure trivial

theorem assignUniforms_answers (options : Options) :
    Answers Confined (assignUniforms options) fun _ => True := by
  refine .bind .get fun read _ => ?_
  refine .andThen (.updateExecutables fun shader confined =>
    .lift (Uniform.exists_resizeArrays _ confined)) fun _ => ?_
  refine .bind .get fun read each => ?_
  refine .andThen (.of_ok (Uniform.exists_storage each)) fun stored => ?_
  refine .andThen (.modify fun _ each => each) fun _ => ?_
  refine .andThen (.withExecutable fun shader confined => ?_) fun _ => ?_
  · exact .andThen (.of_ok (exists_depthLayoutOf confined.globals)) fun layout =>
      .modify fun _ each => each
  refine .andThen (.modify fun _ each => each) fun _ => ?_
  refine .bind .get fun read _ => ?_
  split
  · exact .halt
  · exact .pure trivial

theorem checkRequiredStages_answers (options : Options) :
    Answers Confined (checkRequiredStages options) fun _ => True := by
  refine .bind .get fun read _ => ?_
  split
  · split
    · exact .fail _
    · split
      · exact .fail _
      · exact .pure trivial
  · exact .pure trivial

/-- The phases of a link of enclosed units go through or end the link. -/
theorem phases_answers (options : Options) {program : Program}
    (each : ∀ unit ∈ program.units, ∀ shader ∈ unit.shader :: unit.libraries,
      shader.Enclosed ∧ shader.Coherent)
    (parses : ∀ name ∈ program.feedback.varyings, ∃ parsed, ResourceName.parse name = .ok parsed) :
    Answers Confined (phases options program) fun _ => True := by
  refine .andThen checkVersions_answers fun _ => ?_
  refine .andThen (.forM fun stage _ => linkStage_answers each) fun _ => ?_
  refine .andThen linkInterfaces_answers fun _ => ?_
  refine .andThen optimize_answers fun _ => ?_
  refine .andThen (assignLocations_answers parses) fun _ => ?_
  refine .andThen (assignUniforms_answers options) fun _ => ?_
  exact checkRequiredStages_answers options

end Linking

namespace Outcome

theorem exists_compactExecutable {executable : Option Shader}
    (confined : ∀ shader ∈ executable, shader.Confined) :
    ∃ compacted, compactExecutable executable = .ok compacted := by
  cases executable with
  | none => exact ⟨none, rfl⟩
  | some shader =>
      exact ⟨some shader.compacted, by rw [compactExecutable,
        (confined shader rfl).bounded.compact_eq]; rfl⟩

theorem Each.exists_compactAll {outcome : Outcome} (each : outcome.Each Confined) :
    ∃ compacted, outcome.compactAll = .ok compacted := by
  obtain ⟨vertex, vertex_done⟩ : ∃ compacted,
      compactExecutable outcome.executables.vertex = .ok compacted :=
        exists_compactExecutable (each .vertex)
  obtain ⟨geometry, geometry_done⟩ : ∃ compacted,
      compactExecutable outcome.executables.geometry = .ok compacted :=
    exists_compactExecutable (each .geometry)
  obtain ⟨fragment, fragment_done⟩ : ∃ compacted,
      compactExecutable outcome.executables.fragment = .ok compacted :=
    exists_compactExecutable (each .fragment)
  rw [compactAll, vertex_done, Checked.ok_bind, geometry_done, Checked.ok_bind, fragment_done]
  exact ⟨_, rfl⟩

end Outcome

/-! ## Units without problems -/

namespace Shader

/-- The handles that no problem is reported about point somewhere all the same: the parameters of
signatures, the functions that are declared in bodies, and whatever is in an instruction list that
the search for problems does not go through. -/
structure UncheckedBound (shader : Shader) : Prop where
  parameters : ∀ id, ∀ signature ∈ shader.signaturesOf id,
    ∀ parameter ∈ signature.parameters, parameter < shader.vars.size
  functions : ∀ body ∈ shader.bodies, ∀ id,
    Node.instruction (.function id) ∈ body.ownNodes → id < shader.functions.size
  unreached : ∀ body ∈ shader.bodies, ¬body.ownNodes ⊆ shader.nodes → shader.Encloses body

/-- A shader without problems is enclosed if those handles point somewhere. -/
theorem NoProblems.enclosed {shader : Shader} (sound : shader.NoProblems)
    (rest : shader.UncheckedBound) :
    shader.Enclosed := by
  refine ⟨fun body listed => ?_, rest.parameters⟩
  by_cases reached : body.ownNodes ⊆ shader.nodes
  · have called : ∀ callee ∈ callees body.ownNodes, ∃ function,
        shader.functions.get? callee.function = some function ∧
          callee.signature < function.signatures.length := by
      intro callee listed
      obtain ⟨arguments, result, there⟩ := mem_callees_iff.mp listed
      exact sound.uses.2 callee arguments result (reached there)
    refine ⟨⟨fun id there => sound.bound id (mem_declaredIn.mpr (reached there)),
      fun id there => (sound.uses.1 id (reached there)).1, rest.functions body listed,
      fun callee _ _ there => ?_⟩, fun callee listed => ?_⟩
    · obtain ⟨function, found, -⟩ := called callee (mem_callees there)
      exact Arena.lt_of_get? found
    · obtain ⟨function, found, inside⟩ := called callee listed
      refine ⟨function.signatures[callee.signature], ?_⟩
      rw [At, signaturesOf_eq found]
      exact List.getElem?_eq_getElem inside
  · exact rest.unreached body listed reached

/-- In a closed shader that declares all of its functions there are no such handles. -/
theorem Closed.uncheckedBound {shader : Shader} (closed : shader.Closed)
    (all : ∀ id < shader.functions.size, id ∈ shader.declaredFunctions) :
    shader.UncheckedBound := by
  have is_declared : ∀ {id signature}, signature ∈ shader.signaturesOf id →
      id ∈ shader.declaredFunctions := by
    intro id signature listed
    refine all id (Nat.lt_of_not_le fun beyond => ?_)
    rw [signaturesOf_eq_nil beyond] at listed
    cases listed
  refine ⟨fun id signature listed => closed.parameters id (is_declared listed) signature listed,
    fun body in_bodies => ?_, fun body in_bodies unreached => ?_⟩
  · rcases mem_bodies.mp in_bodies with rfl | ⟨id, signature, listed, rfl⟩
    · exact closed.bounded.topLevel.functions
    · exact (closed.bounded.bodies id (is_declared listed) signature listed).functions
  · refine absurd (fun node own => ?_) unreached
    rcases mem_bodies.mp in_bodies with rfl | ⟨id, signature, listed, rfl⟩
    · exact Block.nodes_of_own shader.topLevel node own
    · exact nodes_of_body (is_declared listed) listed node own

end Shader

namespace Program

/-- A link of units without problems gives a result, which has succeeded exactly if no error is in
the log, provided that the handles which no problem is reported about point somewhere, too, and that
the names of captured varyings can be taken apart. -/
theorem link_returns (options : Options) {program : Program}
    (populated : ∀ unit ∈ program.units, ∀ shader ∈ unit.shader :: unit.libraries, shader.Populated)
    (sound : ∀ unit ∈ program.units, ∀ shader ∈ unit.shader :: unit.libraries, shader.problems = [])
    (rest : ∀ unit ∈ program.units, ∀ shader ∈ unit.shader :: unit.libraries, shader.UncheckedBound)
    (parses : ∀ name ∈ program.feedback.varyings, ∃ parsed, ResourceName.parse name = .ok parsed) :
    ∃ result, program.link options = .ok result ∧
      (result.linked = true ↔ result.outcome.log.hasErrors = false) := by
  have each : ∀ unit ∈ program.units, ∀ shader ∈ unit.shader :: unit.libraries,
      shader.Enclosed ∧ shader.Coherent := by
    intro unit listed shader among
    have enclosed := (problems_eq_nil.mp (sound unit listed shader among)).enclosed
      (rest unit listed shader among)
    exact ⟨enclosed, (populated unit listed shader among).coherent enclosed.confined.globals⟩
  have nothing : Outcome.Each Confined {} := fun _ _ absent => by simp at absent
  obtain ⟨answer, reached, runs, confined, -⟩ :=
    Linking.phases_answers options each parses {} nothing
  obtain ⟨outcome, compacts⟩ := confined.exists_compactAll
  refine ⟨{ program with outcome := outcome, linked := !outcome.log.hasErrors }, ?_, by simp⟩
  rw [link, runs, Checked.ok_bind]
  dsimp only
  rw [compacts]
  rfl

theorem populated_shader {units : List TranslationUnit} :
    ∀ unit ∈ (populated units).units, unit.shader.Populated := by
  intro unit listed
  obtain ⟨bare, -, rfl⟩ := List.mem_map.mp listed
  exact populated_populateSymbols bare.shader

/-- The first unit calls a function that the second defines. -/
def lending : Program :=
  populated [
    ⟨{ ofParts .fragment [.vector "shade" .shaderOut, .vector "tint" .uniform,
      .vector "light" .functionIn]
        [.ofBody "main" [.call ⟨1, 0⟩ [.load (.whole 1)] (some (.whole 0))],
          { name := "dim", signatures := [.announce (.floatVector .four) [2]] }] with
      topLevel := [.declare 0, .declare 1, .function 0, .function 1] }, []⟩,
    ⟨{ ofParts .fragment [.vector "light" .functionIn]
        [{ name := "dim"
           signatures :=
             [.define (.floatVector .four) [0] [.yield (some (.load (.whole 0)))]] }] with
      topLevel := [.function 0] }, []⟩]

theorem lending_returns : ∃ result, lending.link {} = .ok result ∧
    (result.linked = true ↔ result.outcome.log.hasErrors = false) := by
  have alone : ∀ unit ∈ lending.units, ∀ shader ∈ unit.shader :: unit.libraries,
      shader = unit.shader := by
    have no_libraries : ∀ unit ∈ lending.units, unit.libraries = [] := by decide +kernel
    intro unit listed shader among
    rw [no_libraries unit listed] at among
    exact List.mem_singleton.mp among
  have formed : ∀ unit ∈ lending.units, unit.shader.isWellFormed = true := by decide +kernel
  have all : ∀ unit ∈ lending.units, ∀ id < unit.shader.functions.size,
      id ∈ unit.shader.declaredFunctions := by decide +kernel
  refine link_returns {} (fun unit listed shader among => ?_) (by decide +kernel)
    (fun unit listed shader among => ?_) fun _ requested => nomatch requested
  · exact alone unit listed shader among ▸ populated_shader unit listed
  · obtain rfl := alone unit listed shader among
    have formed := wellFormed_of_check (formed unit listed) (populated_shader unit listed)
    have closed : unit.shader.Closed :=
      ⟨formed.on_top, formed.holds, formed.functions, formed.parameters⟩
    exact closed.uncheckedBound (all unit listed)

/-- The units of the program have populated symbol tables, no problems and no libraries, and still
its link faults. -/
def Faults (program : Program) : Prop :=
  (∀ unit ∈ program.units, unit.shader.Populated ∧ unit.shader.problems = [] ∧
    unit.libraries = []) ∧
    ∃ fault, program.link {} = .error fault

theorem faults_of_checks {units : List TranslationUnit}
    (sound : ∀ unit ∈ (populated units).units, unit.shader.problems = [] ∧ unit.libraries = [])
    (fails : ((populated units).link {}).toOption.isNone = true) : (populated units).Faults := by
  refine ⟨fun unit listed => ⟨populated_shader unit listed, sound unit listed⟩, ?_⟩
  cases runs : (populated units).link {} with
  | error fault => exact ⟨fault, rfl⟩
  | ok result =>
      rw [runs] at fails
      cases fails

/-- The parameter of a function that nothing calls does not exist. -/
def idle : Program :=
  populated [⟨.ofParts .fragment []
    [.ofBody "main" [], { name := "helper", signatures := [.define .void [0] []] }], []⟩]

/-- A function that `main` declares does not exist. -/
def nested : Program := populated [⟨.ofParts .fragment [] [.ofBody "main" [.function 1]], []⟩]

/-- The body of a function that is not declared writes to an element of an array that does not
exist. -/
def hidden : Program :=
  populated [
    ⟨.ofParts .vertex [] [.ofBody "main" []], []⟩,
    ⟨{ ofParts .geometry [] [.ofBody "main" [], .ofBody "stray"
          [.store (.element (.whole 0) (.constant (.int 0)) .int) (.constant (.int 0))]] with
      topLevel := [.function 0]
      geometry := ⟨some .points, some .points, some 1⟩ }, []⟩]

/-- It is not enough that the units have no problems: a parameter, a function declared in a body, or
a variable in a body that nothing leads to may make a link fault. -/
theorem idle_and_nested_and_hidden_fault : idle.Faults ∧ nested.Faults ∧ hidden.Faults := by
  refine ⟨?_, ?_, ?_⟩
  · exact faults_of_checks (by decide +kernel) (by decide +kernel)
  · exact faults_of_checks (by decide +kernel) (by decide +kernel)
  · exact faults_of_checks (by decide +kernel) (by decide +kernel)

end Program
end StageLink
