import StageLink.Program.Link
import StageLink.Proofs.Runs

/-!
# What a phase guarantees

A phase is described by what it needs of the outcome it starts from, by what holds of its result and
of the outcome it reaches, and by what holds of the outcome if it ends the link.  There is a rule
for every operation that phases are made of.
-/

namespace StageLink
namespace Outcome

theorem mem_present {outcome : Outcome} {shader : Shader} :
    shader ∈ outcome.present ↔ ∃ stage, outcome.executables.get stage = some shader := by
  simp only [present, List.mem_filterMap, id_eq, exists_eq_right]
  constructor
  · intro listed
    simp only [PerStage.toList, List.mem_cons, List.not_mem_nil, or_false] at listed
    rcases listed with here | here | here
    · exact ⟨.vertex, here.symm⟩
    · exact ⟨.geometry, here.symm⟩
    · exact ⟨.fragment, here.symm⟩
  · rintro ⟨stage, found⟩
    rw [← found]
    cases stage <;> simp [PerStage.toList, PerStage.get]

end Outcome

namespace Linking

variable {Item Part Result : Type} {halted before middle : Outcome → Prop}

/-! ## Checks as phases -/

section Checks

variable {check : Judged Result}

theorem settle_of_grants {result : Result} (grants : check.Grants result) :
    settle check = pure result := by
  rw [settle, show check.run = _ from grants]
  rfl

theorem settle_of_rejects {causes : List LinkError} (rejects : check.Rejects causes) :
    settle check = fail causes := by
  rw [settle, show check.run = _ from rejects]
  rfl

theorem settle_of_faults {fault : Fault} (faults : check.run = .error fault) :
    settle check = monadLift (Except.error fault : Checked Result) := by
  rw [settle, faults]
  rfl

end Checks

/-! ## Conditions before and after -/

/-- From an outcome with `before`, the phase reaches one with `after` or ends the link with
`halted`. -/
def Meets (halted before : Outcome → Prop) (phase : Linking Result)
    (after : Result → Outcome → Prop) : Prop :=
  ∀ start answer reached, before start → phase.run.run start = .ok (answer, reached) →
    match answer with
    | .ok result => after result reached
    | .error _ => halted reached

namespace Meets

variable {after : Result → Outcome → Prop} {between : Part → Outcome → Prop}

theorem weaken {weaker : Outcome → Prop} {stronger : Result → Outcome → Prop}
    {phase : Linking Result} (meets : Meets halted weaker phase stronger)
    (starts : ∀ outcome, before outcome → weaker outcome)
    (ends : ∀ result outcome, stronger result outcome → after result outcome) :
    Meets halted before phase after := by
  intro start answer reached holds runs
  have met := meets start answer reached (starts start holds) runs
  cases answer with
  | ok result => exact ends result reached met
  | error _ => exact met

theorem pure {given : Result} (holds : ∀ outcome, before outcome → after given outcome) :
    Meets halted before (pure given) after := by
  intro start answer reached start_holds runs
  cases runs
  exact holds start start_holds

theorem bind {first : Linking Part} {next : Part → Linking Result}
    (first_meets : Meets halted before first between)
    (next_meets : ∀ part, Meets halted (between part) (next part) after) :
    Meets halted before (first >>= next) after := by
  intro start answer reached holds runs
  rw [ExceptT.run_bind, StateT.run_bind] at runs
  obtain ⟨⟨found, reached_first⟩, runs_first, following⟩ := Checked.bind_eq_ok.mp runs
  have met := first_meets start found reached_first holds runs_first
  cases found with
  | ok part => exact next_meets part reached_first answer reached met following
  | error stop =>
      cases following
      exact met

/-- Sequencing through a condition that is named. -/
theorem through (between : Part → Outcome → Prop) {first : Linking Part}
    {next : Part → Linking Result} (first_meets : Meets halted before first between)
    (next_meets : ∀ part, Meets halted (between part) (next part) after) :
    Meets halted before (first >>= next) after := bind first_meets next_meets

/-- A fact about the run so far may be used. -/
theorem given {fact : Prop} {phase : Linking Result}
    (meets : fact → Meets halted before phase after) :
    Meets halted (fun outcome => before outcome ∧ fact) phase after :=
  fun start answer reached holds runs => meets holds.2 start answer reached holds.1 runs

theorem get : Meets halted before MonadState.get fun read outcome =>
    before outcome ∧ read = outcome := by
  intro start answer reached holds runs
  cases runs
  exact ⟨holds, rfl⟩

theorem modify {change : Outcome → Outcome} {after : Unit → Outcome → Prop}
    (holds : ∀ outcome, before outcome → after () (change outcome)) :
    Meets halted before (modify change) after := by
  intro start answer reached start_holds runs
  cases runs
  exact holds start start_holds

theorem fail {causes : List LinkError}
    (holds : ∀ outcome, before outcome →
      halted { outcome with log := outcome.log.errors causes }) :
    Meets halted before (fail causes) after := by
  intro start answer reached start_holds runs
  cases runs
  exact holds start start_holds

/-- Halting without a report. -/
theorem halt (holds : ∀ outcome, before outcome → halted outcome) :
    Meets halted before (throw Halt.halt) after := by
  intro start answer reached start_holds runs
  cases runs
  exact holds start start_holds

theorem lift {operation : Checked Result}
    (holds : ∀ outcome result, before outcome → operation = .ok result → after result outcome) :
    Meets halted before (monadLift operation) after := by
  intro start answer reached start_holds runs
  cases operation with
  | ok result =>
      cases runs
      exact holds start result start_holds rfl
  | error fault => cases runs

theorem settle {check : Judged Result}
    (granted : ∀ outcome result, before outcome → check.Grants result → after result outcome)
    (rejected : ∀ outcome causes, before outcome → check.Rejects causes →
      halted { outcome with log := outcome.log.errors causes }) :
    Meets halted before (settle check) after := by
  cases answers : check.run with
  | error fault =>
      rw [settle_of_faults answers]
      exact lift fun _ _ _ impossible => by cases impossible
  | ok verdict =>
      cases verdict with
      | ok result =>
          rw [settle_of_grants answers]
          exact pure fun outcome holds => granted outcome result holds answers
      | error causes =>
          rw [settle_of_rejects answers]
          exact fail fun outcome holds => rejected outcome causes holds answers

theorem accept {given : Except LinkError Result}
    (accepted : ∀ outcome result, before outcome → given = .ok result → after result outcome)
    (refused : ∀ outcome cause, before outcome →
      halted { outcome with log := outcome.log.errors [cause] }) :
    Meets halted before (accept given) after := by
  cases given with
  | ok result => exact pure fun outcome holds => accepted outcome result holds rfl
  | error cause => exact fail fun outcome holds => refused outcome cause holds

theorem surrender {failure : Option LinkError} {after : Unit → Outcome → Prop}
    (goes_on : ∀ outcome, before outcome → failure = none → after () outcome)
    (ends : ∀ outcome cause, before outcome →
      halted { outcome with log := outcome.log.errors [cause] }) :
    Meets halted before (surrender failure) after := by
  cases failure with
  | none => exact pure fun outcome holds => goes_on outcome holds rfl
  | some cause => exact fail fun outcome holds => ends outcome cause holds

theorem withExecutable {stage : Stage} {action : Shader → Linking Unit}
    {after : Unit → Outcome → Prop}
    (present : ∀ shader,
      Meets halted (fun outcome => before outcome ∧ outcome.executables.get stage = some shader)
        (action shader) after)
    (absent : ∀ outcome, before outcome → outcome.executables.get stage = none →
      after () outcome) :
    Meets halted before (withExecutable stage action) after := by
  refine bind get fun read => ?_
  cases found : read.executables.get stage with
  | none =>
      refine pure ?_
      rintro outcome ⟨holds, rfl⟩
      exact absent read holds found
  | some shader =>
      refine (present shader).weaken ?_ fun _ _ holds => holds
      rintro outcome ⟨holds, rfl⟩
      exact ⟨holds, found⟩

theorem forM {items : List Item} {step : Item → Linking PUnit}
    (keeps : ∀ item ∈ items, Meets halted before (step item) fun _ => before) :
    Meets halted before (items.forM step) fun _ => before := by
  induction items with
  | nil => exact pure fun outcome holds => holds
  | cons item items ih =>
      exact bind (keeps item (List.mem_cons_self ..)) fun _ =>
        ih fun other listed => keeps other (List.mem_cons_of_mem item listed)

/-- Every step of a sequence may find out something about its item. -/
theorem forEach {items : List Item} {step : Item → Linking PUnit} {fact : Item → Prop}
    (steps : ∀ item ∈ items,
      Meets halted before (step item) fun _ outcome => before outcome ∧ fact item) :
    Meets halted before (items.forM step) fun _ outcome =>
      before outcome ∧ ∀ item ∈ items, fact item := by
  induction items with
  | nil => exact pure fun outcome holds => ⟨holds, by simp⟩
  | cons item items ih =>
      refine bind (steps item (List.mem_cons_self ..)) fun _ => given fun here => ?_
      refine (ih fun other listed => steps other (List.mem_cons_of_mem item listed)).weaken
        (fun _ holds => holds) fun _ outcome holds => ⟨holds.1, fun other listed => ?_⟩
      rcases List.mem_cons.mp listed with rfl | later
      · exact here
      · exact holds.2 other later

theorem store {stage : Stage} {shader : Shader} {after : Unit → Outcome → Prop}
    (holds : ∀ outcome, before outcome →
      after () { outcome with executables := outcome.executables.set stage (some shader) }) :
    Meets halted before (store stage shader) after := modify holds

end Meets

/-! ## Executables -/

/-- The executables of an outcome by stage. -/
abbrev Executables := PerStage (Option Shader)

def Has (executables : Executables) (outcome : Outcome) : Prop :=
  outcome.executables = executables

/-- Executables that are all absent or present alike, and related stage by stage. -/
def StageWise (related : Stage → Shader → Shader → Prop) (before after : Executables) : Prop :=
  ∀ stage, Option.Rel (related stage) (before.get stage) (after.get stage)

theorem StageWise.refl {related : Stage → Shader → Shader → Prop}
    (reflexive : ∀ stage shader, related stage shader shader) (executables : Executables) :
    StageWise related executables executables :=
  fun stage => rel_refl (reflexive stage) _

theorem StageWise.trans {related : Stage → Shader → Shader → Prop}
    {first second third : Executables}
    (transitive : ∀ stage one other last, related stage one other → related stage other last →
      related stage one last)
    (before : StageWise related first second) (after : StageWise related second third) :
    StageWise related first third :=
  fun stage => rel_trans (transitive stage) (before stage) (after stage)

theorem StageWise.isSome {related : Stage → Shader → Shader → Prop} {before after : Executables}
    (stage_wise : StageWise related before after) (stage : Stage) :
    (after.get stage).isSome = (before.get stage).isSome := by
  have here := stage_wise stage
  revert here
  generalize before.get stage = one
  generalize after.get stage = other
  rintro (_ | _) <;> rfl

theorem StageWise.imp {related weaker : Stage → Shader → Shader → Prop} {before after : Executables}
    (implies : ∀ stage one other, related stage one other → weaker stage one other)
    (stage_wise : StageWise related before after) : StageWise weaker before after :=
  fun stage => rel_imp (implies stage) (stage_wise stage)

/-- An executable has come from one that it is related to. -/
theorem StageWise.origin_of {related : Stage → Shader → Shader → Prop} {before after : Executables}
    (stage_wise : StageWise related before after) {stage : Stage} {shader : Shader}
    (now : after.get stage = some shader) :
    ∃ origin, before.get stage = some origin ∧ related stage origin shader :=
  exists_of_rel_some (now ▸ stage_wise stage)

theorem Meets.store_has {executables : Executables} (stage : Stage) (shader : Shader) :
    Meets halted (Has executables) (Linking.store stage shader) fun _ =>
      Has (executables.set stage (some shader)) := by
  refine Meets.store fun outcome has => ?_
  rw [Has] at has ⊢
  rw [has]

theorem Meets.get_has {executables : Executables} :
    Meets halted (Has executables) MonadState.get fun read outcome =>
      Has executables outcome ∧ read.executables = executables :=
  Meets.get.weaken (fun _ has => has) fun _ _ same => ⟨same.1, same.2 ▸ same.1⟩

/-- Doing something with an executable that is known. -/
theorem Meets.atExecutable {executables : Executables} {stage : Stage}
    {action : Shader → Linking Unit} {after : Unit → Outcome → Prop}
    (present : ∀ shader, executables.get stage = some shader →
      Meets halted (Has executables) (action shader) after)
    (absent : executables.get stage = none → ∀ outcome, Has executables outcome →
      after () outcome) :
    Meets halted (Has executables) (Linking.withExecutable stage action) after := by
  refine Meets.withExecutable (fun shader => ?_) fun outcome has absent_here => ?_
  · intro start answer reached holds runs
    obtain ⟨has, found⟩ := holds
    have same : start.executables = executables := has
    exact present shader (same ▸ found) start answer reached has runs
  · have same : outcome.executables = executables := has
    exact absent (same ▸ absent_here) outcome has

theorem Meets.fromExecutables {phase : Linking Result} {after : Result → Outcome → Prop}
    (each : ∀ outcome, before outcome → Meets halted (Has outcome.executables) phase after) :
    Meets halted before phase after :=
  fun start answer reached holds runs => each start holds start answer reached rfl runs

theorem Meets.updateExecutables {related : Stage → Shader → Shader → Prop}
    {change : Shader → Linking Shader} {executables : Executables}
    (changes : ∀ stage shader current, executables.get stage = some shader →
      Meets halted (Has current) (change shader)
        fun changed outcome => Has current outcome ∧ related stage shader changed) :
    Meets halted (Has executables) (updateExecutables change)
      fun _ outcome => StageWise related executables outcome.executables := by
  -- the stages that are still to come have the executables they started with
  let Reached (stages : List Stage) (outcome : Outcome) : Prop := ∀ stage,
    if stage ∈ stages then outcome.executables.get stage = executables.get stage
    else Option.Rel (related stage) (executables.get stage) (outcome.executables.get stage)
  have each : ∀ stages : List Stage, stages.Nodup → Meets halted (Reached stages)
      (stages.forM fun stage => Linking.withExecutable stage fun shader => do
        Linking.store stage (← change shader))
      fun _ => Reached [] := by
    intro stages
    induction stages with
    | nil => exact fun _ => Meets.pure fun _ holds => holds
    | cons first rest ih =>
        intro distinct
        obtain ⟨not_later, distinct_later⟩ := List.nodup_cons.mp distinct
        refine Meets.bind ?_ fun _ => ih distinct_later
        refine Meets.withExecutable (fun shader => ?_) fun outcome reached absent stage => ?_
        · refine Meets.fromExecutables fun outcome here => ?_
          obtain ⟨reached, present⟩ := here
          have was : executables.get first = some shader := by
            have same := reached first
            rw [if_pos (List.mem_cons_self ..)] at same
            exact same ▸ present
          refine Meets.bind (changes first shader outcome.executables was) fun changed => ?_
          refine Meets.store ?_
          rintro later ⟨same, holds⟩ stage
          have same : later.executables = outcome.executables := same
          simp only [same]
          have reached_stage := reached stage
          by_cases here : stage = first
          · subst here
            simpa [not_later, was] using Option.Rel.some holds
          · rw [PerStage.get_set_other _ _ (Ne.symm here)]
            simpa [here] using reached_stage
        · have reached_stage := reached stage
          by_cases here : stage = first
          · subst here
            rw [if_pos (List.mem_cons_self ..), absent] at reached_stage
            rw [if_neg not_later, absent, ← reached_stage]
            exact .none
          · simpa [here] using reached_stage
  refine (each Stage.all (by decide)).weaken (fun outcome same stage => ?_)
    fun _ outcome holds stage => by simpa using holds stage
  have same : outcome.executables = executables := same
  rw [same]
  simp [Stage.all]
  cases stage <;> simp

/-! ## Success -/

/-- An error has been reported. -/
def Failed (outcome : Outcome) : Prop := outcome.log.hasErrors = true

theorem failed_errors (outcome : Outcome) {causes : List LinkError} (some_cause : causes ≠ []) :
    Failed { outcome with log := outcome.log.errors causes } := by
  simp [Failed, Log.hasErrors_errors, some_cause]

/-- A phase that does not fail goes on with what its check has granted. -/
theorem Meets.grant {check : Judged Result} {after : Result → Outcome → Prop}
    (reasoned : check.Reasoned)
    (granted : ∀ outcome result, before outcome → check.Grants result → after result outcome) :
    Meets Failed before (Linking.settle check) after :=
  .settle granted fun outcome causes _ rejects => failed_errors outcome (reasoned causes rejects)

end Linking
end StageLink
