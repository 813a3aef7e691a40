import StageLink.Proofs.Phases

/-!
# Operations that answer

A checked operation answers unless it faults.  A check of the linker answers by granting a result or
by rejecting the program, and a phase of a link answers by going through or by ending the link with
a reason in the log.  There is a rule for every way in which operations are put together; a later
part may count on what the earlier ones have given, and a phase on what holds of every executable
that has been stored.
-/

namespace StageLink

namespace Checked

variable {Item Result : Type}

theorem exists_anyM {step : Item → Checked Bool} {items : List Item}
    (each : ∀ item ∈ items, ∃ answer, step item = .ok answer) :
    ∃ answer, items.anyM step = .ok answer := by
  induction items with
  | nil => exact ⟨false, rfl⟩
  | cons item items ih =>
      obtain ⟨here, answers⟩ := each item (List.mem_cons_self ..)
      rw [List.anyM_cons, answers, ok_bind]
      cases here with
      | true => exact ⟨true, rfl⟩
      | false => exact ih fun other listed => each other (List.mem_cons_of_mem item listed)

end Checked

namespace Judged

variable {Part Result : Type} {expected : Result → Prop}

/-- The check does not fault, and what it grants is as expected. -/
def Answers (check : Judged Result) (expected : Result → Prop) : Prop :=
  ∃ verdict, check.run = .ok verdict ∧ ∀ result, verdict = .ok result → expected result

namespace Answers

variable {check : Judged Result} {middle : Part → Prop}

theorem pure {given : Result} (holds : expected given) : Answers (pure given) expected := by
  refine ⟨.ok given, rfl, fun result same => ?_⟩
  obtain rfl := Except.ok.inj same
  exact holds

theorem throw (causes : List LinkError) : Answers (throw causes : Judged Result) expected :=
  ⟨.error causes, rfl, fun _ same => by cases same⟩

theorem reject (cause : LinkError) : Answers (reject cause : Judged Result) expected :=
    throw [cause]

theorem exists_rejects_iff {check : Judged Unit} {expected : Unit → Prop}
    (answers : Answers check expected) :
    (∃ causes, check.Rejects causes) ↔ ¬ check.Grants () := by
  obtain ⟨verdict, runs, -⟩ := answers
  cases verdict with
  | error causes => simp [Rejects, Grants, runs]
  | ok result => simp [Rejects, Grants, runs]

theorem bind {first : Judged Part} {next : Part → Judged Result}
    (first_answers : Answers first middle)
    (next_answers : ∀ part, middle part → Answers (next part) expected) :
    Answers (first >>= next) expected := by
  obtain ⟨verdict, runs, holds⟩ := first_answers
  cases verdict with
  | error causes =>
      refine ⟨.error causes, ?_, fun _ same => by cases same⟩
      rw [ExceptT.run_bind, runs, Checked.ok_bind]
      rfl
  | ok part =>
      obtain ⟨final, runs_on, holds_on⟩ := next_answers part (holds part rfl)
      refine ⟨final, ?_, holds_on⟩
      rw [ExceptT.run_bind, runs, Checked.ok_bind]
      exact runs_on

/-- A check that is only wanted for whether it grants. -/
theorem andThen {first : Judged Part} {next : Part → Judged Result}
    (first_answers : Answers first fun _ => True)
    (next_answers : ∀ part, Answers (next part) expected) : Answers (first >>= next) expected :=
  bind first_answers fun part _ => next_answers part

theorem lift {operation : Checked Result}
    (gives : ∃ result, operation = .ok result ∧ expected result) :
    Answers (monadLift operation) expected := by
  obtain ⟨result, runs, holds⟩ := gives
  refine ⟨.ok result, ?_, fun other same => ?_⟩
  · rw [runs]
    rfl
  · obtain rfl := Except.ok.inj same
    exact holds

/-- An operation that does not fault grants. -/
theorem of_ok {operation : Checked Result} (gives : ∃ result, operation = .ok result) :
    Answers (monadLift operation) fun _ => True := by
  obtain ⟨result, runs⟩ := gives
  exact lift ⟨result, runs, trivial⟩

theorem rejectAll (causes : List LinkError) : Answers (rejectAll causes) fun _ => True := by
  unfold Judged.rejectAll
  split
  · exact pure trivial
  · exact throw causes

theorem after (causes : List LinkError) (answers : Answers check expected) :
    Answers (after causes check) expected := by
  obtain ⟨verdict, runs, holds⟩ := answers
  rw [Judged.after]
  cases verdict with
  | ok result => exact ⟨.ok result, by rw [ExceptT.run_mk, runs]; rfl, holds⟩
  | error later =>
      exact ⟨.error (causes ++ later), by rw [ExceptT.run_mk, runs]; rfl,
        fun _ same => by cases same⟩

theorem mapM {Item : Type} {items : List Item} {step : Item → Judged Result}
    (steps : ∀ item ∈ items, Answers (step item) fun _ => True) :
    Answers (items.mapM step) fun _ => True := by
  induction items with
  | nil => exact pure trivial
  | cons item items ih =>
      rw [List.mapM_cons]
      refine andThen (steps item (List.mem_cons_self ..)) fun _ => ?_
      refine andThen (ih fun other listed => steps other (List.mem_cons_of_mem item listed))
        fun _ => ?_
      exact pure trivial

end Answers
end Judged

namespace Outcome

/-- Something holds of every executable. -/
def Each (held : Shader → Prop) (outcome : Outcome) : Prop :=
  ∀ stage shader, outcome.executables.get stage = some shader → held shader

variable {held : Shader → Prop} {outcome : Outcome}

theorem Each.set {stage : Stage} {shader : Shader} (each : outcome.Each held)
    (holds : held shader) :
    Each held { outcome with executables := outcome.executables.set stage (some shader) } := by
  intro other found there
  by_cases same : stage = other
  · subst same
    rw [PerStage.get_set_same] at there
    exact Option.some.inj there ▸ holds
  · rw [PerStage.get_set_other _ _ same] at there
    exact each other found there

theorem Each.present (each : outcome.Each held) : ∀ shader ∈ outcome.present, held shader := by
  intro shader listed
  obtain ⟨stage, found⟩ := mem_present.mp listed
  exact each stage shader found

end Outcome

namespace Linking

variable {Item Part Result : Type} {held : Shader → Prop} {expected : Result → Prop}

/-- From executables of which something holds, the phase does not fault, and leaves such
executables.  What it gives if it goes through is as expected. -/
def Answers (held : Shader → Prop) (phase : Linking Result) (expected : Result → Prop) : Prop :=
  ∀ start : Outcome, start.Each held → ∃ answer reached,
    phase.run.run start = .ok (answer, reached) ∧
    reached.Each held ∧ ∀ result, answer = .ok result → expected result

namespace Answers

variable {middle : Part → Prop}

theorem pure {given : Result} (holds : expected given) : Answers held (pure given) expected := by
  refine fun start each => ⟨.ok given, start, rfl, each, fun result same => ?_⟩
  obtain rfl := Except.ok.inj same
  exact holds

theorem bind {first : Linking Part} {next : Part → Linking Result}
    (first_answers : Answers held first middle)
    (next_answers : ∀ part, middle part → Answers held (next part) expected) :
    Answers held (first >>= next) expected := by
  intro start each
  obtain ⟨answer, halfway, runs, each_halfway, holds⟩ := first_answers start each
  cases answer with
  | error stop =>
      refine ⟨.error stop, halfway, ?_, each_halfway, fun _ same => by cases same⟩
      rw [ExceptT.run_bind, StateT.run_bind, runs, Checked.ok_bind]
      rfl
  | ok part =>
      obtain ⟨final, reached, runs_on, each_reached, holds_on⟩ :=
        next_answers part (holds part rfl) halfway each_halfway
      refine ⟨final, reached, ?_, each_reached, holds_on⟩
      rw [ExceptT.run_bind, StateT.run_bind, runs, Checked.ok_bind]
      exact runs_on

/-- A phase that is only wanted for what it does. -/
theorem andThen {first : Linking Part} {next : Part → Linking Result}
    (first_answers : Answers held first fun _ => True)
    (next_answers : ∀ part, Answers held (next part) expected) :
    Answers held (first >>= next) expected := bind first_answers fun part _ => next_answers part

theorem get : Answers held MonadState.get (Outcome.Each held) := by
  refine fun start each => ⟨.ok start, start, rfl, each, fun result same => ?_⟩
  obtain rfl := Except.ok.inj same
  exact each

theorem modify {change : Outcome → Outcome}
    (keeps : ∀ outcome : Outcome, outcome.Each held → (change outcome).Each held) :
    Answers held (modify change) fun _ => True :=
  fun start each => ⟨.ok (), change start, rfl, keeps start each, fun _ _ => trivial⟩

theorem fail (causes : List LinkError) : Answers held (fail causes : Linking Result) expected :=
  fun start each => ⟨.error .halt, { start with log := start.log.errors causes }, rfl, each,
    fun _ same => by cases same⟩

/-- Ending the link without a report. -/
theorem halt : Answers held (throw Halt.halt : Linking Result) expected :=
  fun start each => ⟨.error .halt, start, rfl, each, fun _ same => by cases same⟩

theorem lift {operation : Checked Result}
    (gives : ∃ result, operation = .ok result ∧ expected result) :
    Answers held (monadLift operation) expected := by
  obtain ⟨result, runs, holds⟩ := gives
  refine fun start each => ⟨.ok result, start, ?_, each, fun other same => ?_⟩
  · rw [runs]
    rfl
  · obtain rfl := Except.ok.inj same
    exact holds

/-- An operation that does not fault goes through. -/
theorem of_ok {operation : Checked Result} (gives : ∃ result, operation = .ok result) :
    Answers held (monadLift operation) fun _ => True := by
  obtain ⟨result, runs⟩ := gives
  exact lift ⟨result, runs, trivial⟩

theorem settle {check : Judged Result} (answers : check.Answers expected) :
    Answers held (settle check) expected := by
  obtain ⟨verdict, runs, holds⟩ := answers
  cases verdict with
  | ok result =>
      rw [settle_of_grants runs]
      exact pure (holds result rfl)
  | error causes =>
      rw [settle_of_rejects runs]
      exact fail causes

theorem accept {given : Except LinkError Result}
    (holds : ∀ result, given = .ok result → expected result) :
    Answers held (accept given) expected := by
  cases given with
  | ok result => exact pure (holds result rfl)
  | error cause => exact fail [cause]

theorem surrender (failure : Option LinkError) :
    Answers held (surrender failure) fun _ => True := by
  cases failure with
  | none => exact pure trivial
  | some cause => exact fail [cause]

theorem store {stage : Stage} {shader : Shader} (holds : held shader) :
    Answers held (store stage shader) fun _ => True := modify fun _ each => each.set holds

theorem withExecutable {stage : Stage} {action : Shader → Linking Unit}
    (acts : ∀ shader, held shader → Answers held (action shader) fun _ => True) :
    Answers held (withExecutable stage action) fun _ => True := by
  refine bind get fun read each => ?_
  cases found : read.executables.get stage with
  | none => exact pure trivial
  | some shader => exact acts shader (each stage shader found)

theorem forM {items : List Item} {step : Item → Linking PUnit}
    (steps : ∀ item ∈ items, Answers held (step item) fun _ => True) :
    Answers held (items.forM step) fun _ => True := by
  induction items with
  | nil => exact pure trivial
  | cons item items ih =>
      exact andThen (steps item (List.mem_cons_self ..)) fun _ =>
        ih fun other listed => steps other (List.mem_cons_of_mem item listed)

theorem mapM {items : List Item} {step : Item → Linking Result}
    (steps : ∀ item ∈ items, Answers held (step item) fun _ => True) :
    Answers held (items.mapM step) fun _ => True := by
  induction items with
  | nil => exact pure trivial
  | cons item items ih =>
      rw [List.mapM_cons]
      refine andThen (steps item (List.mem_cons_self ..)) fun _ => ?_
      refine andThen (ih fun other listed => steps other (List.mem_cons_of_mem item listed))
        fun _ => ?_
      exact pure trivial

theorem updateExecutables {change : Shader → Linking Shader}
    (changes : ∀ shader, held shader → Answers held (change shader) held) :
    Answers held (updateExecutables change) fun _ => True :=
  forM fun _ _ => withExecutable fun shader holds =>
    bind (changes shader holds) fun _ still => store still

end Answers
end Linking
end StageLink
