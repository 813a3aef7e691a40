import StageLink.Proofs.Captures
import StageLink.Proofs.Phases

/-!
# What phases leave alone

Once the executables have been compared, phases store executables, report, and note what they find
out about captures and uniforms.  What holds of an outcome and depends on nothing of that stands
until the end of the link.
-/

namespace StageLink
namespace Linking

variable {Part Result : Type} {kept : Outcome → Prop}

/-- Nothing is asked for when a link ends early. -/
def Anyhow (_ : Outcome) : Prop := True

/-- What a phase guarantees when it goes through. -/
theorem Meets.anyhow {halted before : Outcome → Prop} {phase : Linking Result}
    {after : Result → Outcome → Prop} (meets : Meets halted before phase after) :
    Meets Anyhow before phase after := by
  intro start answer reached holds runs
  have met := meets start answer reached holds runs
  cases answer with
  | ok result => exact met
  | error _ => trivial

/-- What a phase guarantees in two respects. -/
theorem Meets.and {before other : Outcome → Prop} {phase : Linking Result}
    {after another : Result → Outcome → Prop} (meets : Meets Anyhow before phase after)
    (meets_other : Meets Anyhow other phase another) :
    Meets Anyhow (fun outcome => before outcome ∧ other outcome) phase
      fun result outcome => after result outcome ∧ another result outcome := by
  intro start answer reached holds runs
  have met := meets start answer reached holds.1 runs
  have met_other := meets_other start answer reached holds.2 runs
  cases answer with
  | ok result => exact ⟨met, met_other⟩
  | error _ => trivial

/-- Storing executables, listing uniforms and reporting make no difference. -/
structure Standing (kept : Outcome → Prop) : Prop where
  stored : ∀ {outcome} stage shader, kept outcome →
    kept { outcome with executables := outcome.executables.set stage (some shader) }
  listed : ∀ {outcome} uniforms usages, kept outcome →
    kept { outcome with uniforms := uniforms, usages := usages }
  layered : ∀ {outcome} layout, kept outcome → kept { outcome with depthLayout := layout }
  reported : ∀ {outcome} log, kept outcome → kept { outcome with log := log }

/-- What has been there is there after the phase, unless that ends the link. -/
abbrev Preserves (kept : Outcome → Prop) (phase : Linking Result) : Prop :=
  Meets Anyhow kept phase fun _ => kept

/-- What has been there is there after the phase, which gives as many results as are asked for. -/
abbrev Counts (kept : Outcome → Prop) (count : Nat) (phase : Linking (List Part)) : Prop :=
  Meets Anyhow kept phase fun results outcome => kept outcome ∧ results.length = count

namespace Preserves

theorem bind {first : Linking Part} {next : Part → Linking Result}
    (first_preserves : Preserves kept first) (next_preserves : ∀ part, Preserves kept (next part)) :
    Preserves kept (first >>= next) :=
  Meets.bind first_preserves next_preserves

theorem pure (result : Result) : Preserves kept (pure result) := Meets.pure fun _ holds => holds

theorem get : Preserves kept MonadState.get :=
  Meets.get.weaken (fun _ holds => holds) fun _ _ read => read.1

theorem lift (operation : Checked Result) : Preserves kept (monadLift operation : Linking Result) :=
  Meets.lift fun _ _ holds _ => holds

theorem fail (causes : List LinkError) : Preserves kept (fail causes : Linking Result) :=
  Meets.fail fun _ _ => trivial

theorem settle (check : Judged Result) : Preserves kept (settle check) :=
  Meets.settle (fun _ _ holds _ => holds) fun _ _ _ _ => trivial

theorem accept (given : Except LinkError Result) : Preserves kept (accept given) :=
  Meets.accept (fun _ _ holds _ => holds) fun _ _ _ => trivial

theorem surrender (failure : Option LinkError) : Preserves kept (surrender failure) :=
  Meets.surrender (fun _ holds _ => holds) fun _ _ _ => trivial

theorem withExecutable {stage : Stage} {action : Shader → Linking Unit}
    (acts : ∀ shader, Preserves kept (action shader)) :
    Preserves kept (withExecutable stage action) :=
  Meets.withExecutable
    (fun shader => (acts shader).weaken (fun _ holds => holds.1) fun _ _ holds => holds)
    fun _ holds _ => holds

end Preserves

namespace Counts

theorem bind {first : Linking Part} {next : Part → Linking (List Result)} {count : Nat}
    (first_preserves : Preserves kept first) (next_counts : ∀ part, Counts kept count (next part)) :
    Counts kept count (first >>= next) :=
  Meets.bind first_preserves next_counts

theorem pure {results : List Part} {count : Nat} (counted : results.length = count) :
    Counts kept count (pure results) := Meets.pure fun _ holds => ⟨holds, counted⟩

/-- A phase may count on the number of results of the one before. -/
theorem next {first : Linking (List Part)} {next : List Part → Linking Result} {count : Nat}
    {after : Result → Outcome → Prop} (first_counts : Counts kept count first)
    (next_meets : ∀ results, results.length = count → Meets Anyhow kept (next results) after) :
    Meets Anyhow kept (first >>= next) after :=
  Meets.bind first_counts fun results => Meets.given (next_meets results)

end Counts

/-! ## Phases -/

namespace Preserves

section Phases

theorem requestedCaptures (request : FeedbackRequest) (first : Stage) :
    Counts kept request.varyings.length (requestedCaptures request first) := by
  unfold Linking.requestedCaptures
  split
  · next nothing => exact Counts.pure (by simp [List.isEmpty_iff.mp nothing])
  · split
    · exact Meets.fail fun _ _ => trivial
    · refine Meets.settle (fun _ captures holds grants => ⟨holds, ?_⟩) fun _ _ _ _ => trivial
      exact (Capture.parseAll_asks grants).2.1.length_eq.symm

variable (standing : Standing kept)
include standing

theorem store (stage : Stage) (shader : Shader) : Preserves kept (store stage shader) :=
  Meets.store fun _ holds => standing.stored stage shader holds

theorem updateExecutables {change : Shader → Linking Shader}
    (changes : ∀ shader, Preserves kept (change shader)) :
    Preserves kept (updateExecutables change) :=
  Meets.forM fun _ _ => withExecutable fun shader =>
    bind (changes shader) fun _ => store standing _ _

theorem optimize : Preserves kept optimize :=
  updateExecutables standing fun _ => bind (settle _) fun _ => pure _

theorem assignAttributes (stage : Stage) (target : AttributeTarget) (limit : Nat)
    (bindings : Bindings) : Preserves kept (assignAttributes stage target limit bindings) :=
  withExecutable fun _ => bind (lift _) fun _ =>
    bind (store standing _ _) fun _ => surrender _

omit standing in
theorem resolveCaptures (producer : Shader) (captures : List Capture) :
    Counts kept captures.length (resolveCaptures producer captures) := by
  induction captures with
  | nil => exact Counts.pure rfl
  | cons capture captures ih =>
      rw [Linking.resolveCaptures, List.mapM_cons]
      exact Counts.bind (settle _) fun _ => Counts.next ih fun _ counted =>
        Counts.pure (congrArg (· + 1) counted)

theorem assignLastOutputs (limit : Nat) (stage : Stage) (captures : List Capture)
    (shader : Shader) :
    Counts kept captures.length (assignLastOutputs limit stage captures shader) := by
  unfold Linking.assignLastOutputs
  split
  · exact Counts.pure rfl
  · exact Counts.bind (lift _) fun _ => Counts.bind (store standing _ _) fun _ =>
      Counts.bind (surrender _) fun _ => resolveCaptures _ _

theorem assignOpenEnd (limit : Nat) (first last : Stage) (captures : List Capture) :
    Counts kept captures.length (assignOpenEnd limit first last captures) := by
  refine Counts.bind get fun read => ?_
  split
  · exact Counts.pure rfl
  · split
    · refine Counts.next (assignLastOutputs standing _ _ _ _) fun _ counted => ?_
      exact Counts.bind (withExecutable fun _ =>
        bind (lift _) fun _ => store standing _ _) fun _ => Counts.pure counted
    · split
      · exact Counts.bind (lift _) fun _ => Counts.bind (store standing _ _)
          fun _ => Counts.pure rfl
      · exact Counts.pure rfl

omit standing in
theorem capturesBefore (next : Stage) (producer : Shader) (captures : List Capture) :
    Counts kept captures.length (capturesBefore next producer captures) := by
  unfold Linking.capturesBefore
  split
  · exact resolveCaptures _ _
  · exact Counts.pure rfl

theorem clearBoundary (limits : Limits) (stage next : Stage) (producer consumer : Shader) :
    Preserves kept (clearBoundary limits stage next producer consumer) :=
  bind (lift _) fun _ => bind (lift _) fun _ =>
    bind (store standing _ _) fun _ => bind (store standing _ _) fun _ =>
      bind (settle _) fun _ => settle _

theorem assignBoundary (limits : Limits) (stage next : Stage) (captures : List Capture) :
    Counts kept captures.length (assignBoundary limits stage next captures) := by
  refine Counts.bind get fun read => ?_
  dsimp only
  split
  · refine Counts.bind (lift _) fun _ => Counts.bind (store standing _ _) fun _ => ?_
    refine Counts.bind (store standing _ _) fun _ => Counts.bind (surrender _) fun _ => ?_
    exact Counts.next (capturesBefore _ _ _) fun _ counted =>
      Counts.bind (clearBoundary standing _ _ _ _ _) fun _ => Counts.pure counted
  · exact Counts.pure rfl

theorem assignBoundaries (limits : Limits) (pairs : List (Stage × Stage))
    (captures : List Capture) :
    Counts kept captures.length (assignBoundaries limits pairs captures) := by
  induction pairs generalizing captures with
  | nil => exact Counts.pure rfl
  | cons pair pairs ih =>
      exact Counts.next (assignBoundary standing _ _ _ _) fun resolved counted =>
        counted ▸ ih resolved

/-- Assigning locations touches the list of captures, too. -/
theorem assignLocations (captured : ∀ {outcome} entries, kept outcome →
      kept { outcome with captured := entries }) (limits : Limits) (program : Program) :
    Preserves kept (assignLocations limits program) := by
  refine bind (updateExecutables standing fun _ => lift _) fun _ => ?_
  refine bind (assignAttributes standing _ _ _ _) fun _ => ?_
  refine bind (assignAttributes standing _ _ _ _) fun _ => ?_
  refine bind get fun read => ?_
  dsimp only
  split
  · refine Counts.next (requestedCaptures _ _) fun _ _ => ?_
    refine Counts.next (assignOpenEnd standing _ _ _ _) fun _ _ => ?_
    refine Counts.next (assignBoundaries standing _ _ _) fun _ _ => ?_
    exact bind (accept _) fun _ => Meets.modify fun _ holds => captured _ holds
  · exact pure _

theorem assignUniforms (options : Options) : Preserves kept (assignUniforms options) := by
  refine bind get fun read => ?_
  refine bind (updateExecutables standing fun _ => lift _) fun _ => ?_
  refine bind get fun read => bind (lift _) fun answer => ?_
  refine bind (Meets.modify fun _ holds => standing.listed _ _ holds) fun _ => ?_
  refine bind (withExecutable fun _ => bind (lift _) fun _ =>
    Meets.modify fun _ holds => standing.layered _ holds) fun _ => ?_
  refine bind (Meets.modify fun _ holds => standing.reported _ holds) fun _ => ?_
  refine bind get fun read => ?_
  split
  · exact Meets.halt fun _ _ => trivial
  · exact pure _

omit standing in
theorem checkRequiredStages (options : Options) : Preserves kept (checkRequiredStages options) := by
  refine bind get fun read => ?_
  split
  · split
    · exact fail _
    · split
      · exact fail _
      · exact pure _
  · exact pure _

end Phases

end Preserves
end Linking
end StageLink
