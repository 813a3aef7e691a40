import StageLink.Program.Link
import StageLink.Proofs.Agreement

/-!
# Checks say why they reject

A link succeeds if no error has been reported.  For that to mean that no check has rejected, every
check that rejects has to give a reason.
-/

namespace StageLink

open Judged

namespace Declaration

theorem merge_reasoned {existing declared : Variable} {errors : List LinkError}
    (fails : merge existing declared = (errors, none)) : errors ≠ [] := by
  unfold merge at fails
  split at fails
  · obtain ⟨rfl, -⟩ := Prod.mk.inj fails
    simp
  · dsimp only at fails
    split at fails
    · obtain ⟨rfl, -⟩ := Prod.mk.inj fails
      simp
    · cases fails

theorem resolveFrom_reasoned {uniformsOnly : Bool} {items : List (Shader × VariableId)}
    {errors : List LinkError} {resolved : Resolutions} :
    (resolveFrom uniformsOnly errors resolved items).Reasoned := by
  induction items generalizing errors resolved with
  | nil => exact reasoned_bind reasoned_rejectAll fun _ => reasoned_pure
  | cons item items ih =>
      refine reasoned_bind reasoned_monadLift fun declared => ?_
      split
      · split
        · exact ih
        · split
          · next fails => exact reasoned_throw (by simp [merge_reasoned fails])
          · exact ih
      · exact ih

end Declaration

theorem InterfaceBlock.checkUnitsFrom_reasoned {items : List (Shader × VariableId)}
    {seen : List Sighting} : (checkUnitsFrom seen items).Reasoned := by
  induction items generalizing seen with
  | nil => exact reasoned_pure
  | cons item items ih =>
      refine reasoned_bind reasoned_monadLift fun declared => ?_
      split
      · exact ih
      · split
        · exact ih
        · split
          · exact ih
          · exact reasoned_reject

theorem InterfaceBlock.checkInputs_reasoned {outputs : NameTable Ty} {consumer : Shader}
    {ids : List VariableId} : (checkInputs outputs consumer ids).Reasoned := by
  induction ids with
  | nil => exact reasoned_pure
  | cons id ids ih =>
      refine reasoned_bind reasoned_monadLift fun declared => ?_
      split
      · exact ih
      · split
        · exact ih
        · split
          · exact ih
          · exact reasoned_reject

theorem InterfaceBlock.checkBoundary_reasoned {producer consumer : Shader} :
    (checkBoundary producer consumer).Reasoned :=
  reasoned_bind (reasoned_mapM (fun _ => reasoned_monadLift) _) fun _ => checkInputs_reasoned

theorem Boundary.check_reasoned {producer consumer : Shader} :
    (check producer consumer).Reasoned :=
  reasoned_bind (reasoned_mapM (fun _ => reasoned_monadLift) _) fun _ =>
    reasoned_bind (reasoned_mapM (fun _ => reasoned_monadLift) _) fun _ => reasoned_rejectAll

theorem Definition.check_reasoned {units : List Shader} : (check units).Reasoned :=
  reasoned_bind reasoned_monadLift fun _ => reasoned_rejectAll

theorem Recursion.check_reasoned {shader : Shader} : (check shader).Reasoned :=
  reasoned_bind reasoned_monadLift fun _ => reasoned_bind reasoned_monadLift fun _ =>
    reasoned_bind
      (reasoned_mapM (fun _ => reasoned_bind reasoned_monadLift fun _ => reasoned_pure) _)
      fun _ => reasoned_rejectAll

namespace Resolution

theorem step_reasoned {libraries : List Shader} {shader : Shader} :
    (step libraries shader).Reasoned := by
  refine reasoned_bind reasoned_monadLift fun first => ?_
  cases first with
  | none => exact reasoned_pure
  | some target =>
      refine reasoned_bind reasoned_monadLift fun _ => ?_
      refine reasoned_bind reasoned_monadLift fun _ => ?_
      refine reasoned_bind reasoned_monadLift fun found => ?_
      cases found with
      | none => exact reasoned_reject
      | some pair => exact reasoned_bind reasoned_monadLift fun _ => reasoned_pure

theorem resolveCalls_reasoned {libraries : List Shader} {shader : Shader} :
    (resolveCalls libraries shader).Reasoned := by
  rw [resolveCalls]
  generalize signatureCount shader + total (libraries.map signatureCount) = count
  induction count generalizing shader with
  | zero => exact reasoned_pure
  | succ count ih =>
      refine reasoned_bind step_reasoned fun found => ?_
      cases found with
      | none => exact reasoned_pure
      | some resolved => exact ih

end Resolution

namespace Merge

theorem assemble_reasoned {stage : Stage} {version : Nat} {units : List TranslationUnit}
    {resolutions : Resolutions} {blocks : List UniformBlock} {main : Shader}
    {others : List Shader} :
    (assemble stage version units resolutions blocks main others).Reasoned := by
  refine reasoned_bind reasoned_monadLift fun merged => ?_
  refine reasoned_bind (reasoned_after Resolution.resolveCalls_reasoned) fun resolved => ?_
  refine reasoned_bind reasoned_monadLift fun agreed => ?_
  refine reasoned_bind reasoned_monadLift fun fitted => ?_
  refine reasoned_bind reasoned_monadLift fun sized => ?_
  exact reasoned_bind reasoned_rejectAll fun _ => reasoned_pure

theorem link_reasoned {stage : Stage} {version : Nat} {limits : Limits}
    {units : List TranslationUnit} : (link stage version limits units).Reasoned := by
  refine reasoned_bind Declaration.resolveFrom_reasoned fun resolutions => ?_
  refine reasoned_bind InterfaceBlock.checkUnitsFrom_reasoned fun _ => ?_
  dsimp only
  split
  · refine reasoned_bind reasoned_pure fun blocks => ?_
    refine reasoned_bind Definition.check_reasoned fun _ => ?_
    split
    · exact reasoned_reject
    · exact assemble_reasoned
  · rw [Judged.reject_bind]
    exact reasoned_reject

end Merge

namespace StageRules

theorem clipUsage_reasoned {shader : Shader} {version : Nat} {isEs : Bool} :
    (clipUsage shader version isEs).Reasoned := by
  unfold clipUsage
  split
  · exact reasoned_pure
  · refine reasoned_bind reasoned_monadLift fun _ => ?_
    refine reasoned_bind reasoned_monadLift fun _ => ?_
    dsimp only
    split
    · exact reasoned_bind reasoned_reject fun _ => reasoned_pure
    · exact reasoned_pure

theorem checkVertex_reasoned {shader : Shader} {version : Nat} {isEs : Bool} :
    (checkVertex shader version isEs).Reasoned := by
  unfold checkVertex
  dsimp only
  split
  · refine reasoned_bind reasoned_monadLift fun writes => ?_
    split
    · exact clipUsage_reasoned
    · exact reasoned_bind reasoned_reject fun _ => clipUsage_reasoned
  · exact clipUsage_reasoned

theorem checkFragment_reasoned {shader : Shader} : (checkFragment shader).Reasoned := by
  unfold checkFragment
  refine reasoned_bind reasoned_monadLift fun color => ?_
  split
  · refine reasoned_bind reasoned_monadLift fun data => ?_
    split
    · exact reasoned_reject
    · exact reasoned_pure
  · exact reasoned_pure

theorem check_reasoned {shader : Shader} {version : Nat} {isEs : Bool} :
    (check shader version isEs).Reasoned := by
  unfold check
  split
  · exact reasoned_bind checkVertex_reasoned fun _ => reasoned_pure
  · exact reasoned_bind (reasoned_bind clipUsage_reasoned fun _ => reasoned_pure)
      fun _ => reasoned_pure
  · exact reasoned_bind checkFragment_reasoned fun _ => reasoned_pure

end StageRules

namespace Capture

theorem parseAll_reasoned {requested : List String} : (parseAll requested).Reasoned := by
  rw [parseAll]
  generalize ([] : List Capture) = sofar
  induction requested generalizing sofar with
  | nil => exact reasoned_pure
  | cons first rest ih =>
      refine reasoned_bind reasoned_monadLift fun name => ?_
      split
      · exact reasoned_reject
      · exact ih _

theorem resolve_reasoned {producer : Shader} {capture : Capture} :
    (resolve producer capture).Reasoned := by
  refine reasoned_bind reasoned_monadLift fun found => ?_
  cases found with
  | none => exact reasoned_reject
  | some output =>
      dsimp only
      split
      · exact reasoned_pure
      · exact reasoned_reject

end Capture

namespace Varying

theorem checkOutputs_reasoned {limits : Limits} {shader : Shader} :
    (checkOutputs limits shader).Reasoned := by
  refine reasoned_bind reasoned_monadLift fun used => ?_
  dsimp only
  split
  · exact reasoned_reject
  · exact reasoned_pure

theorem checkInputs_reasoned {limits : Limits} {shader : Shader} :
    (checkInputs limits shader).Reasoned := by
  refine reasoned_bind reasoned_monadLift fun used => ?_
  dsimp only
  split
  · exact reasoned_reject
  · exact reasoned_pure

end Varying
end StageLink
