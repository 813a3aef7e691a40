import StageLink.Proofs.Reporting

/-!
# Repeating until nothing changes

What is repeated for as long as it reports a change comes to an end, since the shader gets lighter
each time, and leaves a shader that it does not change any more.  Where optimizing has come to its
end, every signature is the main one or is called.
-/

namespace StageLink
namespace Shader

variable {shader : Shader}

/-- A simplification is repeated for as long as it reports a change, with the shader that it leaves
in the end.  The last time it reports none. -/
inductive Exhausts (simplify : Shader → Shader) (reports : Shader → Bool) : Shader → Shader → Prop
  | last {before} : reports before = false → Exhausts simplify reports before (simplify before)
  | again {before left} : reports before = true → Exhausts simplify reports (simplify before) left →
      Exhausts simplify reports before left

section Repetition

variable {simplify : Shader → Shader} {reports : Shader → Bool}

/-- Repeating what reports its changes exactly comes to an end. -/
theorem exhausts (exact_step : ∀ shader, Exact weight (reports shader) shader (simplify shader))
    (shader : Shader) : Exhausts simplify reports shader (shader.exhaust simplify) := by
  induction shader using exhaust.induct simplify with
  | case1 shader lighter ih =>
      rw [exhaust, if_pos lighter]
      exact .again ((exact_step shader).report_eq.trans (decide_eq_true lighter)) ih
  | case2 shader finished =>
      rw [exhaust, if_neg finished]
      exact .last ((exact_step shader).report_eq.trans (decide_eq_false finished))

/-- What is left in the end is not changed any more. -/
theorem Exhausts.ends {left : Shader}
    (exact_step : ∀ shader, Exact weight (reports shader) shader (simplify shader))
    (exhausted : Exhausts simplify reports shader left) : reports left = false := by
  induction exhausted with
  | last nothing =>
      rw [(exact_step _).same nothing]
      exact nothing
  | again _ _ ih => exact ih

end Repetition

/-! ## Passes -/

theorem passesReport_eq_false {passes : List Pass} : shader.passesReport passes = false ↔
    ∀ pass ∈ passes, pass.reports shader = false := by
  induction passes with
  | nil => simp [passesReport]
  | cons pass passes ih =>
      rw [passesReport, Bool.or_eq_false_iff, List.forall_mem_cons]
      refine and_congr_right fun nothing => ?_
      rw [(exact_run pass shader).same nothing, ih]

/-- No pass of the full level changes the shader. -/
def Stable (shader : Shader) : Prop :=
  ∀ pass ∈ OptimizationLevel.full.passes, pass.reports shader = false

theorem Stable.run (stable : shader.Stable) {pass : Pass}
    (listed : pass ∈ OptimizationLevel.full.passes) : pass.run shader = shader :=
  (exact_run pass shader).same (stable pass listed)

theorem stable_iff : shader.Stable ↔ shader.optimizeReports .full = false :=
  passesReport_eq_false.symm

theorem stable_optimizeFully (shader : Shader) : shader.optimizeFully.Stable :=
  stable_iff.mpr ((exhausts (exact_optimize .full) shader).ends (exact_optimize .full))

/-- A shader without recursion in which every signature is the main one or is called. -/
structure Connected (shader : Shader) : Prop where
  contained : shader.SelfContained
  acyclic : shader.Acyclic
  live : ∃ main, shader.HasMain main ∧ shader.Live main

theorem SelfContained.live (contained : shader.SelfContained) {main : Callee}
    (has : shader.HasMain main) (all_live : shader.AllLive) : shader.Live main := by
  intro callee signature _ there
  rcases List.mem_append.mp (all_live there) with is_main | called
  · rw [has.mainSignature?] at is_main
    exact .inl (List.mem_singleton.mp is_main)
  · exact .inr (contained.mem_callees.mp called)

/-- What passes keep of a shader before every signature is the main one or is called. -/
theorem SelfContained.run (contained : shader.SelfContained) (acyclic : shader.Acyclic)
    (pass : Pass) :
    (pass.run shader).SelfContained ∧ (pass.run shader).Acyclic := by
  cases pass with
  | foldConstants =>
      have recast := recast_foldConstants contained.flat
      exact ⟨recast.selfContained contained, recast.carries.acyclic acyclic⟩
  | removeDeadCode keepUniforms =>
      have recast := (recast_removeDeadCode keepUniforms contained.flat).noNewCalls
      exact ⟨recast.selfContained contained, recast.carries.acyclic acyclic⟩
  | removeDeadFunctions =>
      exact ⟨contained.removeDeadFunctions, contained.carries_removeDeadFunctions.acyclic acyclic⟩
  | inspect => exact ⟨contained, acyclic⟩

/-- Optimizing as far as possible leaves only signatures that are called. -/
theorem connected_optimizeFully (contained : shader.SelfContained) (acyclic : shader.Acyclic) :
    shader.optimizeFully.Connected := by
  have step : ∀ shader : Shader, shader.SelfContained ∧ shader.Acyclic →
      (shader.optimize .full).SelfContained ∧ (shader.optimize .full).Acyclic :=
    @optimize_keeps (fun shader => shader.SelfContained ∧ shader.Acyclic) _
      fun pass _ shader holds => holds.1.run holds.2 pass
  have kept : shader.optimizeFully.SelfContained ∧ shader.optimizeFully.Acyclic :=
    exhaust_keeps step shader ⟨contained, acyclic⟩
  have all_live : shader.optimizeFully.AllLive :=
    allLive_iff.mpr (stable_optimizeFully shader .removeDeadFunctions (by decide))
  obtain ⟨main, has⟩ := kept.1.main
  exact ⟨kept.1, kept.2, main, has, kept.1.live has all_live⟩

end Shader
end StageLink
