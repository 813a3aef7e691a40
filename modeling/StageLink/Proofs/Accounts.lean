import StageLink.Proofs.Consensus
import StageLink.Proofs.Room
import StageLink.Proofs.Storage

/-!
# Accounts of uniforms

When the interfaces have been compared, every uniform has the type that has been resolved for its
name, and what comes later keeps it so until the arrays of all stages are resized alike.  The list
of uniforms is then made from executables that agree on the types of their uniforms, so it accounts
for them.
-/

namespace StageLink

namespace Declaration

/-- A uniform that takes over what has been resolved takes over the resolved type. -/
theorem adopt_ty {group : List Variable} {resolved declared : Variable}
    (summary : Summary group resolved) (listed : declared ∈ group)
    (same_mode : resolved.mode = declared.mode) : (adopt resolved declared).ty = resolved.ty := by
  rw [adopt, if_neg (by simp [same_mode])]
  dsimp only
  rcases summary.ty declared listed with same | ⟨unsized, may⟩
  · rw [same, ite_self]
  · cases resolved_unsized : resolved.ty.isUnsizedArray with
    | false => simp [unsized]
    | true =>
        -- two arrays of the same elements that both lack a length
        revert unsized may resolved_unsized
        cases declared.ty <;> cases resolved.ty <;>
          simp_all [unifiable, Ty.isUnsizedArray, Ty.element?]
        grind [Ty.isUnsizedArray]

end Declaration

namespace Shader

/-- The uniforms of a tidy executable have the types that go with their names. -/
structure Typed (typing : String → Ty) (shader : Shader) : Prop where
  tidy : shader.Tidy
  typed : ∀ declared ∈ shader.declaredVariables, declared.mode = .uniform →
    declared.ty = typing declared.name

variable {typing : String → Ty} {shader before after : Shader}

theorem Typed.revised (typed : before.Typed typing)
    (revised : Revised Variable.KeepsType before after) : after.Typed typing := by
  refine ⟨revised.tidy (fun _ _ keeps => keeps.name) typed.tidy,
    fun declared listed is_uniform => ?_⟩
  obtain ⟨origin, was, keeps⟩ := revised.mem_declared listed
  rw [keeps.same_ty, keeps.name]
  exact typed.typed origin was (keeps.uniform is_uniform)

theorem Typed.thinned (typed : before.Typed typing) (thinned : Thinned before after) :
    after.Typed typing :=
  ⟨thinned.tidy typed.tidy, fun declared listed =>
    typed.typed declared (thinned.declaredVariables.subset listed)⟩

end Shader

namespace Linking

theorem steady_typed (typing : String → Ty) : Steady Failed fun _ => Shader.Typed typing where
  stops _ _ failed := failed
  moved typed revised := typed.revised (revised.imp fun _ _ => .of_sameButPlace)
  cleared typed revised := by
    have typed_now := typed.revised revised
    exact typed_now.thinned (Shader.thinned_removeAllDeadCode typed_now.tidy.flat)

def resolvedType (resolutions : Resolutions) (name : String) : Ty :=
  ((resolutions.get? name).map (·.ty)).getD .void

/-- Uniforms that take over what has been resolved among all executables have the resolved types. -/
theorem typed_adoptResolutions {shaders : List Shader} {resolutions : Resolutions}
    {shader result : Shader} (grants : (Declaration.resolve true shaders).Grants resolutions)
    (listed : shader ∈ shaders) (tidy : shader.Tidy)
    (runs : shader.adoptResolutions resolutions = .ok result) :
    result.Typed (resolvedType resolutions) := by
  have trimmed := Shader.trimmed_adoptResolutions (resolve_uniforms grants) runs
  refine ⟨trimmed.tidy tidy, fun declared now is_uniform => ?_⟩
  rw [Shader.declaredVariables_modifyGlobals tidy runs] at now
  obtain ⟨origin, was, adopted⟩ := List.mem_map.mp now
  have summarized := Declaration.summarized_of_comes
    (Declaration.comes_of_resolve grants origin.name)
  have in_group : origin.mode = .uniform → origin ∈
      Declaration.named origin.name (Declaration.compared true shaders) := by
    intro origin_uniform
    simp only [Declaration.named, Declaration.compared, List.mem_filter, List.mem_flatMap]
    exact ⟨⟨⟨shader, listed, was⟩, by simpa [Declaration.isCompared] using origin_uniform⟩, by simp⟩
  cases found : resolutions.get? origin.name with
  | none =>
      rw [found] at adopted summarized
      obtain rfl : origin = declared := adopted
      have nothing : Declaration.named origin.name (Declaration.compared true shaders) = [] :=
        summarized
      exact absurd (nothing ▸ in_group is_uniform) List.not_mem_nil
  | some resolved =>
      rw [found] at adopted summarized
      obtain rfl : Declaration.adopt resolved origin = declared := adopted
      rw [Declaration.adopt_mode] at is_uniform
      have same_mode := (resolve_uniforms grants _ _ found).trans is_uniform.symm
      rw [Declaration.adopt_ty summarized (in_group is_uniform) same_mode, Declaration.adopt_name,
        resolvedType, found]
      rfl

/-- Comparing interfaces gives every uniform the type that has been resolved for its name. -/
theorem typed_linkInterfaces :
    Meets Failed (Everywhere fun _ => Shader.Tidy) linkInterfaces
      fun _ outcome => ∃ typing, Everywhere (fun _ => Shader.Typed typing) outcome := by
  refine Meets.fromExecutables fun start tidy => ?_
  refine Meets.bind Meets.get_has fun read => Meets.given fun same => ?_
  refine Meets.through (fun resolutions outcome => Has start.executables outcome ∧
      (Declaration.resolve true read.present).Grants resolutions)
    (Meets.grant Declaration.resolveFrom_reasoned fun _ _ has grants => ⟨has, grants⟩)
    fun resolutions => Meets.given fun grants => ?_
  refine Meets.through (fun _ => Everywhere fun _ => Shader.Typed (resolvedType resolutions)) ?_
    fun _ => ?_
  · let related (_ : Stage) (_ after : Shader) : Prop := after.Typed (resolvedType resolutions)
    refine (@Meets.updateExecutables _ related _ _ fun stage shader current found =>
      Meets.lift fun _ _ has runs => ⟨has, ?_⟩).weaken (fun _ has => has)
      fun _ outcome stage_wise stage shader now => ?_
    · have listed : shader ∈ read.present := Outcome.mem_present.mpr ⟨stage, same ▸ found⟩
      exact typed_adoptResolutions grants listed (tidy stage shader found) runs
    · obtain ⟨_, -, typed⟩ := stage_wise.origin_of now
      exact typed
  · have stops := (steady_typed (resolvedType resolutions)).stops
    refine (Keeps.bind_finds Keeps.get fun _ _ => ?_).weaken (fun _ typed => typed)
      fun _ _ typed => ⟨_, typed⟩
    refine Keeps.bind (Keeps.forM fun pair => ?_) fun _ => ?_
    · exact Keeps.bind (stops.settle InterfaceBlock.checkBoundary_reasoned) fun _ =>
        stops.settle Boundary.check_reasoned
    · refine Keeps.bind_finds Keeps.get fun _ _ => ?_
      exact Keeps.bind (stops.accept _) fun _ => Keeps.modify fun _ => rfl

/-- The type that a uniform of the default block gets when arrays are resized. -/
def resizedType (highest : String → Nat) (typing : String → Ty) (name : String) : Ty :=
  if ((typing name).isArray && !(typing name).containsAtomic) ∧
      (typing name).length? ≠ some (wrap (highest name + 1)) then
    (typing name).withLength (wrap (highest name + 1))
  else typing name

/-- Resizing gives the uniforms of the default block types that depend on their names only. -/
theorem resizedType_of_resizeArrays {highest : String → Nat} {typing : String → Ty}
    {shader result : Shader} (typed : shader.Typed typing)
    (runs : Uniform.resizeArrays highest shader = .ok result) {declared : Variable}
    (listed : declared ∈ result.declaredVariables) (is_uniform : declared.mode = .uniform)
    (outside : declared.isInUniformBlock = false) :
    declared.ty = resizedType highest typing declared.name := by
  obtain ⟨changed, revised, all_resized, finishes⟩ := Shader.resizeArrays_eq_ok runs
  have flat : changed.topLevel.Flat := by
    rw [revised.same]
    exact typed.tidy.flat
  have listed : declared ∈ changed.declaredVariables := by
    rcases finishes with rfl | retypes
    · exact listed
    · rw [Shader.retypeElements_eq_ok flat retypes] at listed
      exact listed
  obtain ⟨id, global, now⟩ := Shader.mem_declaredVariables.mp listed
  rw [revised.globals] at global
  obtain ⟨origin, was, resized⟩ := revised.origin now
  have origin_listed := Shader.mem_declaredVariables.mpr ⟨id, global, was⟩
  obtain ⟨same_name, same_mode, same_block⟩ : declared.name = origin.name ∧
      declared.mode = origin.mode ∧ declared.isInUniformBlock = origin.isInUniformBlock := by
    rcases resized with rfl | ⟨-, rfl⟩ <;> exact ⟨rfl, rfl, rfl⟩
  rw [same_mode] at is_uniform
  rw [same_block] at outside
  have origin_ty := typed.typed origin origin_listed is_uniform
  have resizable : Uniform.isResizable origin =
      ((typing origin.name).isArray && !(typing origin.name).containsAtomic) := by
    simp [Uniform.isResizable, is_uniform, outside, origin_ty]
  rw [resizedType, same_name, ← resizable, ← origin_ty]
  by_cases here : Uniform.isResizable origin = true
  · obtain rfl := Option.some.inj (now.symm.trans (all_resized id global origin was here))
    rw [Uniform.fitted]
    split
    · next long => rw [if_neg fun both => both.2 long]
    · next short => rw [if_pos ⟨here, short⟩, Uniform.resized]
  · rw [if_neg fun both => here both.1]
    rcases resized with rfl | ⟨resizes, -⟩
    · rfl
    · exact absurd resizes here

/-- Listing the uniforms gives those of the executables, which agree on the types of their
uniforms. -/
theorem listed_assignUniforms {options : Options} {typing : String → Ty} :
    Meets Failed (Everywhere fun _ => Shader.Typed typing) (assignUniforms options) fun _ outcome =>
      Uniform.Agreed outcome.executables ∧
        Uniform.storage outcome.executables = .ok (outcome.uniforms, outcome.usages) := by
  refine Meets.fromExecutables fun start typed => ?_
  refine Meets.bind Meets.get_has fun read => Meets.given fun same => ?_
  let Listed (outcome : Outcome) : Prop := Uniform.Agreed outcome.executables ∧
    Uniform.storage outcome.executables = .ok (outcome.uniforms, outcome.usages)
  refine Meets.through (fun _ outcome => Uniform.Agreed outcome.executables) ?_ fun _ => ?_
  · let related (_ : Stage) (before after : Shader) : Prop :=
      Uniform.resizeArrays (Uniform.highestAccess read.present) before = .ok after
    refine (@Meets.updateExecutables _ related _ _ fun stage shader current found =>
      Meets.lift fun _ _ has runs => ⟨has, runs⟩).weaken (fun _ has => has)
        fun _ outcome resized => ?_
    have agrees : ∀ stage, ∀ declared ∈ Uniform.defaultsAt outcome.executables stage,
        declared.ty = resizedType (Uniform.highestAccess read.present) typing declared.name := by
      intro stage declared listed
      simp only [Uniform.defaultsAt, Uniform.uniformsAt, List.mem_filter, List.mem_flatMap,
        Option.mem_toList, decide_eq_true_eq, Bool.not_eq_eq_eq_not, Bool.not_true] at listed
      obtain ⟨⟨⟨shader, found, listed⟩, is_uniform⟩, outside⟩ := listed
      obtain ⟨origin, was, runs⟩ := resized.origin_of found
      exact resizedType_of_resizeArrays (typed stage origin was) runs listed is_uniform outside
    intro stage one one_listed other found found_listed same_name
    rw [agrees stage one one_listed, agrees other found found_listed, same_name]
  · refine Meets.bind Meets.get fun resized => ?_
    refine Meets.through (fun answer outcome => Uniform.Agreed outcome.executables ∧
        Uniform.storage outcome.executables = .ok answer)
      (Meets.lift fun outcome answer holds runs => ⟨holds.1, holds.2 ▸ runs⟩) fun answer => ?_
    obtain ⟨uniforms, usages⟩ := answer
    refine Meets.through (fun _ => Listed) (Meets.modify fun _ listed => listed) fun _ => ?_
    refine Meets.through (fun _ => Listed) (Meets.withExecutable (fun shader => ?_)
      fun _ listed _ => listed) fun _ => ?_
    · exact Meets.through (fun _ => Listed) (Meets.lift fun _ _ listed _ => listed.1) fun _ =>
        Meets.modify fun _ listed => listed
    · refine Meets.through (fun _ => Listed) (Meets.modify fun _ listed => listed) fun _ => ?_
      refine Meets.bind Meets.get fun reached => ?_
      split
      · next failed =>
          refine Meets.halt ?_
          rintro outcome ⟨-, rfl⟩
          exact failed
      · exact Meets.pure fun _ listed => listed.1

theorem listed_phases {options : Options} {program : Program}
    (distinct : ∀ unit ∈ program.units, (unit.shader.declaredVariables.map (·.name)).Nodup) :
    Meets Failed (Has (.constant none)) (phases options program) fun _ outcome =>
      Uniform.Agreed outcome.executables ∧
        Uniform.storage outcome.executables = .ok (outcome.uniforms, outcome.usages) := by
  refine Meets.through (fun _ => Has (.constant none))
    (checkVersions_meets.weaken (fun _ has => has) fun _ _ holds => holds.1) fun _ => ?_
  refine Meets.through (fun _ => Everywhere fun _ => Shader.Tidy)
    ((linkStages_meets inherited_trivial distinct fun _ _ _ _ _ _ => trivial).weaken
      (fun _ has => has) fun _ _ assembled stage shader found =>
        (assembled.fine stage shader found).tidy) fun _ => ?_
  refine Meets.bind typed_linkInterfaces fun _ => ?_
  intro start answer reached ⟨typing, typed⟩ runs
  have steady := steady_typed typing
  have optimizes := Keeps.optimize steady.stops fun _ _ typed =>
    typed.thinned (Shader.thinned_optimizeFully typed.tidy.flat)
  exact Meets.bind optimizes (fun _ => Meets.bind (steady.assignLocations _ _) fun _ =>
    Meets.bind listed_assignUniforms fun _ => checkRequiredStages_meets) start answer
      reached typed runs

end Linking

namespace Uniform

variable {executables compacted : PerStage (Option Shader)} {entries : List UniformEntry}
  {usages : PerStage StageUsage}

section Congr

variable (same : uniformsAt compacted = uniformsAt executables)

include same

theorem leavesAt_congr : leavesAt compacted = leavesAt executables := by
  funext stage
  rw [leavesAt, same, leavesAt]

theorem defaultsAt_congr : defaultsAt compacted = defaultsAt executables := by
  funext stage
  rw [defaultsAt, same, defaultsAt]

theorem Separable.congr (separable : Separable compacted) : Separable executables := by
  constructor
  · rw [← leavesAt_congr same]
    exact separable.distinct
  · rw [← leavesAt_congr same]
    exact separable.apart
  · rw [← defaultsAt_congr same]
    exact separable.unshared

theorem Accounts.congr (accounts : Accounts executables entries usages) :
    Accounts compacted entries usages where
  agreed := by
    rw [Agreed, defaultsAt_congr same]
    exact accounts.agreed
  tiled := accounts.tiled
  unplaced := by
    rw [leavesAt_congr same]
    exact accounts.unplaced
  distinct := accounts.distinct
  listed := by
    rw [leavesAt_congr same]
    exact accounts.listed
  flagged := by
    rw [leavesAt_congr same]
    exact accounts.flagged
  components := accounts.components
  samplers := accounts.samplers

end Congr

theorem uniformsAt_compacted
    (stage_wise : Linking.StageWise (fun _ => Shader.Compacted) executables compacted) :
    uniformsAt compacted = uniformsAt executables := by
  funext stage
  have here := stage_wise stage
  rw [uniformsAt, uniformsAt]
  revert here
  generalize executables.get stage = before
  generalize compacted.get stage = after
  rintro (compacts | _)
  · simp [Shader.Compacted.declaredVariables compacts]
  · rfl

end Uniform

namespace Program

/-- When a link succeeds and the sums are words, its list of uniforms accounts for what the
executables declare: uniforms of the default block have one type in all stages, their locations
follow each other without a gap, an entry is flagged for the stages that declare it, and each stage
is charged for the entries of the default block that are flagged for it. -/
theorem link_accounts {options : Options} {program result : Program}
    (distinct : ∀ unit ∈ program.units, (unit.shader.declaredVariables.map (·.name)).Nodup)
    (runs : program.link options = .ok result) (succeeds : result.linked = true)
    (separable : Uniform.Separable result.outcome.executables)
    (fits : Uniform.Fits result.outcome.uniforms) :
    Uniform.Accounts result.outcome.executables result.outcome.uniforms result.outcome.usages := by
  obtain ⟨reached, phases_run, compacted, same⟩ := link_completes runs succeeds
  have same_uniforms := Uniform.uniformsAt_compacted compacted
  obtain ⟨agreed, storage⟩ : Uniform.Agreed reached.executables ∧
      Uniform.storage reached.executables = .ok (reached.uniforms, reached.usages) :=
    Linking.listed_phases distinct {} (.ok ()) reached rfl phases_run
  have uniforms : result.outcome.uniforms = reached.uniforms := by rw [same]
  have usages : result.outcome.usages = reached.usages := by rw [same]
  rw [uniforms] at fits
  rw [uniforms, usages]
  exact (Uniform.accounts_of_storage (separable.congr same_uniforms) agreed fits storage).congr
    same_uniforms

/-- The type of a light. -/
def lightType : Ty := .record "Light" [{ name := "strength", ty := .float }]

/-- A vertex shader that reads the second of two lights, and a fragment shader that reads a uniform
with some name. -/
def lit (name : String) : Program where
  units := [
    ⟨.ofParts .vertex
      [(Variable.ofType "lights" (.sizedArray lightType 2) .uniform).withMaxAccess 1,
        .ofType "shade" .float .shaderOut]
      [.ofBody "main" [.store (.whole 1) (.load
        (.field (.element (.whole 0) (.constant (.int 1)) lightType) "strength" .float))]], []⟩,
    ⟨.ofParts .fragment
      [.vector name .uniform, .ofType "shade" .float .shaderIn, .vector "result" .shaderOut,
        .ofType "depth" .float .shaderOut]
      [.ofBody "main" [.copy 2 0, .copy 3 1]], []⟩]

theorem lit_accounts :
    (∀ unit ∈ (lit "tint").units, (unit.shader.declaredVariables.map (·.name)).Nodup) ∧
    ∃ result, (lit "tint").link {} = .ok result ∧ result.linked = true ∧
      Uniform.Separable result.outcome.executables ∧ Uniform.Fits result.outcome.uniforms ∧
      Uniform.Accounts result.outcome.executables result.outcome.uniforms
        result.outcome.usages := by
  have distinct : ∀ unit ∈ (lit "tint").units,
      (unit.shader.declaredVariables.map (·.name)).Nodup := by decide +kernel
  have links : (lit "tint").linksTo {} (fun result =>
      decide (Uniform.Separable result.outcome.executables ∧
        Uniform.Fits result.outcome.uniforms)) = true := by decide +kernel
  obtain ⟨result, runs, succeeds, meets⟩ := exists_of_linksTo links
  obtain ⟨separable, fits⟩ := of_decide_eq_true meets
  exact ⟨distinct, result, runs, succeeds, separable, fits,
    link_accounts distinct runs succeeds separable fits⟩

/-- It is not enough that leaves of one stage have different names: a uniform that is called like a
leaf of another uniform shares its entry, and the stage is charged for the type that it declares
itself. -/
theorem lit_overcharges :
    (∀ unit ∈ (lit "lights[0].strength").units,
      (unit.shader.declaredVariables.map (·.name)).Nodup) ∧
    ∃ result, (lit "lights[0].strength").link {} = .ok result ∧ result.linked = true ∧
      (∀ stage, ((Uniform.leavesAt result.outcome.executables stage).map (·.name)).Nodup) ∧
      (∀ stage, ∀ leaf ∈ Uniform.leavesAt result.outcome.executables stage, leaf.block = none) ∧
      (result.outcome.usages.get .fragment).components = 4 ∧
      total ((Uniform.flaggedDefaults .fragment result.outcome.uniforms).map
        (·.ty.componentSlots)) = 1 := by
  refine ⟨by decide +kernel, ?_⟩
  have links : (lit "lights[0].strength").linksTo {} (fun result => decide (
      (∀ stage, ((Uniform.leavesAt result.outcome.executables stage).map (·.name)).Nodup) ∧
      (∀ stage, ∀ leaf ∈ Uniform.leavesAt result.outcome.executables stage, leaf.block = none) ∧
      (result.outcome.usages.get .fragment).components = 4 ∧
      total ((Uniform.flaggedDefaults .fragment result.outcome.uniforms).map
        (·.ty.componentSlots)) = 1)) = true := by decide +kernel
  obtain ⟨result, runs, succeeds, found⟩ := exists_of_linksTo links
  exact ⟨result, runs, succeeds, of_decide_eq_true found⟩

end Program
end StageLink
