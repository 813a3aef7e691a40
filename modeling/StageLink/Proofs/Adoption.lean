import StageLink.Proofs.Consensus

/-!
# Adopting what is resolved

A resolved declaration agrees with every declaration that has gone into it, not only with the one
that came first or last.  An executable that adopts the resolutions has its globals changed in what
a declaration may leave open, and in nothing else; a global that has gone into the resolution then
says what is resolved.
-/

namespace StageLink
namespace Declaration

/-- What is resolved agrees with one of the declarations that have gone into it. -/
structure Agrees (resolved declared : Variable) : Prop where
  ty : resolved.ty = declared.ty ∨ declared.ty.isUnsizedArray = true ∧
    resolved.ty.isArray = true ∧ resolved.ty.element? = declared.ty.element?
  sized : declared.ty.isUnsizedArray = false → resolved.ty.isUnsizedArray = false
  location : declared.explicitLocation = true →
    resolved.explicitLocation = true ∧ resolved.location = declared.location
  binding : declared.explicitBinding = true →
    resolved.explicitBinding = true ∧ resolved.binding = declared.binding
  offset : declared.ty.containsAtomic = true → resolved.atomicOffset = declared.atomicOffset
  value : ∀ value, declared.constantInitializer = some value →
    ∃ known, resolved.constantInitializer = some known ∧ known.sameValue value = true
  invariant : resolved.invariant = declared.invariant
  centroid : resolved.centroid = declared.centroid

theorem Summary.agrees {group : List Variable} {resolved declared : Variable}
    (summary : Summary group resolved) (listed : declared ∈ group) : Agrees resolved declared where
  ty := by
    rcases summary.ty declared listed with same | ⟨unsized, may⟩
    · exact .inl same.symm
    · have shared : (declared.ty.isArray = true ∧ resolved.ty.isArray = true) ∧
          declared.ty.element? = resolved.ty.element? := by
        simp only [unifiable, Bool.and_eq_true, decide_eq_true_eq] at may
        exact may.1
      exact .inr ⟨unsized, shared.1.2, shared.2.symm⟩
  sized sized := by
    rcases summary.ty declared listed with same | ⟨unsized, -⟩
    · exact same ▸ sized
    · exact absurd (unsized.symm.trans sized) (by decide)
  location explicit := ⟨summary.explicitLocation.mpr ⟨declared, listed, explicit⟩,
    summary.location declared listed explicit⟩
  binding explicit := ⟨summary.explicitBinding.mpr ⟨declared, listed, explicit⟩,
    summary.binding declared listed explicit⟩
  offset atomic := (summary.offset declared listed atomic).symm
  value value given := ⟨value, (summary.value value).mpr ⟨declared, listed, given⟩,
    (Constant.sameValue_iff value value).mpr rfl⟩
  invariant := (summary.invariant declared listed).symm
  centroid := (summary.centroid declared listed).symm

/-- Every declaration that is compared has gone into the summary of its name. -/
theorem exists_summary {uniformsOnly : Bool} {shaders : List Shader} {result : Resolutions}
    (grants : (resolve uniformsOnly shaders).Grants result) {declared : Variable}
    (listed : declared ∈ compared uniformsOnly shaders) :
    ∃ resolved, result.get? declared.name = some resolved ∧
      Summary (named declared.name (compared uniformsOnly shaders)) resolved := by
  have inside : declared ∈ named declared.name (compared uniformsOnly shaders) :=
    List.mem_filter.mpr ⟨listed, by simp⟩
  have summarized := summarized_of_comes (comes_of_resolve grants declared.name)
  cases found : result.get? declared.name with
  | none =>
      rw [found] at summarized
      exact absurd summarized (List.ne_nil_of_mem inside)
  | some resolved =>
      rw [found] at summarized
      exact ⟨resolved, rfl, summarized⟩

/-! ## Adopting -/

/-- A global has taken over what is resolved of its name, and kept everything else. -/
structure TakesOver (resolved before after : Variable) : Prop where
  ty : after.ty = if before.ty.isUnsizedArray ∧ resolved.ty.isUnsizedArray = false then resolved.ty
    else before.ty
  location : resolved.explicitLocation = true →
    after.explicitLocation = true ∧ after.location = resolved.location
  keeps_location : resolved.explicitLocation = false →
    after.explicitLocation = before.explicitLocation ∧ after.location = before.location
  binding : resolved.explicitBinding = true →
    after.explicitBinding = true ∧ after.binding = resolved.binding
  keeps_binding : resolved.explicitBinding = false →
    after.explicitBinding = before.explicitBinding ∧ after.binding = before.binding
  value : after.constantInitializer =
    if before.constantInitializer.isSome then before.constantInitializer
    else resolved.constantInitializer
  hasInitializer : after.hasInitializer = true ↔
    before.hasInitializer = true ∨ resolved.hasInitializer = true
  rest : after = { before with
    ty := after.ty
    explicitLocation := after.explicitLocation
    location := after.location
    explicitBinding := after.explicitBinding
    binding := after.binding
    constantInitializer := after.constantInitializer
    hasInitializer := after.hasInitializer }

theorem adopt_of_same_mode {resolved declared : Variable} (same : resolved.mode = declared.mode) :
    adopt resolved declared = { declared with
      ty :=
        if declared.ty.isUnsizedArray && !resolved.ty.isUnsizedArray then resolved.ty
        else declared.ty
      explicitLocation := declared.explicitLocation || resolved.explicitLocation
      location := if resolved.explicitLocation then resolved.location else declared.location
      explicitBinding := declared.explicitBinding || resolved.explicitBinding
      binding := if resolved.explicitBinding then resolved.binding else declared.binding
      constantInitializer := declared.constantInitializer <|> resolved.constantInitializer
      hasInitializer := declared.hasInitializer || resolved.hasInitializer } :=
  if_neg (not_not_intro same)

theorem takesOver_adopt {resolved declared : Variable} (same : resolved.mode = declared.mode) :
    TakesOver resolved declared (adopt resolved declared) := by
  rw [adopt_of_same_mode same]
  constructor
  case ty => simp
  case value => cases declared.constantInitializer <;> simp
  case hasInitializer => simp
  case rest => rfl
  all_goals
    intro given
    simp [given]

/-- Adopting the same once more changes nothing, so that a variable may be declared twice. -/
theorem adopt_adopt (resolved declared : Variable) :
    adopt resolved (adopt resolved declared) = adopt resolved declared := by
  by_cases same : resolved.mode = declared.mode
  · have still : resolved.mode = (adopt resolved declared).mode :=
      same.trans (adopt_mode resolved declared).symm
    rw [adopt_of_same_mode still, adopt_of_same_mode same]
    congr 1
    · by_cases unsized : declared.ty.isUnsizedArray = true
      · cases sized : resolved.ty.isUnsizedArray <;> simp [unsized, sized]
      · simp [unsized]
    · simp
    · split <;> rfl
    · simp
    · split <;> rfl
    · cases declared.constantInitializer <;> simp
    · simp
  · rw [adopt_of_mode same, adopt_of_mode same]

/-- A global with what it takes over from the resolutions, if its name is resolved. -/
def settled (resolutions : Resolutions) (declared : Variable) : Variable :=
  match resolutions.get? declared.name with
  | some resolved => adopt resolved declared
  | none => declared

theorem settled_of_found {resolutions : Resolutions} {resolved declared : Variable}
    (found : resolutions.get? declared.name = some resolved) :
    settled resolutions declared = adopt resolved declared := by
  simp only [settled, found]

theorem settled_of_apart {resolutions : Resolutions} {declared : Variable}
    (apart : ∀ resolved, resolutions.get? declared.name = some resolved →
      resolved.mode ≠ declared.mode) : settled resolutions declared = declared := by
  cases found : resolutions.get? declared.name with
  | none => simp only [settled, found]
  | some resolved => exact (settled_of_found found).trans (adopt_of_mode (apart resolved found))

theorem settled_settled (resolutions : Resolutions) (declared : Variable) :
    settled resolutions (settled resolutions declared) = settled resolutions declared := by
  cases found : resolutions.get? declared.name with
  | none => simp only [settled, found]
  | some resolved =>
      have still := (congrArg resolutions.get? (adopt_name resolved declared)).trans found
      rw [settled_of_found found, settled_of_found still, adopt_adopt]

/-- A global that agrees with what is resolved says the same once it has taken it over. -/
theorem TakesOver.concurs {resolved before after : Variable}
    (takes : TakesOver resolved before after) (agrees : Agrees resolved before) :
    Concurs after resolved where
  ty := by
    rw [takes.ty]
    split
    · rfl
    · next kept =>
        rcases agrees.ty with same | ⟨unsized, array, elements⟩
        · exact same.symm
        · -- both lack a length, and their elements are the same
          have open_too : resolved.ty.isUnsizedArray = true := by
            simpa [unsized] using kept
          cases left : before.ty <;> cases right : resolved.ty <;>
            simp_all [Ty.isUnsizedArray, Ty.element?]
          grind [Ty.isUnsizedArray]
  explicitLocation := by
    cases given : resolved.explicitLocation with
    | true => exact (takes.location given).1
    | false =>
        have not_before : before.explicitLocation = false := by
          by_contra explicit
          simp [(agrees.location (Bool.of_not_eq_false explicit)).1] at given
        exact (takes.keeps_location given).1.trans not_before
  location explicit := by
    cases given : resolved.explicitLocation with
    | true => exact (takes.location given).2
    | false =>
        have kept := takes.keeps_location given
        rw [kept.2, (agrees.location (kept.1 ▸ explicit)).2]
  explicitBinding := by
    cases given : resolved.explicitBinding with
    | true => exact (takes.binding given).1
    | false =>
        have not_before : before.explicitBinding = false := by
          by_contra explicit
          simp [(agrees.binding (Bool.of_not_eq_false explicit)).1] at given
        exact (takes.keeps_binding given).1.trans not_before
  binding explicit := by
    cases given : resolved.explicitBinding with
    | true => exact (takes.binding given).2
    | false =>
        have kept := takes.keeps_binding given
        rw [kept.2, (agrees.binding (kept.1 ▸ explicit)).2]
  constantInitializer := by
    rw [takes.value]
    cases given : before.constantInitializer with
    | none => rfl
    | some value =>
        obtain ⟨known, found, same⟩ := agrees.value value given
        rw [found, (Constant.sameValue_iff known value).mp same]
        rfl

end Declaration

namespace Shader

/-- Variables can be changed if their handles point somewhere. -/
theorem exists_modifyVariables (change : Variable → Variable) {ids : List VariableId} :
    ∀ {shader : Shader}, (∀ id ∈ ids, id < shader.vars.size) →
      ∃ after, shader.modifyVariables change ids = .ok after := by
  induction ids with
  | nil => exact fun {shader} _ => ⟨shader, rfl⟩
  | cons id ids ih =>
      intro shader bound
      obtain ⟨declared, found⟩ := Arena.exists_get? (bound id (List.mem_cons_self ..))
      have bound_later : ∀ other ∈ ids, other < (shader.modifyVariable id change).vars.size := by
        intro other listed
        simpa [modifyVariable] using bound other (List.mem_cons_of_mem _ listed)
      obtain ⟨after, changes⟩ := ih bound_later
      exact ⟨after, Checked.bind_eq_ok.mpr ⟨declared, fetchVariable_eq_ok.mpr found, changes⟩⟩

/-- A change that is idempotent happens once to each listed variable, and the others stay. -/
theorem exists_modifyVariables_once {change : Variable → Variable} {ids : List VariableId}
    {shader : Shader} (idempotent : ∀ declared, change (change declared) = change declared)
    (bound : ∀ id ∈ ids, id < shader.vars.size) :
    ∃ after, shader.modifyVariables change ids = .ok after ∧
      after = { shader with vars := after.vars } ∧ after.vars.size = shader.vars.size ∧
      ∀ id, after.vars.get? id =
        (shader.vars.get? id).map fun declared => if id ∈ ids then change declared
        else declared := by
  obtain ⟨after, changes⟩ := exists_modifyVariables change bound
  obtain ⟨same, size, -, changed⟩ := modifyVariables_eq_ok changes
  refine ⟨after, changes, same, size, fun id => ?_⟩
  rw [changed]
  congr 1
  funext declared
  split
  · next listed =>
      obtain ⟨count, counted⟩ := Nat.exists_eq_succ_of_ne_zero
        (List.count_pos_iff.mpr listed).ne'
      rw [counted]
      clear counted
      induction count with
      | zero => rfl
      | succ count ih => rw [Function.iterate_succ_apply', ih, idempotent]
  · next missing => rw [List.count_eq_zero_of_not_mem missing, Function.iterate_zero, id_eq]

/-- Adopting resolutions goes through for handles that point somewhere.  Each global takes over what
is resolved of its name if the mode is the same, and nothing else is changed. -/
theorem exists_adoptResolutions {shader : Shader} (resolutions : Resolutions)
    (bound : ∀ id ∈ shader.globals, id < shader.vars.size) :
    ∃ after, shader.adoptResolutions resolutions = .ok after ∧
      after = { shader with vars := after.vars } ∧ after.vars.size = shader.vars.size ∧
      ∀ id before, shader.vars.get? id = some before →
        ∃ now, after.vars.get? id = some now ∧
          (∀ resolved, id ∈ shader.globals → resolutions.get? before.name = some resolved →
            resolved.mode = before.mode → Declaration.TakesOver resolved before now) ∧
          ((id ∈ shader.globals → ∀ resolved, resolutions.get? before.name = some resolved →
            resolved.mode ≠ before.mode) → now = before) := by
  obtain ⟨after, changes, same, size, changed⟩ :=
    exists_modifyVariables_once (Declaration.settled_settled resolutions) bound
  refine ⟨after, changes, same, size, fun id before was => ?_⟩
  refine ⟨if id ∈ shader.globals then Declaration.settled resolutions before else before,
    by rw [changed, was]; rfl, fun resolved global known mode => ?_, fun apart => ?_⟩
  · rw [if_pos global, Declaration.settled_of_found known]
    exact Declaration.takesOver_adopt mode
  · split
    · next global => exact Declaration.settled_of_apart (apart global)
    · rfl

end Shader

namespace Declaration

/-- What is resolved agrees with every declaration that is compared.  An executable that adopts it
has each global of a resolved name and mode take it over, so that those which have been compared say
what is resolved, and nothing else is changed. -/
theorem resolve_agrees {uniformsOnly : Bool} {shaders : List Shader} {result : Resolutions}
    (grants : (resolve uniformsOnly shaders).Grants result) :
    (∀ shader ∈ shaders, ∀ id ∈ shader.globals, ∃ declared, shader.vars.get? id = some declared ∧
      (isCompared uniformsOnly declared = true →
        ∃ resolved, result.get? declared.name = some resolved ∧ Agrees resolved declared)) ∧
    ∀ executable : Shader, (∀ id ∈ executable.globals, id < executable.vars.size) →
      ∃ after, executable.adoptResolutions result = .ok after ∧
        after = { executable with vars := after.vars } ∧
        after.vars.size = executable.vars.size ∧
        ∀ id before, executable.vars.get? id = some before →
          ∃ now, after.vars.get? id = some now ∧
            (∀ resolved, id ∈ executable.globals → result.get? before.name = some resolved →
              resolved.mode = before.mode → TakesOver resolved before now ∧
                (before ∈ compared uniformsOnly shaders → Concurs now resolved)) ∧
            ((id ∈ executable.globals → ∀ resolved, result.get? before.name = some resolved →
              resolved.mode ≠ before.mode) → now = before) := by
  have agreed : ∀ declared ∈ compared uniformsOnly shaders,
      ∃ resolved, result.get? declared.name = some resolved ∧ Agrees resolved declared := by
    intro declared listed
    obtain ⟨resolved, found, summary⟩ := exists_summary grants listed
    exact ⟨resolved, found, summary.agrees (List.mem_filter.mpr ⟨listed, by simp⟩)⟩
  constructor
  · intro shader listed id global
    obtain ⟨declared, found⟩ :=
      Arena.exists_get? (allBound_of_grants grants shader listed id global)
    refine ⟨declared, found, fun chosen => agreed declared (List.mem_filter.mpr ⟨?_, chosen⟩)⟩
    exact List.mem_flatMap.mpr ⟨shader, listed, Shader.mem_declaredVariables.mpr
      ⟨id, global, found⟩⟩
  · intro executable bound
    obtain ⟨after, adopts, same, size, each⟩ := Shader.exists_adoptResolutions result bound
    refine ⟨after, adopts, same, size, fun id before was => ?_⟩
    obtain ⟨now, found, takes, kept⟩ := each id before was
    refine ⟨now, found, fun resolved global known mode => ?_, kept⟩
    refine ⟨takes resolved global known mode, fun listed => ?_⟩
    obtain ⟨settled, settled_found, agrees⟩ := agreed before listed
    obtain rfl : settled = resolved := Option.some.inj (settled_found.symm.trans known)
    exact (takes settled global known mode).concurs agrees

/-- The weights with the length of one declaration and the binding of the other. -/
def resolvedWeights : Variable :=
  { name := "weights", ty := .sizedArray .float 3, mode := .uniform
    explicitBinding := true, binding := 2 }

/-- What is resolved of the two shaders with weights. -/
def resolvedGlobals : Resolutions :=
  ⟨[("gain", (Variable.ofType "gain" .float .uniform).withInitializer (.float .one)),
    ("weights", resolvedWeights)]⟩

theorem weights_agree :
    (resolve false [boundWeights, sizedWeights]).Grants resolvedGlobals ∧
    (∃ declared, boundWeights.vars.get? 0 = some declared ∧ Agrees resolvedWeights declared) ∧
    (∃ declared, sizedWeights.vars.get? 0 = some declared ∧ Agrees resolvedWeights declared) ∧
    (∀ id ∈ boundWeights.globals, id < boundWeights.vars.size) ∧
    ∃ after now, boundWeights.adoptResolutions resolvedGlobals = .ok after ∧
      after.vars.get? 0 = some now ∧ Concurs now resolvedWeights := by
  have grants : (resolve false [boundWeights, sizedWeights]).Grants resolvedGlobals := rfl
  have bound : ∀ id ∈ boundWeights.globals, id < boundWeights.vars.size := by decide +kernel
  have known : resolvedGlobals.get? "weights" = some resolvedWeights := rfl
  obtain ⟨agrees, adopts⟩ := resolve_agrees grants
  have agreed : ∀ shader ∈ [boundWeights, sizedWeights],
      0 ∈ shader.globals → (shader.vars.get? 0).map (·.name) = some "weights" →
      (shader.vars.get? 0).map (isCompared false) = some true →
      ∃ declared, shader.vars.get? 0 = some declared ∧ Agrees resolvedWeights declared := by
    intro shader listed global same chosen
    obtain ⟨declared, found, agrees⟩ := agrees shader listed 0 global
    simp only [found, Option.map_some, Option.some.injEq] at same chosen
    obtain ⟨resolved, resolved_found, agrees⟩ := agrees chosen
    rw [same, known] at resolved_found
    exact ⟨declared, found, Option.some.inj resolved_found ▸ agrees⟩
  refine ⟨grants, agreed boundWeights (by simp) (by decide +kernel) rfl rfl,
    agreed sizedWeights (by simp) (by decide +kernel) rfl rfl, bound, ?_⟩
  obtain ⟨after, runs, -, -, each⟩ := adopts boundWeights bound
  obtain ⟨now, found, takes, -⟩ := each 0 _ rfl
  exact ⟨after, now, runs, found,
    (takes resolvedWeights (by decide +kernel) known rfl).2 (by decide +kernel)⟩

end Declaration
end StageLink
