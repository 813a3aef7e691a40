import StageLink.Proofs.Agreement
import StageLink.Proofs.Bodies
import StageLink.Proofs.Cloning
import StageLink.Proofs.Symbols

/-!
# What merging gives

The executable of a stage has only declarations at the top level, no two of one name.  It has got
its variables from the units and libraries, so what holds of all their variables and does not depend
on types holds of those of the executable.
-/

namespace StageLink

/-- A property of declarations that depends neither on types nor on array accesses, and that
resolving declarations keeps. -/
structure Inherited (holds : Variable → Prop) : Prop where
  merge : ∀ {existing declared merged}, holds existing → holds declared →
    Declaration.Merged existing declared merged → holds merged
  adopt : ∀ {resolved declared}, holds resolved → holds declared →
    holds (Declaration.adopt resolved declared)
  reshape : ∀ {declared : Variable} (ty highest definition), holds declared →
    holds { declared with ty := ty, maxArrayAccess := highest, interfaceType := definition }
  invalidate : ∀ {declared}, holds declared → holds (Varying.invalidate declared)

theorem inherited_trivial : Inherited fun _ => True := ⟨by simp, by simp, by simp, by simp⟩

theorem inherited_placed : Inherited Variable.Placed where
  merge existing declared merged := merged.placed existing declared
  adopt := Declaration.adopt_placed
  reshape _ _ _ placed := placed
  invalidate {declared} placed := by
    unfold Varying.invalidate
    split
    · exact placed
    · split
      · exact placed
      · next implicit =>
          intro explicit
          have explicit : declared.explicitLocation = true := explicit
          simp [explicit] at implicit

/-- The second declaration stands for the first: it has its name and mode, and what is inherited. -/
structure Variable.StandsFor (holds : Variable → Prop) (one other : Variable) : Prop where
  name : other.name = one.name
  mode : other.mode = one.mode
  inherits : holds one → holds other

namespace Variable.StandsFor

variable {holds : Variable → Prop}

theorem refl (declared : Variable) : StandsFor holds declared declared :=
  ⟨rfl, rfl, fun same => same⟩

theorem trans (one other last : Variable) (before : StandsFor holds one other)
    (after : StandsFor holds other last) : StandsFor holds one last :=
  ⟨after.name.trans before.name, after.mode.trans before.mode,
    fun held => after.inherits (before.inherits held)⟩

theorem reshape (inherited : Inherited holds) (declared : Variable) (ty : Ty) (highest : Nat)
    (definition : Option Ty) : StandsFor holds declared
      { declared with ty := ty, maxArrayAccess := highest, interfaceType := definition } :=
  ⟨rfl, rfl, inherited.reshape ty highest definition⟩

end Variable.StandsFor

namespace Merge

variable {holds : Variable → Prop} {stage : Stage}

/-- What holds while units are being merged into the shader of a stage. -/
structure Sound (holds : Variable → Prop) (stage : Stage) (shader : Shader) : Prop where
  stage : shader.stage = stage
  coherent : shader.Coherent
  tidy : shader.Tidy
  all : ∀ declared ∈ shader.vars.entries, holds declared

theorem Sound.grows {source before after : Shader} (sound : Sound holds stage before)
    (from_source : ∀ declared ∈ source.vars.entries, holds declared)
    (grows : Shader.Grows source free before after) : Sound holds stage after where
  stage := grows.stage.trans sound.stage
  coherent := grows.coherent sound.coherent
  tidy := grows.tidy sound.coherent sound.tidy
  all := grows.all_vars from_source sound.all

theorem coherent_modifySignature {shader : Shader} (coherent : shader.Coherent) (callee : Callee)
    (change : Signature → Signature) : (shader.modifySignature callee change).Coherent where
  bound := coherent.bound
  known := coherent.known
  variable_of := coherent.variable_of
  function_of {name id} bound := by
    obtain ⟨listed, function, found, named⟩ := coherent.function_of bound
    refine ⟨listed, _, by rw [Shader.modifySignature, Arena.get?_modify, found]; rfl, ?_⟩
    split <;> exact named

theorem Sound.modifySignature {shader : Shader} (sound : Sound holds stage shader)
    (callee : Callee) (change : Signature → Signature) :
    Sound holds stage (shader.modifySignature callee change) :=
  ⟨sound.stage, coherent_modifySignature sound.coherent callee change,
    ⟨sound.tidy.flat, sound.tidy.bound, sound.tidy.distinct⟩, sound.all⟩

/-! ## Moving statements -/

/-- A change of a signature that leaves its parameters alone and takes no definition away. -/
def Advances (change : Signature → Signature) : Prop :=
  ∀ signature : Signature, (change signature).parameters = signature.parameters ∧
    (signature.isDefined = true → (change signature).isDefined = true)

/-- What a shader keeps while it grows by code that is cloned from the sources, and when one of its
signatures gets another body. -/
structure Extended (sources : List Shader) (keeps : Shader → Prop) : Prop where
  coherent : ∀ {shader}, keeps shader → shader.Coherent
  grows : ∀ {source before after}, source ∈ sources → keeps before →
    Shader.Grows source (fun _ => True) before after → keeps after
  modifySignature : ∀ {shader} callee {change}, Advances change → keeps shader →
    keeps (shader.modifySignature callee change)

/-- What a shader keeps while it grows by code that is cloned from the sources, and when one of its
signatures is changed. -/
structure Carried (sources : List Shader) (keeps : Shader → Prop) : Prop where
  coherent : ∀ {shader}, keeps shader → shader.Coherent
  grows : ∀ {source before after}, source ∈ sources → keeps before →
    Shader.Grows source (fun _ => True) before after → keeps after
  modifySignature : ∀ {shader} callee change, keeps shader →
    keeps (shader.modifySignature callee change)

theorem Sound.carried {sources : List Shader}
    (from_sources : ∀ source ∈ sources, ∀ declared ∈ source.vars.entries, holds declared) :
    Carried sources (Sound holds stage) where
  coherent sound := sound.coherent
  grows listed sound grows := sound.grows (from_sources _ listed) grows
  modifySignature callee change sound := sound.modifySignature callee change

theorem Carried.extended {sources : List Shader} {keeps : Shader → Prop}
    (carried : Carried sources keeps) : Extended sources keeps :=
  ⟨carried.coherent, carried.grows, fun callee _ _ holds => carried.modifySignature callee _ holds⟩

namespace Extended

variable {sources : List Shader} {keeps : Shader → Prop}

theorem cloneStatements (kept : Extended sources keeps) {units : List Shader} :
    ∀ {target extended : Shader} {cloned : Block}, units ⊆ sources → keeps target →
      cloneStatements units target = .ok (cloned, extended) → keeps extended := by
  induction units with
  | nil =>
      intro target extended cloned _ holds runs
      obtain ⟨-, rfl⟩ : [] = cloned ∧ target = extended := by
        simpa [Merge.cloneStatements] using runs
      exact holds
  | cons unit units ih =>
      intro target extended cloned fewer holds runs
      obtain ⟨_, _, _, -, clones, clones_later⟩ := cloneStatements_cons_eq_ok runs
      obtain ⟨listed, fewer_later⟩ := List.cons_subset.mp fewer
      have grows := CloneM.grows_of_block (kept.coherent holds) clones
      exact ih fewer_later (kept.grows listed holds grows) clones_later

/-- What holds of the main unit when its own statements have been taken out holds when they have
been moved, and those of other units cloned. -/
theorem moveStatements (kept : Extended sources keeps) {shader result : Shader}
    {others : List Shader} (fewer : others ⊆ sources)
    (has_main : shader.mainSignature?.isSome = true)
    (starts : (∀ id ∈ shader.globals, id < shader.vars.size) →
      keeps ({ shader with topLevel := shader.topLevel.filter (declaresGlobal shader) } :
        Shader).populateSymbols)
    (runs : moveStatements shader others = .ok result) : keeps result := by
  obtain ⟨main, found⟩ := Option.isSome_iff_exists.mp has_main
  obtain ⟨bound, cloned, extended, clones, rfl⟩ := moveStatements_of_main found runs
  have extended_keeps := kept.cloneStatements fewer (starts bound) clones
  exact kept.modifySignature main (fun _ => ⟨rfl, fun defined => defined⟩) extended_keeps

theorem define (kept : Extended sources keeps) {shader library resolved : Shader}
    {target : Callee} {definition : Signature} (listed : library ∈ sources) (holds : keeps shader)
    (runs : Resolution.define shader target library definition = .ok resolved) :
    keeps resolved := by
  obtain ⟨signature, -, following⟩ := Checked.bind_eq_ok.mp runs
  obtain ⟨⟨body, cloned⟩, clones, finish⟩ := Checked.bind_eq_ok.mp following
  obtain rfl := Checked.pure_eq_ok.mp finish
  have grows := CloneM.grows_of_block (kept.coherent holds) clones
  exact kept.modifySignature target (fun _ => ⟨rfl, fun _ => rfl⟩) (kept.grows listed holds grows)

end Extended

/-- The globals of a shader stay inside its arena when statements are taken out of its top level. -/
theorem bound_declarations {shader : Shader}
    (bound : ∀ id ∈ shader.globals, id < shader.vars.size) :
    ∀ id ∈ Shader.globals
      { shader with topLevel := shader.topLevel.filter (declaresGlobal shader) },
      id < shader.vars.size :=
  fun id global => bound id ((List.filter_sublist.filterMap _).subset global)

theorem moveStatements_sound {shader result : Shader} {others : List Shader}
    (has_main : shader.mainSignature?.isSome = true) (of_stage : shader.stage = stage)
    (distinct : (shader.declaredVariables.map (·.name)).Nodup)
    (all : ∀ declared ∈ shader.vars.entries, holds declared)
    (each : ∀ unit ∈ others, ∀ declared ∈ unit.vars.entries, holds declared)
    (runs : moveStatements shader others = .ok result) : Sound holds stage result := by
  refine (Sound.carried each).extended.moveStatements (List.Subset.refl others) has_main
    (fun bound => ?_) runs
  let bare : Shader :=
    { shader with topLevel := shader.topLevel.filter (declaresGlobal shader) }
  have bare_bound : ∀ id ∈ bare.globals, id < bare.vars.size := bound_declarations bound
  have fewer : bare.globals.Sublist shader.globals := List.filter_sublist.filterMap _
  have bare_tidy : bare.Tidy := by
    refine ⟨flat_declarations shader shader.topLevel, bare_bound, ?_⟩
    exact distinct.sublist ((fewer.filterMap _).map _)
  exact ⟨of_stage, Shader.populateSymbols_coherent bare_bound,
    ⟨bare_tidy.flat, bare_tidy.bound, bare_tidy.distinct⟩, all⟩

end Merge

/-! ## Resolving calls -/

namespace Resolution

theorem definitionAmong_eq_some {name : String} {types : List Ty} {library : Shader}
    {definition : Signature} {libraries : List Shader}
    (found : definitionAmong name types libraries = .ok (some (library, definition))) :
    library ∈ libraries ∧ definitionIn library name types = .ok (some definition) := by
  induction libraries with
  | nil => cases found
  | cons first rest ih =>
      obtain ⟨answer, looks, following⟩ := Checked.bind_eq_ok.mp found
      cases answer with
      | some signature =>
          obtain ⟨rfl, rfl⟩ : first = library ∧ signature = definition := by
            simpa using following
          exact ⟨List.mem_cons_self .., looks⟩
      | none =>
          obtain ⟨later, inside⟩ := ih following
          exact ⟨List.mem_cons_of_mem first later, inside⟩

theorem step_grants {libraries : List Shader} {shader resolved : Shader}
    (grants : (step libraries shader).Grants (some resolved)) :
    ∃ target name types library definition,
      firstUndefined shader (Shader.callees shader.nodes) = .ok (some target) ∧
      shader.parameterTypes target = .ok types ∧
      library ∈ libraries ∧ definitionIn library name types = .ok (some definition) ∧
      define shader target library definition = .ok resolved := by
  rw [step] at grants
  obtain ⟨first, looks, following⟩ := Judged.grants_bind.mp grants
  cases first with
  | none => simp at following
  | some target =>
      obtain ⟨function, -, following⟩ := Judged.grants_bind.mp following
      obtain ⟨types, typed, following⟩ := Judged.grants_bind.mp following
      obtain ⟨answer, among, following⟩ := Judged.grants_bind.mp following
      cases answer with
      | none => simp at following
      | some pair =>
          obtain ⟨library, definition⟩ := pair
          obtain ⟨defined, defines, finish⟩ := Judged.grants_bind.mp following
          obtain rfl : defined = resolved := by simpa using finish
          obtain ⟨listed, inside⟩ :=
            definitionAmong_eq_some (Judged.grants_monadLift.mp among)
          exact ⟨target, function.name, types, library, definition,
            Judged.grants_monadLift.mp looks, Judged.grants_monadLift.mp typed, listed, inside,
            Judged.grants_monadLift.mp defines⟩

theorem resolveCalls_keeps {libraries : List Shader} {keeps : Shader → Prop}
    (each : ∀ shader resolved, keeps shader → (step libraries shader).Grants (some resolved) →
      keeps resolved) {shader result : Shader} (holds : keeps shader)
    (grants : (resolveCalls libraries shader).Grants result) : keeps result := by
  rw [resolveCalls] at grants
  generalize signatureCount shader + total (libraries.map signatureCount) = count at grants
  induction count generalizing shader with
  | zero =>
      obtain rfl := Judged.grants_pure.mp grants
      exact holds
  | succ count ih =>
      obtain ⟨answer, steps_once, following⟩ := Judged.grants_bind.mp grants
      cases answer with
      | none =>
          obtain rfl := Judged.grants_pure.mp following
          exact holds
      | some resolved => exact ih (each shader resolved holds steps_once) following

end Resolution
namespace Merge

variable {holds : Variable → Prop} {stage : Stage}

/-- What is carried along from the libraries holds when calls have been resolved. -/
theorem Extended.resolveCalls {libraries : List Shader} {keeps : Shader → Prop}
    (kept : Extended libraries keeps) {shader result : Shader} (holds : keeps shader)
    (grants : (Resolution.resolveCalls libraries shader).Grants result) : keeps result := by
  refine Resolution.resolveCalls_keeps (fun shader resolved holds grants => ?_) holds grants
  obtain ⟨_, _, _, library, _, -, -, listed, -, defines⟩ := Resolution.step_grants grants
  exact kept.define listed holds defines

/-! ## Sizes -/

/-- An input that fits stays as it is, or is an input array that is open or has the length wanted,
and that is not indexed beyond. -/
theorem fitInput_eq_ok {vertices : Nat} {declared fitted : Variable}
    (fits : ArraySize.fitInput vertices declared = .ok fitted) :
    fitted = declared ∨ declared.mode = .shaderIn ∧
      (declared.ty.length?.getD 0 = 0 ∨ declared.ty.length?.getD 0 = vertices) ∧
      declared.maxArrayAccess < vertices ∧
      fitted = { declared with
        ty := declared.ty.withLength vertices, maxArrayAccess := vertices - 1 } := by
  unfold ArraySize.fitInput at fits
  split at fits
  · exact .inl (Except.ok.inj fits).symm
  · next is_input =>
      dsimp only at fits
      split at fits
      · cases fits
      · next as_long =>
          split at fits
          · cases fits
          · next inside =>
              refine .inr ⟨?_, ?_, Nat.lt_of_not_le inside, (Except.ok.inj fits).symm⟩
              · by_contra other_mode
                exact is_input (by simp [other_mode])
              · by_contra other_length
                exact as_long (by simpa using other_length)

theorem fitInput_standsFor (inherited : Inherited holds) {vertices : Nat}
    {declared fitted : Variable} (fits : ArraySize.fitInput vertices declared = .ok fitted) :
    declared.StandsFor holds fitted := by
  obtain rfl | ⟨-, -, -, rfl⟩ := fitInput_eq_ok fits
  · exact .refl _
  · exact .reshape inherited declared _ _ declared.interfaceType

section Revisions

variable {relation : Variable → Variable → Prop}
  (reflexive : ∀ declared, relation declared declared)
  (transitive : ∀ one other last, relation one other → relation other last → relation one last)

include reflexive transitive

theorem fitInputs_revised {vertices : Nat} (fits : ∀ declared fitted,
      ArraySize.fitInput vertices declared = .ok fitted → relation declared fitted)
    {ids : List VariableId} : ∀ {shader result : Shader} {causes : List LinkError},
      ArraySize.fitInputs vertices shader ids = .ok (result, causes) →
      Shader.Revised relation shader result := by
  induction ids with
  | nil =>
      intro shader result causes runs
      obtain ⟨rfl, -⟩ : shader = result ∧ [] = causes := by simpa [ArraySize.fitInputs] using runs
      exact .refl reflexive _
  | cons id ids ih =>
      intro shader result causes runs
      rw [ArraySize.fitInputs] at runs
      obtain ⟨declared, fetched, following⟩ := Checked.bind_eq_ok.mp runs
      have found := Shader.fetchVariable_eq_ok.mp fetched
      split at following
      · next fitted fits_here =>
          refine Shader.Revised.trans transitive ?_ (ih following)
          refine Shader.revised_modifyVariable reflexive fun other was => ?_
          obtain rfl := Option.some.inj (found.symm.trans was)
          exact fits declared fitted fits_here
      · obtain ⟨⟨rest, more⟩, runs_rest, finish⟩ := Checked.bind_eq_ok.mp following
        obtain ⟨rfl, -⟩ : rest = result ∧ _ = causes := by simpa using finish
        exact ih runs_rest

theorem sizeVariables_revised
    (sizes : ∀ declared, relation declared (ArraySize.sizedVariable declared))
    {ids : List VariableId} : ∀ {shader result : Shader} {groups found : List ArraySize.Group},
      ArraySize.sizeVariables shader groups ids = .ok (result, found) →
      Shader.Revised relation shader result := by
  induction ids with
  | nil =>
      intro shader result groups found runs
      obtain ⟨rfl, -⟩ : shader = result ∧ groups = found := by
        simpa [ArraySize.sizeVariables] using runs
      exact .refl reflexive _
  | cons id ids ih =>
      intro shader result groups found runs
      rw [ArraySize.sizeVariables] at runs
      obtain ⟨declared, fetched, following⟩ := Checked.bind_eq_ok.mp runs
      have was := Shader.fetchVariable_eq_ok.mp fetched
      have resized : Shader.Revised relation shader
          (shader.modifyVariable id fun _ => ArraySize.sizedVariable declared) := by
        refine Shader.revised_modifyVariable reflexive fun other here => ?_
        obtain rfl := Option.some.inj (was.symm.trans here)
        exact sizes declared
      dsimp only at following
      split at following
      · exact resized.trans transitive (ih following)
      · exact resized.trans transitive (ih following)

theorem rebuildGroup_revised
    (rebuilds : ∀ (declared : Variable) definition,
      relation declared { declared with interfaceType := definition })
    (shader : Shader) (group : ArraySize.Group) :
    Shader.Revised relation shader (ArraySize.rebuildGroup shader group) := by
  unfold ArraySize.rebuildGroup
  split
  · dsimp only
    split
    · exact .refl reflexive _
    · exact .foldl reflexive transitive
        (fun _ _ => Shader.revised_modifyVariable reflexive fun declared _ =>
          rebuilds declared _) _ _
  · exact .refl reflexive _

theorem sizeArrays_revised
    (sizes : ∀ declared, relation declared (ArraySize.sizedVariable declared))
    (rebuilds : ∀ (declared : Variable) definition,
      relation declared { declared with interfaceType := definition })
    {shader result : Shader} (runs : ArraySize.sizeArrays shader = .ok result) :
    Shader.Revised relation shader result := by
  obtain ⟨ids, -, following⟩ := Checked.bind_eq_ok.mp runs
  obtain ⟨⟨sized, groups⟩, sizing, finish⟩ := Checked.bind_eq_ok.mp following
  obtain rfl := Checked.pure_eq_ok.mp finish
  exact (sizeVariables_revised reflexive transitive sizes sizing).trans transitive
    (.foldl reflexive transitive (rebuildGroup_revised reflexive transitive rebuilds) _ _)

end Revisions

/-- Fitting inputs changes nothing but variables. -/
theorem fitInputs_revises {vertices : Nat} {ids : List VariableId} {shader result : Shader}
    {causes : List LinkError}
    (runs : ArraySize.fitInputs vertices shader ids = .ok (result, causes)) :
    Shader.Revised (fun _ _ => True) shader result :=
  fitInputs_revised (fun _ => trivial) (fun _ _ _ _ _ => trivial) (fun _ _ _ => trivial) runs

/-- Sizing arrays changes nothing but variables. -/
theorem sizeArrays_revises {shader result : Shader}
    (runs : ArraySize.sizeArrays shader = .ok result) :
    Shader.Revised (fun _ _ => True) shader result :=
  sizeArrays_revised (fun _ => trivial) (fun _ _ _ _ _ => trivial) (fun _ => trivial)
    (fun _ _ => trivial) runs

theorem sizedVariable_standsFor (inherited : Inherited holds) (declared : Variable) :
    declared.StandsFor holds (ArraySize.sizedVariable declared) := by
  unfold ArraySize.sizedVariable
  dsimp only
  split
  · split
    · exact .reshape inherited declared _ declared.maxArrayAccess _
    · exact .reshape inherited declared _ declared.maxArrayAccess declared.interfaceType
  · split
    · exact .reshape inherited declared _ declared.maxArrayAccess _
    · exact .reshape inherited declared _ declared.maxArrayAccess declared.interfaceType
  · exact .reshape inherited declared _ declared.maxArrayAccess declared.interfaceType

theorem sizeArrays_standsFor (inherited : Inherited holds) {shader result : Shader}
    (runs : ArraySize.sizeArrays shader = .ok result) :
    Shader.Revised (Variable.StandsFor holds) shader result :=
  sizeArrays_revised .refl .trans (sizedVariable_standsFor inherited)
    (fun declared definition =>
      .reshape inherited declared declared.ty declared.maxArrayAccess definition) runs

/-! ## Executables -/

/-- What a merged executable is like. -/
structure Fine (holds : Variable → Prop) (stage : Stage) (shader : Shader) : Prop where
  stage : shader.stage = stage
  tidy : shader.Tidy
  all : ∀ declared ∈ shader.vars.entries, holds declared

theorem Fine.revised {before after : Shader} (fine : Fine holds stage before)
    (revised : Shader.Revised (Variable.StandsFor holds) before after) :
    Fine holds stage after := by
  refine ⟨by rw [revised.same]; exact fine.stage,
    revised.tidy (fun _ _ stands => stands.name) fine.tidy, fun declared listed => ?_⟩
  obtain ⟨id, found⟩ := Arena.exists_get?_of_mem listed
  obtain ⟨origin, was, stands⟩ := revised.origin found
  exact stands.inherits (fine.all origin (Arena.mem_of_get? was))

theorem splitMain?_eq_some {units others : List Shader} {main : Shader}
    (found : splitMain? units = some (main, others)) :
    main ∈ units ∧ others ⊆ units ∧ main.mainSignature?.isSome = true := by
  induction units generalizing others with
  | nil => cases found
  | cons unit units ih =>
      rw [splitMain?] at found
      split at found
      · next here =>
          obtain ⟨rfl, rfl⟩ : unit = main ∧ units = others := by simpa using found
          exact ⟨List.mem_cons_self .., List.subset_cons_self .., here⟩
      · obtain ⟨⟨later, rest⟩, found_later, equal⟩ := Option.map_eq_some_iff.mp found
        obtain ⟨rfl, rfl⟩ : later = main ∧ unit :: rest = others := by simpa using equal
        obtain ⟨listed, fewer, has_main⟩ := ih found_later
        exact ⟨List.mem_cons_of_mem unit listed, List.cons_subset_cons unit fewer, has_main⟩

/-- Fitting the inputs of a stage leaves a shader alone, or gives its inputs their lengths and then
retypes the places of their elements. -/
theorem fitStageInputs_cases {shader fitted : Shader} {misfits : List LinkError}
    (runs : fitStageInputs stage shader = .ok (fitted, misfits)) :
    fitted = shader ∨ ∃ (primitive : Primitive) (sized : Shader),
      ArraySize.fitInputs primitive.vertices shader shader.globals = .ok (sized, misfits) ∧
      ArraySize.retypeElements sized = .ok fitted := by
  unfold fitStageInputs at runs
  split at runs
  · next primitive _ =>
      obtain ⟨⟨sized, causes⟩, fits, following⟩ := Checked.bind_eq_ok.mp runs
      obtain ⟨retyped, retypes, finish⟩ := Checked.bind_eq_ok.mp following
      obtain ⟨rfl, rfl⟩ : retyped = fitted ∧ causes = misfits := by simpa using finish
      exact .inr ⟨primitive, sized, fits, retypes⟩
  · obtain ⟨rfl, -⟩ : shader = fitted ∧ [] = misfits := by simpa using runs
    exact .inl rfl

theorem fitStageInputs_fine (inherited : Inherited holds) {shader fitted : Shader}
    {misfits : List LinkError} (fine : Fine holds stage shader)
    (runs : fitStageInputs stage shader = .ok (fitted, misfits)) : Fine holds stage fitted := by
  obtain rfl | ⟨_, sized, fits, retypes⟩ := fitStageInputs_cases runs
  · exact fine
  · have sized_fine := fine.revised (fitInputs_revised .refl .trans
      (fun _ _ => fitInput_standsFor inherited) fits)
    rw [Shader.retypeElements_eq_ok sized_fine.tidy.flat retypes]
    exact ⟨sized_fine.stage,
      ⟨sized_fine.tidy.flat, sized_fine.tidy.bound, sized_fine.tidy.distinct⟩, sized_fine.all⟩

theorem adoptResolutions_fine (inherited : Inherited holds) {shader result : Shader}
    {resolutions : Resolutions} (fine : Fine holds stage shader)
    (resolved : ∀ name declared, resolutions.get? name = some declared → holds declared)
    (runs : shader.adoptResolutions resolutions = .ok result) : Fine holds stage result := by
  refine fine.revised (Shader.adoptResolutions_revised Variable.StandsFor.refl
    Variable.StandsFor.trans (fun declared other found => ?_) runs)
  exact ⟨Declaration.adopt_name other declared, Declaration.adopt_mode other declared,
    inherited.adopt (resolved _ other found)⟩

/-- The parts of a merge that is granted. -/
theorem link_grants {version : Nat} {limits : Limits} {units : List TranslationUnit}
    {result : Shader} (grants : (link stage version limits units).Grants result) :
    ∃ resolutions blocks main others,
      (Declaration.resolve false (units.map (·.shader))).Grants resolutions ∧
      UniformBlock.ofUnits limits.uniformBlockSize (units.map (·.shader)) = .ok blocks ∧
      splitMain? (units.map (·.shader)) = some (main, others) ∧
      (assemble stage version units resolutions blocks main others).Grants result := by
  obtain ⟨resolutions, resolves, following⟩ := Judged.grants_bind.mp grants
  obtain ⟨_, -, following⟩ := Judged.grants_bind.mp following
  dsimp only at following
  split at following
  · next blocks tabled =>
      obtain ⟨_, same, following⟩ := Judged.grants_bind.mp following
      obtain rfl := Judged.grants_pure.mp same
      obtain ⟨_, -, following⟩ := Judged.grants_bind.mp following
      split at following
      · exact absurd following Judged.grants_reject
      · next main others splits =>
          exact ⟨resolutions, blocks, main, others, resolves, tabled, splits, following⟩
  · obtain ⟨_, rejected, -⟩ := Judged.grants_bind.mp following
    exact absurd rejected Judged.grants_reject

/-- The steps of an assembly that is granted. -/
theorem assemble_grants {version : Nat} {units : List TranslationUnit} {resolutions : Resolutions}
    {blocks : List UniformBlock} {main result : Shader} {others : List Shader}
    (grants : (assemble stage version units resolutions blocks main others).Grants result) :
    ∃ merged resolved agreed fitted misfits,
      moveStatements { main with
          uniformBlocks := blocks,
          geometry := (geometryLayout stage version (units.map (·.shader))).1 } others =
        .ok merged ∧
      (Resolution.resolveCalls (units.map (·.shader) ++ units.flatMap (·.libraries))
        merged).Grants resolved ∧
      resolved.adoptResolutions resolutions = .ok agreed ∧
      fitStageInputs stage agreed = .ok (fitted, misfits) ∧
      ArraySize.sizeArrays fitted = .ok result ∧ misfits = [] := by
  obtain ⟨merged, moves, following⟩ := Judged.grants_bind.mp grants
  obtain ⟨resolved, resolves, following⟩ := Judged.grants_bind.mp following
  obtain ⟨agreed, adopts, following⟩ := Judged.grants_bind.mp following
  obtain ⟨⟨fitted, misfits⟩, fits, following⟩ := Judged.grants_bind.mp following
  obtain ⟨sized, sizes, following⟩ := Judged.grants_bind.mp following
  obtain ⟨_, no_errors, finish⟩ := Judged.grants_bind.mp following
  obtain rfl := Judged.grants_pure.mp finish
  exact ⟨merged, resolved, agreed, fitted, misfits, Judged.grants_monadLift.mp moves,
    Judged.grants_after.mp resolves, Judged.grants_monadLift.mp adopts,
    Judged.grants_monadLift.mp fits, Judged.grants_monadLift.mp sizes,
    (List.append_eq_nil_iff.mp (Judged.grants_rejectAll.mp no_errors)).2⟩

/-- Every shader in which a merge looks for definitions has been brought by a unit. -/
theorem forall_library {units : List TranslationUnit} {keeps : Shader → Prop}
    (each : ∀ unit ∈ units, ∀ shader ∈ unit.shader :: unit.libraries, keeps shader) :
    ∀ library ∈ units.map (·.shader) ++ units.flatMap (·.libraries), keeps library := by
  intro library listed
  rcases List.mem_append.mp listed with own | brought
  · obtain ⟨unit, unit_listed, rfl⟩ := List.mem_map.mp own
    exact each unit unit_listed _ (List.mem_cons_self ..)
  · obtain ⟨unit, unit_listed, inside⟩ := List.mem_flatMap.mp brought
    exact each unit unit_listed library (List.mem_cons_of_mem _ inside)

/-- Merging the units of a stage, which declare distinct names, gives an executable of the stage
that has only declarations at its top level. -/
theorem link_fine (inherited : Inherited holds) {version : Nat} {limits : Limits}
    {units : List TranslationUnit} {result : Shader}
    (of_stage : ∀ unit ∈ units, unit.shader.stage = stage)
    (distinct : ∀ unit ∈ units, (unit.shader.declaredVariables.map (·.name)).Nodup)
    (each : ∀ unit ∈ units, ∀ shader ∈ unit.shader :: unit.libraries,
      ∀ declared ∈ shader.vars.entries, holds declared)
    (grants : (link stage version limits units).Grants result) : Fine holds stage result := by
  obtain ⟨resolutions, blocks, main, others, resolves, -, splits, assembles⟩ := link_grants grants
  obtain ⟨main_listed, others_listed, has_main⟩ := splitMain?_eq_some splits
  obtain ⟨merged, resolved, agreed, fitted, misfits, moves, resolves_calls, adopts,
    fits, sizes, -⟩ :=
    assemble_grants assembles
  have from_libraries : ∀ library ∈ units.map (·.shader) ++ units.flatMap (·.libraries),
      ∀ declared ∈ library.vars.entries, holds declared := forall_library each
  have from_units : ∀ shader ∈ units.map (·.shader), ∀ declared ∈ shader.vars.entries,
      holds declared := fun shader listed => from_libraries shader (List.mem_append_left _ listed)
  have resolved_hold : ∀ name declared, resolutions.get? name = some declared →
      holds declared := by
    intro name declared found
    let of_name : String → Variable → Prop := fun _ => holds
    have keeps : ∀ existing declared merged : Variable, existing.name = declared.name →
        of_name existing.name existing → of_name declared.name declared →
        Declaration.Merged existing declared merged → of_name existing.name merged :=
      fun _ _ _ _ => inherited.merge
    refine (Declaration.resolve_grants keeps (fun shader listed declared here _ => ?_) resolves
      found).2
    obtain ⟨id, -, was⟩ := Shader.mem_declaredVariables.mp here
    exact from_units shader listed declared (Arena.mem_of_get? was)
  obtain ⟨unit, unit_listed, rfl⟩ := List.mem_map.mp main_listed
  let basis : Shader := { unit.shader with
    uniformBlocks := blocks
    geometry := (geometryLayout stage version (units.map (·.shader))).1 }
  have sound : Sound holds stage merged :=
    moveStatements_sound (show basis.mainSignature?.isSome = true from has_main)
      (of_stage unit unit_listed) (distinct unit unit_listed) (from_units unit.shader main_listed)
      (fun other listed => from_units other (others_listed listed)) moves
  have resolved_sound := (Sound.carried from_libraries).extended.resolveCalls sound resolves_calls
  have resolved_fine : Fine holds stage resolved :=
    ⟨resolved_sound.stage, resolved_sound.tidy, resolved_sound.all⟩
  have agreed_fine := adoptResolutions_fine inherited resolved_fine resolved_hold adopts
  exact (fitStageInputs_fine inherited agreed_fine fits).revised
    (sizeArrays_standsFor inherited sizes)

end Merge
end StageLink
