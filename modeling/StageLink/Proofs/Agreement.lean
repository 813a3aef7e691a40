import StageLink.Declaration.Agreement
import StageLink.Proofs.Globals
import StageLink.Proofs.Names

/-!
# Resolved declarations

Merging a declaration into the one resolved so far changes only what the two may leave open.  What
holds of all declarations that take part and is kept by merging holds of all that are resolved, and
what is kept by adopting them then holds of the globals that have adopted them.
-/

namespace StageLink

def Variable.Placed (declared : Variable) : Prop :=
  declared.explicitLocation = true → declared.location.isSome = true

instance (declared : Variable) : Decidable declared.Placed :=
  inferInstanceAs (Decidable (declared.explicitLocation = true → declared.location.isSome = true))

namespace Declaration

/-- What a declaration has become by merging another into it. -/
structure Merged (existing declared merged : Variable) : Prop where
  rest : merged = { existing with
    ty := merged.ty
    explicitLocation := existing.explicitLocation || declared.explicitLocation
    location := if declared.explicitLocation then declared.location else existing.location
    explicitBinding := merged.explicitBinding
    binding := merged.binding
    constantInitializer := merged.constantInitializer
    hasInitializer := merged.hasInitializer }
  ty : merged.ty = existing.ty ∧ declared.ty = existing.ty ∨
    unifiable declared.ty existing.ty = true ∧
      merged.ty = if declared.ty.isUnsizedArray then existing.ty else declared.ty

theorem unifyType_iff {existing declared unified : Variable} :
    unifyType existing declared = .ok unified ↔
      (declared.ty = existing.ty ∨ unifiable declared.ty existing.ty = true) ∧
        unified = { existing with
          ty := if declared.ty.isUnsizedArray then existing.ty else declared.ty } := by
  unfold unifyType
  by_cases same : declared.ty = existing.ty
  · simp only [same, ↓reduceIte, Except.ok.injEq, true_or, true_and, ite_self]
    exact eq_comm
  · by_cases may : unifiable declared.ty existing.ty = true
    · by_cases unsized : declared.ty.isUnsizedArray = true
      all_goals
        simp only [same, may, unsized, ↓reduceIte, Bool.not_true, Bool.false_eq_true,
          Except.ok.injEq, or_true, true_and]
        exact eq_comm
    · simp [same, may]

theorem unifyLocation_iff {existing declared unified : Variable} :
    unifyLocation existing declared = .ok unified ↔
      (declared.explicitLocation = true → existing.explicitLocation = true →
        declared.location = existing.location) ∧
        unified = { existing with
          explicitLocation := existing.explicitLocation || declared.explicitLocation
          location := if declared.explicitLocation then declared.location
            else existing.location } := by
  unfold unifyLocation
  cases given : declared.explicitLocation with
  | false => simpa using eq_comm
  | true =>
      by_cases same : declared.location = existing.location
      · simpa [same] using eq_comm
      · cases before : existing.explicitLocation with
        | false => simpa [same] using eq_comm
        | true => simp [same]

theorem unifyBinding_iff {existing declared unified : Variable} :
    unifyBinding existing declared = .ok unified ↔
      (declared.explicitBinding = true → existing.explicitBinding = true →
        declared.binding = existing.binding) ∧
        unified = { existing with
          explicitBinding := existing.explicitBinding || declared.explicitBinding
          binding := if declared.explicitBinding then declared.binding else existing.binding } := by
  unfold unifyBinding
  cases given : declared.explicitBinding with
  | false => simpa using eq_comm
  | true =>
      by_cases same : declared.binding = existing.binding
      · simpa [same] using eq_comm
      · cases before : existing.explicitBinding with
        | false => simpa [same] using eq_comm
        | true => simp [same]

theorem unifyAtomicOffset_iff {existing declared unified : Variable} :
    unifyAtomicOffset existing declared = .ok unified ↔
      (declared.ty.containsAtomic = true → declared.atomicOffset = existing.atomicOffset) ∧
        unified = existing := by
  unfold unifyAtomicOffset
  by_cases same : declared.atomicOffset = existing.atomicOffset
  · simpa [same] using eq_comm
  · cases declared.ty.containsAtomic with
    | false => simpa using eq_comm
    | true => simp [same]

theorem unifyInitializer_iff {existing declared unified : Variable} :
    unifyInitializer existing declared = .ok unified ↔
      (∀ value first, declared.constantInitializer = some value →
        existing.constantInitializer = some first → value = first) ∧
        unified = { existing with
          constantInitializer :=
            existing.constantInitializer <|> declared.constantInitializer } := by
  unfold unifyInitializer
  cases given : declared.constantInitializer with
  | none => simpa using eq_comm
  | some value =>
      cases before : existing.constantInitializer with
      | none => simpa using eq_comm
      | some first =>
          by_cases same : first = value
          · subst same
            have whole : { existing with constantInitializer := some first } = existing := by
              rw [← before]
            simpa [(Constant.sameValue_iff first first).mpr rfl, whole] using eq_comm
          · have differs : first.sameValue value = false := by
              simpa [same] using (Constant.sameValue_iff first value).not
            simp [differs, Ne.symm same]

theorem unifyInitialization_iff {existing declared unified : Variable} :
    unifyInitialization existing declared = .ok unified ↔
      (declared.hasInitializer = true → existing.hasInitializer = true →
        declared.constantInitializer.isSome = true ∧ existing.constantInitializer.isSome = true) ∧
        unified = { existing with
          hasInitializer := existing.hasInitializer || declared.hasInitializer } := by
  unfold unifyInitialization
  cases given : declared.hasInitializer with
  | false => simpa using eq_comm
  | true =>
      cases before : existing.hasInitializer with
      | false => simpa using eq_comm
      | true =>
          cases declared.constantInitializer with
          | none => simp
          | some value =>
              cases first : existing.constantInitializer with
              | none => simp
              | some value => simpa using eq_comm

theorem unifyQualifiers_iff {existing declared unified : Variable} :
    unifyQualifiers existing declared = .ok unified ↔
      (declared.invariant = existing.invariant ∧ declared.centroid = existing.centroid) ∧
        unified = existing := by
  unfold unifyQualifiers
  by_cases same : existing.invariant = declared.invariant
  · by_cases too : existing.centroid = declared.centroid
    · simpa [same, too] using eq_comm
    · simp [same, too, Ne.symm too]
  · simp [same, Ne.symm same]

theorem merge_eq_some {existing declared merged : Variable} {errors : List LinkError}
    (runs : merge existing declared = (errors, some merged)) : Merged existing declared merged := by
  unfold merge at runs
  split at runs
  · cases runs
  · next placed placing =>
      dsimp only at runs
      split at runs
      · cases runs
      · next resolved valuing =>
          obtain ⟨-, rfl⟩ : _ ∧ resolved = merged := by simpa using runs
          obtain ⟨typed, types, placing⟩ := except_bind_eq_ok.mp placing
          obtain ⟨located, locates, placing⟩ := except_bind_eq_ok.mp placing
          obtain ⟨bound, binds, offsets⟩ := except_bind_eq_ok.mp placing
          obtain ⟨valued, values, valuing⟩ := except_bind_eq_ok.mp valuing
          obtain ⟨initialized, initializes, qualifies⟩ := except_bind_eq_ok.mp valuing
          obtain ⟨joins, rfl⟩ := unifyType_iff.mp types
          obtain ⟨-, rfl⟩ := unifyLocation_iff.mp locates
          obtain ⟨-, rfl⟩ := unifyBinding_iff.mp binds
          obtain ⟨-, rfl⟩ := unifyAtomicOffset_iff.mp offsets
          obtain ⟨-, rfl⟩ := unifyInitializer_iff.mp values
          obtain ⟨-, rfl⟩ := unifyInitialization_iff.mp initializes
          obtain ⟨-, rfl⟩ := unifyQualifiers_iff.mp qualifies
          refine ⟨rfl, joins.imp (fun same => ⟨?_, same⟩) fun may => ⟨may, rfl⟩⟩
          simp [same]

/-! ## Folding declarations -/

theorem resolveFrom_grants {holds : String → Variable → Prop}
    (keeps : ∀ existing declared merged, existing.name = declared.name →
      holds existing.name existing → holds declared.name declared →
      Merged existing declared merged → holds existing.name merged)
    {uniformsOnly : Bool} {items : List (Shader × VariableId)} :
    ∀ {errors : List LinkError} {resolved result : Resolutions},
      (∀ item ∈ items, ∀ declared, item.1.vars.get? item.2 = some declared →
        isCompared uniformsOnly declared = true → holds declared.name declared) →
      (∀ name declared, resolved.get? name = some declared →
        declared.name = name ∧ holds name declared) →
      (resolveFrom uniformsOnly errors resolved items).Grants result →
      ∀ name declared, result.get? name = some declared →
        declared.name = name ∧ holds name declared := by
  induction items with
  | nil =>
      intro errors resolved result _ so_far grants
      obtain ⟨-, -, equal⟩ := Judged.grants_bind.mp grants
      obtain rfl := Judged.grants_pure.mp equal
      exact so_far
  | cons item items ih =>
      intro errors resolved result each so_far grants
      obtain ⟨shader, id⟩ := item
      have each_later := fun other listed => each other (List.mem_cons_of_mem _ listed)
      rw [resolveFrom] at grants
      obtain ⟨declared, fetched, following⟩ := Judged.grants_bind.mp grants
      have was := Shader.fetchVariable_eq_ok.mp (Judged.grants_monadLift.mp fetched)
      split at following
      · next compared =>
          have holds_declared := each _ (List.mem_cons_self ..) declared was compared
          split at following
          · refine ih each_later (fun name found bound => ?_) following
            rw [NameTable.get?_insert] at bound
            split at bound
            · next same =>
                obtain rfl := Option.some.inj bound
                exact ⟨same.symm, same ▸ holds_declared⟩
            · exact so_far name found bound
          · next existing known =>
              split at following
              · simp at following
              · next found merged merges =>
                  refine ih each_later (fun name entry bound => ?_) following
                  obtain ⟨named, holds_existing⟩ := so_far _ existing known
                  have merged_from := merge_eq_some merges
                  have merged_named : merged.name = existing.name := by rw [merged_from.rest]
                  rw [NameTable.get?_insert] at bound
                  split at bound
                  · next same =>
                      obtain rfl := Option.some.inj bound
                      have kept :=
                        keeps existing declared merged named (named.symm ▸ holds_existing)
                        holds_declared merged_from
                      rw [same, ← named]
                      exact ⟨merged_named, kept⟩
                  · exact so_far name entry bound
      · exact ih each_later so_far following

/-- What holds of all globals that are compared, and what merging keeps, holds of every resolved
declaration. -/
theorem resolve_grants {holds : String → Variable → Prop}
    (keeps : ∀ existing declared merged, existing.name = declared.name →
      holds existing.name existing → holds declared.name declared →
      Merged existing declared merged → holds existing.name merged)
    {uniformsOnly : Bool} {shaders : List Shader} {result : Resolutions}
    (each : ∀ shader ∈ shaders, ∀ declared ∈ shader.declaredVariables,
      isCompared uniformsOnly declared = true → holds declared.name declared)
    (grants : (resolve uniformsOnly shaders).Grants result) {name : String} {declared : Variable}
    (found : result.get? name = some declared) : declared.name = name ∧ holds name declared := by
  refine resolveFrom_grants keeps (fun item listed declared was compared => ?_)
    (fun name _ known => ?_)
    grants name declared found
  · obtain ⟨shader, shader_listed, inside⟩ := List.mem_flatMap.mp listed
    obtain ⟨id, global, rfl⟩ := List.mem_map.mp inside
    exact each shader shader_listed declared (Shader.mem_declaredVariables.mpr ⟨id, global, was⟩)
      compared
  · cases known

/-! ## Adopting -/

theorem adopt_name (resolved declared : Variable) :
    (adopt resolved declared).name = declared.name := by
  unfold adopt
  split <;> rfl

theorem adopt_mode (resolved declared : Variable) :
    (adopt resolved declared).mode = declared.mode := by
  unfold adopt
  split <;> rfl

theorem adopt_of_mode {resolved declared : Variable} (other : resolved.mode ≠ declared.mode) :
    adopt resolved declared = declared := if_pos other

theorem adopt_placed {resolved declared : Variable} (resolved_placed : resolved.Placed)
    (declared_placed : declared.Placed) : (adopt resolved declared).Placed := by
  unfold adopt
  split
  · exact declared_placed
  · intro explicit
    dsimp only at explicit ⊢
    split
    · next given => exact resolved_placed given
    · next not_given => exact declared_placed (by simpa [not_given] using explicit)

theorem Merged.placed {existing declared merged : Variable}
    (from_both : Merged existing declared merged) (existing_placed : existing.Placed)
    (declared_placed : declared.Placed) : merged.Placed := by
  rw [from_both.rest]
  intro explicit
  dsimp only at explicit ⊢
  split
  · next given => exact declared_placed given
  · next not_given => exact existing_placed (by simpa [not_given] using explicit)

end Declaration

namespace Shader

/-- Adopting resolutions relates the globals to what they become. -/
theorem adoptResolutions_revised {relation : Variable → Variable → Prop} {shader result : Shader}
    {resolutions : Resolutions} (reflexive : ∀ declared, relation declared declared)
    (transitive : ∀ one other last, relation one other → relation other last →
      relation one last)
    (adopts : ∀ declared resolved, resolutions.get? declared.name = some resolved →
      relation declared (Declaration.adopt resolved declared))
    (runs : shader.adoptResolutions resolutions = .ok result) : Revised relation shader result := by
  refine revised_modifyVariables reflexive transitive (fun declared => ?_) runs
  cases found : resolutions.get? declared.name with
  | none => exact reflexive declared
  | some resolved => exact adopts declared resolved found

/-- Adopting resolutions changes nothing but variables. -/
theorem adoptResolutions_revises {shader result : Shader} {resolutions : Resolutions}
    (runs : shader.adoptResolutions resolutions = .ok result) :
    Revised (fun _ _ => True) shader result :=
  modifyVariables_revises runs

end Shader
end StageLink
