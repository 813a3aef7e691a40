import StageLink.Proofs.Captures
import StageLink.Proofs.Delivery

/-!
# What captures are taken from

A request is resolved against an output that has its slots.  Until the end of the link that output
may go, but it may not change: what has found its counterpart, or is captured, is neither demoted
nor moved.  So what the request has come to keeps describing every output of its name.
-/

namespace StageLink

/-! ## Captured outputs -/

/-- A request has come to an output of the given declaration, or to one of its elements: the slots
are counted from those of the output, to the element within them. -/
structure Captured.TakenFrom (captured : Captured) (name : ResourceName)
    (output : Variable) : Prop where
  is_output : output.mode = .shaderOut
  part : match name.index with
    | none => captured.ty = output.ty
    | some index => ∃ length, output.ty = .array captured.ty (some length) ∧ index < length
  located : output.isBuiltin = false → ∃ location, output.location = some location ∧
    captured.location = some (wrap (location + name.index.getD 0 * captured.ty.attributeSlots))

theorem Capture.resolveAgainst_eq_ok {capture : Capture} {output : Variable} {captured : Captured}
    (resolves : resolveAgainst capture output = .ok captured) (is_output : output.mode = .shaderOut)
    (placed : output.isBuiltin = false → output.location.isSome = true) :
    captured.TakenFrom capture.name output ∧ (output.isBuiltin = true → captured.location = none) ∧
      captured.components = captured.ty.componentSlots := by
  have located : ∀ offset, output.isBuiltin = false → ∃ location, output.location = some location ∧
      (if output.isBuiltin then none else output.location.map fun base => wrap (base + offset)) =
        some (wrap (location + offset)) := by
    intro offset generic
    obtain ⟨location, found⟩ := Option.isSome_iff_exists.mp (placed generic)
    exact ⟨location, found, by simp [generic, found]⟩
  unfold resolveAgainst at resolves
  dsimp only at resolves
  split at resolves
  · next whole =>
      obtain rfl := Except.ok.inj resolves
      refine ⟨⟨is_output, by rw [whole], fun generic => ?_⟩,
        fun built_in => by simp [built_in], rfl⟩
      rw [whole, Option.getD_none, Nat.zero_mul]
      exact located 0 generic
  · cases resolves
  · next index element asked is_array =>
      split at resolves
      · cases resolves
      · next inside =>
          obtain rfl := Except.ok.inj resolves
          refine ⟨⟨is_output, ?_, fun generic => ?_⟩, fun built_in => by simp [built_in], rfl⟩
          · rw [asked]
            cases shape : output.ty with
            | array inner length =>
                rw [shape] at is_array inside
                obtain rfl : inner = element := Option.some.inj is_array
                cases length with
                | none => simp [Ty.length?] at inside
                | some length => exact ⟨length, rfl, by simpa [Ty.length?] using inside⟩
            | _ => simp [shape, Ty.element?] at is_array
          · obtain ⟨location, found, counted⟩ :=
              located (wrap (index * element.attributeSlots)) generic
            exact ⟨location, found,
              by simpa only [asked, Option.getD_some, wrap_add_wrap] using counted⟩

/-! ## Variables that stay what they are -/

/-- The second declaration has the name of the first and is an output only if that is one.  An
output that has found its counterpart stays what it is. -/
structure Variable.Spared (one other : Variable) : Prop where
  name : other.name = one.name
  mode : other.mode = .shaderOut → one.mode = .shaderOut
  same : one.mode = .shaderOut → one.unmatched = false → other = one

namespace Variable.Spared

theorem refl (declared : Variable) : declared.Spared declared :=
  ⟨rfl, fun same => same, fun _ _ => rfl⟩

theorem trans (one other last : Variable) (before : one.Spared other) (after : other.Spared last) :
    one.Spared last := by
  refine ⟨after.name.trans before.name, fun is_output => before.mode (after.mode is_output),
    fun is_output matched => ?_⟩
  obtain rfl := before.same is_output matched
  exact after.same is_output matched

theorem demote (mode : VariableMode) (declared : Variable) :
    declared.Spared (Varying.demote mode declared) := by
  unfold Varying.demote
  split
  · next unmatched =>
      simp only [Bool.and_eq_true, decide_eq_true_eq] at unmatched
      exact ⟨rfl, fun absurd => (by cases absurd), fun _ matched => by simp [matched] at unmatched⟩
  · exact .refl declared

theorem relocate (placed : String → Option Span) (declared : Variable) :
    declared.Spared (Varying.relocate .shaderIn placed declared) := by
  refine ⟨Varying.relocate_name .., fun is_output => ?_, fun is_output _ => ?_⟩
  · rw [Varying.sameButPlace_relocate declared] at is_output
    exact is_output
  · simp [Varying.relocate, Varying.isGeneric, is_output]

theorem of_keepsInterface {one other : Variable} (keeps : one.KeepsInterface other) :
    one.Spared other :=
  ⟨keeps.name, fun is_output => keeps.mode.symm.trans is_output,
    fun is_output _ => keeps.same (by rw [is_output]; rfl)⟩

end Variable.Spared

namespace Shader

variable {before after shader : Shader}

/-- What the second executable declares has been declared by the first, and is spared. -/
structure Spares (before after : Shader) : Prop where
  tidy : before.Tidy → after.Tidy
  origin : ∀ declared ∈ after.declaredVariables, ∃ origin ∈ before.declaredVariables,
    origin.Spared declared

namespace Spares

variable {first second third : Shader}

theorem refl (shader : Shader) : Spares shader shader :=
  ⟨fun tidy => tidy, fun declared listed => ⟨declared, listed, .refl declared⟩⟩

theorem trans (before : Spares first second) (after : Spares second third) :
    Spares first third := by
  refine ⟨fun tidy => after.tidy (before.tidy tidy), fun declared listed => ?_⟩
  obtain ⟨halfway, halfway_listed, spared⟩ := after.origin declared listed
  obtain ⟨origin, origin_listed, spared_before⟩ := before.origin halfway halfway_listed
  exact ⟨origin, origin_listed, spared_before.trans _ _ _ spared⟩

end Spares

theorem Revised.spares (revised : Revised Variable.Spared before after) : Spares before after :=
  ⟨revised.tidy fun _ _ spared => spared.name, fun _ listed => revised.mem_declared listed⟩

theorem Thinned.spares (thinned : Thinned before after) : Spares before after :=
  ⟨thinned.tidy, fun declared listed => ⟨declared, thinned.declaredVariables.subset listed,
    .refl declared⟩⟩

theorem Compacted.spares (compacted : Compacted before after) : Spares before after :=
  ⟨compacted.tidy, fun declared listed =>
    ⟨declared, compacted.declaredVariables ▸ listed, .refl declared⟩⟩

theorem spares_of_demote {mode : VariableMode} {demoted : Shader} (tidy : shader.Tidy)
    (runs : shader.modifyGlobals (Varying.demote mode) = .ok demoted) :
    Spares shader demoted.removeAllDeadCode := by
  have spares := (revised_modifyVariables .refl .trans (.demote mode) runs :
    Revised Variable.Spared shader demoted).spares
  exact spares.trans (thinned_removeAllDeadCode (spares.tidy tidy).flat).spares

theorem spares_resizeArrays {highest : String → Nat} {result : Shader} (tidy : shader.Tidy)
    (runs : Uniform.resizeArrays highest shader = .ok result) : Spares shader result := by
  obtain ⟨changed, revised, thinned⟩ := resizeArrays_keepsInterface tidy runs
  exact (revised.imp fun _ _ => Variable.Spared.of_keepsInterface).spares.trans thinned.spares

/-- Allocating the boundary before a stage spares its outputs. -/
theorem spares_of_allocate {captured : List String} {limit : Nat} {producer consumer : Shader}
    {allocation : Varying.Allocation} (producer_tidy : producer.Tidy) (tidy : consumer.Tidy)
    (runs : Varying.allocate captured limit producer (some consumer) = .ok (allocation, none)) :
    Spares consumer (allocation.consumer.getD consumer) := by
  obtain ⟨-, revised⟩ := Varying.allocate_sameSides runs
  have opposite_tidy : ∀ other, some consumer = some other → other.Tidy := by
    rintro _ ⟨⟩
    exact tidy
  obtain ⟨used, placed, -, -, moved, -, -⟩ :=
    Varying.allocate_ledger producer_tidy opposite_tidy runs
  obtain ⟨allocated, is_allocated, revised⟩ := exists_of_rel revised
  rw [is_allocated] at moved ⊢
  obtain ⟨_, ⟨⟩, moved⟩ := exists_of_rel moved
  rw [Option.getD_some]
  refine ⟨revised.tidy fun _ _ same => same.name, fun declared listed => ?_⟩
  rw [moved.declaredVariables tidy revised.globals] at listed
  obtain ⟨origin, was, rfl⟩ := List.mem_map.mp listed
  exact ⟨origin, was, .relocate placed origin⟩

/-! ## Outputs that captures are taken from -/

/-- Built-in outputs count as having found their counterpart. -/
structure Placeable (shader : Shader) : Prop where
  tidy : shader.Tidy
  matched : ∀ output ∈ shader.declaredVariables, output.mode = .shaderOut →
    output.isBuiltin = true →
    output.unmatched = false

theorem Placeable.moved (placeable : before.Placeable)
    (moved : Revised Variable.Moved before after) :
    after.Placeable := by
  refine ⟨moved.tidy (fun _ _ moves => moves.same.name) placeable.tidy,
    fun output listed is_output built_in => ?_⟩
  obtain ⟨origin, was, moves⟩ := moved.mem_declared listed
  rw [moves.same] at is_output built_in
  exact moves.matched (placeable.matched origin was is_output built_in)

theorem Placeable.spares (placeable : before.Placeable) (spares : Spares before after) :
    after.Placeable := by
  refine ⟨spares.tidy placeable.tidy, fun output listed is_output built_in => ?_⟩
  obtain ⟨origin, was, spared⟩ := spares.origin output listed
  have origin_output := spared.mode is_output
  rw [Variable.isBuiltin, spared.name] at built_in
  have matched := placeable.matched origin was origin_output built_in
  rw [spared.same origin_output matched]
  exact matched

/-- Forgetting locations leaves built-in outputs matched. -/
theorem placeable_invalidated (tidy : before.Tidy)
    (runs : before.modifyGlobals Varying.invalidate = .ok after) : after.Placeable := by
  have revised := (revised_modifyVariables .refl .trans Variable.SameButPlace.invalidate runs :
    Revised Variable.SameButPlace before after)
  refine ⟨revised.tidy (fun _ _ same => same.name) tidy, fun output listed is_output built_in => ?_⟩
  rw [declaredVariables_modifyGlobals tidy runs] at listed
  obtain ⟨origin, -, rfl⟩ := List.mem_map.mp listed
  have same := Variable.SameButPlace.invalidate origin
  have origin_output : origin.mode = .shaderOut := by rw [← is_output, same]
  have origin_built_in : origin.isBuiltin = true := by rw [← built_in, same]; rfl
  simp [Varying.invalidate, origin_output, origin_built_in, VariableMode.isInterface]

/-- An allocation without a failure places all outputs that are captured. -/
theorem placed_of_allocate {captured : List String} {limit : Nat} {producer : Shader}
    {opposite : Option Shader} {allocation : Varying.Allocation} (tidy : producer.Tidy)
    (opposite_tidy : ∀ consumer, opposite = some consumer → consumer.Tidy)
    (runs : Varying.allocate captured limit producer opposite = .ok (allocation, none))
    {output : Variable} (listed : output ∈ allocation.producer.declaredVariables)
    (is_output : output.mode = .shaderOut) (generic : output.isBuiltin = false)
    (asked : output.name ∈ captured) :
    output.location.isSome = true ∧ output.unmatched = false := by
  obtain ⟨revised, -⟩ := Varying.allocate_sameSides runs
  obtain ⟨used, placed, -, moved, -, -, served⟩ := Varying.allocate_ledger tidy opposite_tidy runs
  rw [moved.declaredVariables tidy revised.globals] at listed
  obtain ⟨origin, was, rfl⟩ := List.mem_map.mp listed
  have same := @Varying.sameButPlace_relocate .shaderOut placed origin
  have is_generic : Varying.isGeneric .shaderOut origin = true := by
    rw [← same.isGeneric]
    simp [Varying.isGeneric, is_output, generic]
  rw [same.name] at asked
  obtain ⟨span, found⟩ := Option.isSome_iff_exists.mp
    (served origin (List.mem_filter.mpr ⟨was, is_generic⟩) (.inr asked))
  rw [Varying.relocate_of_placed is_generic found]
  exact ⟨rfl, rfl⟩

/-- What a request has come to describes every output of its name, none of which will be demoted. -/
structure Serves (shader : Shader) (name : ResourceName) (captured : Captured) : Prop where
  built_in : isBuiltinName name.base = true → captured.location = none
  components : captured.components = captured.ty.componentSlots
  taken : ∀ output ∈ shader.declaredVariables, output.name = name.base →
    output.unmatched = false ∧ captured.TakenFrom name output

theorem Serves.spares {name : ResourceName} {captured : Captured}
    (serves : before.Serves name captured) (spares : Spares before after) :
    after.Serves name captured := by
  refine ⟨serves.built_in, serves.components, fun output listed named => ?_⟩
  obtain ⟨origin, was, spared⟩ := spares.origin output listed
  obtain ⟨matched, taken⟩ := serves.taken origin was (spared.name.symm.trans named)
  rw [spared.same taken.is_output matched]
  exact ⟨matched, taken⟩

/-- Resolving a request for an output that has been placed finds what describes that output. -/
theorem serves_of_resolve {capture resolved : Capture} (placeable : shader.Placeable)
    (placed : ∀ output ∈ shader.declaredVariables, output.mode = .shaderOut →
      output.isBuiltin = false → output.name = capture.name.base →
      output.location.isSome = true ∧ output.unmatched = false)
    (grants : (Capture.resolve shader capture).Grants resolved) :
    ∃ captured, resolved = { capture with resolved := some captured } ∧
      shader.Serves capture.name captured := by
  obtain ⟨output, captured, finds, resolves, rfl⟩ := Capture.resolve_grants grants
  obtain ⟨id, global, found, is_output, named⟩ := Capture.findOutput_eq_some finds
  have listed := mem_declaredVariables.mpr ⟨id, global, found⟩
  obtain ⟨taken, no_location, components⟩ := Capture.resolveAgainst_eq_ok resolves is_output
    fun generic => (placed output listed is_output generic named).1
  refine ⟨captured, rfl, fun built_in => no_location (by rwa [Variable.isBuiltin, named]),
    components,
    fun other other_listed other_named => ?_⟩
  obtain rfl := placeable.tidy.declared_eq_of_name listed other_listed
    (named.trans other_named.symm)
  refine ⟨?_, taken⟩
  cases built_in : output.isBuiltin with
  | true => exact placeable.matched output listed is_output built_in
  | false => exact (placed output listed is_output built_in named).2

end Shader
end StageLink
