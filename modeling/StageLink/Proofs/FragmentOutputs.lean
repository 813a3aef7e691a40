import StageLink.Proofs.Placement
import StageLink.Proofs.Slots

/-!
# Fragment outputs

An allocation of fragment outputs looks into the range and the slots of an output unless this has a
location and a dual-source index as well, which is then taken as it is.  So all outputs lie below
the limit and those of one index lie apart as long as the outputs that are taken as they are do so,
and otherwise an allocation may succeed with outputs in the same place.
-/

namespace StageLink
namespace Attribute

variable {limit : Nat} {bindings : Bindings} {before start result : Shader}
  {id other : VariableId} {declared another : Variable} {location : Nat}

/-- The dual-source index of an output once the bindings have been looked at. -/
def sourceIndex (bindings : Bindings) (declared : Variable) : Nat :=
  if declared.explicitLocation || (bindings.locations.get? declared.name).isNone then declared.index
  else (bindings.indices.get? declared.name).getD 0

/-- The outputs of a shader have all their slots below a limit, and no two of them share both a slot
and the dual-source index. -/
structure OutputsApart (limit : Nat) (shader : Shader) : Prop where
  below : ∀ {id declared}, Slotted .fragmentOutputs shader id declared →
    ∃ location, declared.location = some location ∧
      ∀ slot, Span.Covers ⟨location, declared.ty.attributeSlots⟩ slot → slot < limit
  apart : ∀ {id other declared another location elsewhere},
    Slotted .fragmentOutputs shader id declared → Slotted .fragmentOutputs shader other another →
      id ≠ other → declared.index = another.index → declared.location = some location →
        another.location = some elsewhere →
          Span.Apart ⟨location, declared.ty.attributeSlots⟩ ⟨elsewhere, another.ty.attributeSlots⟩

/-- An output asks for a location and has a dual-source index, so that it is taken as it is. -/
def TakenAsItIs (bindings : Bindings) (declared : Variable) (location : Nat) : Prop :=
  asked? bindings declared = some location ∧ sourceIndex bindings declared ≠ 0

/-- The outputs that are taken as they are lie below the limit and apart from all other outputs of
their index, which ask for a location as well. -/
structure TakenApart (limit : Nat) (bindings : Bindings) (start : Shader) : Prop where
  below : ∀ {id declared location}, Slotted .fragmentOutputs start id declared →
    TakenAsItIs bindings declared location →
      ∀ slot, Span.Covers ⟨location, declared.ty.attributeSlots⟩ slot → slot < limit
  apart : ∀ {id other declared another location}, Slotted .fragmentOutputs start id declared →
    Slotted .fragmentOutputs start other another → id ≠ other →
      TakenAsItIs bindings declared location →
        sourceIndex bindings declared = sourceIndex bindings another →
          ∃ elsewhere, asked? bindings another = some elsewhere ∧
            Span.Apart ⟨location, declared.ty.attributeSlots⟩ ⟨elsewhere, another.ty.attributeSlots⟩

theorem Slotted.bound_index (slotted : Slotted .fragmentOutputs start id declared) :
    (bound .fragmentOutputs bindings declared).index = sourceIndex bindings declared := by
  unfold bound bind sourceIndex
  rw [slotted.generic]
  cases declared.explicitLocation <;> cases bindings.locations.get? declared.name <;> simp

/-- An output that is not taken as it is has its slots to itself. -/
theorem hasOwn_or_takenAsItIs (slotted : Slotted .fragmentOutputs start id declared)
    (location_eq : (bound .fragmentOutputs bindings declared).location =
      asked? bindings declared) :
    HasOwn .fragmentOutputs bindings declared ∨ ∃ location,
      TakenAsItIs bindings declared location := by
  unfold HasOwn TakenAsItIs
  rw [location_eq, slotted.bound_index]
  cases asked? bindings declared with
  | none => exact .inl (.inl rfl)
  | some location =>
      by_cases own : sourceIndex bindings declared = 0
      · exact .inl (.inr own)
      · exact .inr ⟨location, rfl, own⟩

/-- If the outputs that are taken as they are lie apart, then an allocation of fragment outputs that
succeeds leaves all of them apart. -/
theorem allocate_separates_outputs (nodup : before.globals.Nodup)
    (invalidates : before.modifyGlobals Varying.invalidate = .ok start)
    (taken : TakenApart limit bindings start)
    (runs : allocate .fragmentOutputs limit bindings start = .ok (result, none)) :
    OutputsApart limit result := by
  have revised := allocate_revised runs
  obtain ⟨place, allotted⟩ := allocate_allotted (globals_invalidated invalidates ▸ nodup) runs
  have location_eq : ∀ {id declared}, Slotted .fragmentOutputs start id declared →
      (bound .fragmentOutputs bindings declared).location = asked? bindings declared :=
    fun slotted => slotted.bound_location nodup invalidates
  have place_eq : ∀ {id declared location}, Slotted .fragmentOutputs start id declared →
      asked? bindings declared = some location → place id = location :=
    fun slotted asks => (allotted.located slotted ((location_eq slotted).trans asks)).1
  have origin : ∀ {id allocated}, Slotted .fragmentOutputs result id allocated →
      ∃ declared, Slotted .fragmentOutputs start id declared ∧
        allocated.location = some (place id) ∧
        allocated.index = sourceIndex bindings declared ∧ allocated.ty = declared.ty := by
    intro id allocated slotted
    obtain ⟨declared, slotted_before, -⟩ := slotted.before revised
    obtain ⟨final, now, located, index, type⟩ := allotted.found slotted_before
    obtain rfl := slotted.unique now
    exact ⟨declared, slotted_before, located, index.trans slotted_before.bound_index, type⟩
  refine ⟨fun {id allocated} slotted => ?_, fun {id other allocated reallocated location elsewhere}
    slotted other_slotted differ same_index located other_located => ?_⟩
  · obtain ⟨declared, slotted_before, located, -, type⟩ := origin slotted
    refine ⟨_, located, fun slot covers => ?_⟩
    rw [type] at covers
    rcases hasOwn_or_takenAsItIs slotted_before (location_eq slotted_before)
      with own | ⟨location, as_is⟩
    · exact Nat.lt_of_lt_of_le (allotted.inside slotted_before own covers)
        (Nat.min_le_left limit 32)
    · rw [place_eq slotted_before as_is.1] at covers
      exact taken.below slotted_before as_is slot covers
  · obtain ⟨declared, slotted_before, located_now, index, type⟩ := origin slotted
    obtain ⟨another, other_before, other_located_now, other_index, other_type⟩ :=
      origin other_slotted
    obtain rfl := Option.some.inj (located_now.symm.trans located)
    obtain rfl := Option.some.inj (other_located_now.symm.trans other_located)
    have indices : sourceIndex bindings declared = sourceIndex bindings another :=
      index.symm.trans (same_index.trans other_index)
    rw [type, other_type]
    rcases hasOwn_or_takenAsItIs slotted_before (location_eq slotted_before)
      with own | ⟨location, as_is⟩
    · rcases hasOwn_or_takenAsItIs other_before (location_eq other_before) with
        other_own | ⟨elsewhere, other_as_is⟩
      · exact allotted.apart slotted_before other_before differ own other_own
      · obtain ⟨here, asks, apart⟩ :=
          taken.apart other_before slotted_before differ.symm other_as_is indices.symm
        rw [place_eq slotted_before asks, place_eq other_before other_as_is.1]
        exact apart.symm
    · obtain ⟨elsewhere, asks, apart⟩ :=
        taken.apart slotted_before other_before differ as_is indices
      rw [place_eq slotted_before as_is.1, place_eq other_before asks]
      exact apart

/-- A fragment stage with five outputs. -/
def blended : Shader :=
  .ofParts .fragment [.vector "color" .shaderOut, .vector "source" .shaderOut,
    .vector "glow" .shaderOut, .vector "depth" .shaderOut,
    (Variable.vector "normal" .shaderOut).withLocation 4]
    [.ofBody "main" [.copy 1 0]]

/-- Two outputs are bound to the first location, one of them with an index, and another one is bound
with that index to the second location. -/
def blending : Bindings where
  locations := .ofList [("color", 0), ("source", 0), ("glow", 1)]
  indices := .ofList [("source", 1), ("glow", 1)]

/-- The output without a location is placed beside that with an index. -/
theorem blended_separates_outputs : blended.globals.Nodup ∧
    ∃ start result, blended.modifyGlobals Varying.invalidate = .ok start ∧
      TakenApart 8 blending start ∧
      allocate .fragmentOutputs 8 blending start = .ok (result, none) ∧
      OutputsApart 8 result ∧
      result.vars.entries.map (fun declared => (declared.location, declared.index)) =
        [(some 0, 0), (some 0, 1), (some 1, 1), (some 1, 0), (some 4, 0)] := by
  let start : Shader :=
    { blended with vars := ⟨blended.vars.entries.map Varying.invalidate⟩ }
  have invalidates : blended.modifyGlobals Varying.invalidate = .ok start := rfl
  have gives : (allocate .fragmentOutputs 8 blending start).givesTo (fun outcome =>
      outcome.2.isNone && decide (outcome.1.vars.entries.map (fun declared =>
        (declared.location, declared.index)) =
          [(some 0, 0), (some 0, 1), (some 1, 1), (some 1, 0), (some 4, 0)])) = true := by
    decide +kernel
  obtain ⟨⟨result, failure⟩, allocates, passes⟩ := Checked.exists_of_givesTo gives
  simp only [Bool.and_eq_true, Option.isNone_iff_eq_none, decide_eq_true_eq] at passes
  obtain ⟨rfl, places⟩ := passes
  have inside : ∀ {id declared}, Slotted .fragmentOutputs start id declared →
      id ∈ List.range 5 ∧ declared ∈ start.vars.get? id :=
    fun slotted => ⟨List.mem_range.mpr (Arena.lt_of_get? slotted.found), slotted.found⟩
  have taken : TakenApart 8 blending start := by
    refine ⟨fun {id declared location} slotted as_is slot covers => ?_,
      fun {id other declared another location} slotted other_slotted differ as_is same => ?_⟩
    · have low : ∀ id ∈ List.range 5, ∀ declared ∈ start.vars.get? id,
          ∀ location ∈ asked? blending declared, location + declared.ty.attributeSlots ≤ 8 := by
        decide +kernel
      obtain ⟨listed, found⟩ := inside slotted
      exact Nat.lt_of_lt_of_le covers.2 (low id listed declared found location as_is.1)
    · have distinct : ∀ id ∈ List.range 5, ∀ declared ∈ start.vars.get? id,
          ∀ other ∈ List.range 5, ∀ another ∈ start.vars.get? other,
          id ≠ other → sourceIndex blending declared ≠ 0 →
          sourceIndex blending declared = sourceIndex blending another →
          ∀ location ∈ asked? blending declared, ∃ elsewhere ∈ asked? blending another,
            location + declared.ty.attributeSlots ≤ elsewhere ∨
              elsewhere + another.ty.attributeSlots ≤ location := by
        decide +kernel
      obtain ⟨listed, found⟩ := inside slotted
      obtain ⟨other_listed, other_found⟩ := inside other_slotted
      obtain ⟨elsewhere, asks, before | after⟩ :=
        distinct id listed declared found other other_listed
        another other_found differ as_is.2 same location as_is.1
      · exact ⟨elsewhere, asks, Span.apart_of_le before⟩
      · exact ⟨elsewhere, asks, (Span.apart_of_le after).symm⟩
  exact ⟨by decide, start, result, invalidates, taken, allocates,
    allocate_separates_outputs (by decide) invalidates taken allocates, places⟩

/-- A fragment stage with two outputs. -/
def doubled : Shader :=
  .ofParts .fragment [.vector "color" .shaderOut, .vector "source" .shaderOut]
    [.ofBody "main" [.copy 0 1, .copy 1 0]]

/-- Two outputs are bound to one location and one index. -/
def doubling : Bindings where
  locations := .ofList [("color", 0), ("source", 0)]
  indices := .ofList [("color", 1), ("source", 1)]

/-- An allocation may succeed although two outputs share a slot and the dual-source index. -/
theorem doubled_outputs_collide : doubled.globals.Nodup ∧
    ∃ start result, doubled.modifyGlobals Varying.invalidate = .ok start ∧
      allocate .fragmentOutputs 8 doubling start = .ok (result, none) ∧
        ¬ OutputsApart 8 result := by
  have gives : Checked.givesTo (do
      let start ← doubled.modifyGlobals Varying.invalidate
      allocate .fragmentOutputs 8 doubling start) (fun outcome =>
        outcome.2.isNone && decide (0 ∈ outcome.1.globals ∧ 1 ∈ outcome.1.globals ∧
          ∃ one ∈ outcome.1.vars.get? 0, ∃ other ∈ outcome.1.vars.get? 1,
            Varying.isGeneric .shaderOut one = true ∧ Varying.isGeneric .shaderOut other = true ∧
            one.index = other.index ∧ one.location = some 0 ∧ other.location = some 0 ∧
            one.ty.attributeSlots = 1 ∧ other.ty.attributeSlots = 1)) = true := by
    decide +kernel
  obtain ⟨⟨result, failure⟩, runs, passes⟩ := Checked.exists_of_givesTo gives
  obtain ⟨start, invalidates, allocates⟩ := Checked.bind_eq_ok.mp runs
  simp only [Bool.and_eq_true, Option.isNone_iff_eq_none, decide_eq_true_eq] at passes
  obtain ⟨rfl, first_global, second_global, one, is_first, other, is_second, generic, other_generic,
    same_index, located, other_located, slots, other_slots⟩ := passes
  refine ⟨by decide, start, result, invalidates, allocates, fun separate => ?_⟩
  have apart := separate.apart ⟨first_global, is_first, generic⟩
    ⟨second_global, is_second, other_generic⟩ Nat.zero_ne_one same_index located other_located
  rw [slots, other_slots] at apart
  exact apart 0 ⟨Nat.le_refl 0, Nat.one_pos⟩ ⟨Nat.le_refl 0, Nat.one_pos⟩

end Attribute
end StageLink
