import StageLink.Proofs.Placement
import StageLink.Proofs.Slots

/-!
# Vertex inputs

An allocation of vertex inputs that succeeds gives each of them a span of slots of its own below the
limit.  The inputs that ask for a location get it.  Every other one gets the lowest span that is
vacant next to these, to the slot of the built-in position attribute and to the inputs that are
larger, or as large and declared earlier.
-/

namespace StageLink
namespace Attribute

variable {limit : Nat} {bindings : Bindings} {before start result : Shader}
  {place : VariableId → Nat} {id other : VariableId} {declared another : Variable}

/-- An input gets its slots before one that asks for no location: it asks for one, or needs more
slots, or needs as many and is declared earlier. -/
def ServedBefore (bindings : Bindings) (start : Shader) (other : VariableId) (another : Variable)
    (id : VariableId) (declared : Variable) : Prop :=
  (asked? bindings another).isSome = true ∨
    declared.ty.attributeSlots < another.ty.attributeSlots ∨
      declared.ty.attributeSlots = another.ty.attributeSlots ∧ [other, id].Sublist start.globals

/-- What is out of the question for the span of an input that asks for no location: the slot of the
built-in position attribute and the spans of the inputs before it. -/
def servedSpans (bindings : Bindings) (start : Shader) (place : VariableId → Nat)
    (id : VariableId) (declared : Variable) : Set Span :=
  {span | start.Dereferences "gl_Vertex" ∧ span = ⟨0, 1⟩ ∨ ∃ other another,
    Slotted .vertexInputs start other another ∧
      ServedBefore bindings start other another id declared ∧
      span = ⟨place other, another.ty.attributeSlots⟩}

/-- The vertex inputs of a shader have been given places, and nothing else has changed. -/
structure PlacesInputs (limit : Nat) (bindings : Bindings) (start result : Shader)
    (place : VariableId → Nat) : Prop where
  located : ∀ {id declared}, Slotted .vertexInputs start id declared →
    result.vars.get? id = some { declared with location := some (place id), unmatched := false }
  others : ∀ id, (∀ declared, ¬ Slotted .vertexInputs start id declared) →
    result.vars.get? id = start.vars.get? id
  rest : result = { start with vars := result.vars }
  kept : ∀ {id declared location}, Slotted .vertexInputs start id declared →
    asked? bindings declared = some location → place id = location
  inside : ∀ {id declared}, Slotted .vertexInputs start id declared →
    ∀ slot, Span.Covers ⟨place id, declared.ty.attributeSlots⟩ slot → slot < min limit 32
  apart : ∀ {id other declared another}, Slotted .vertexInputs start id declared →
    Slotted .vertexInputs start other another → id ≠ other →
      Span.Apart ⟨place id, declared.ty.attributeSlots⟩ ⟨place other, another.ty.attributeSlots⟩
  reserved : ∀ {id declared}, start.Dereferences "gl_Vertex" →
    Slotted .vertexInputs start id declared → asked? bindings declared = none →
      ¬ Span.Covers ⟨place id, declared.ty.attributeSlots⟩ 0
  lowest : ∀ {id declared}, Slotted .vertexInputs start id declared →
    asked? bindings declared = none →
      IsLeast {base | Span.Vacant limit (servedSpans bindings start place id declared)
        ⟨base, declared.ty.attributeSlots⟩} (place id)

/-- For a vertex input the bindings decide about nothing but its location. -/
theorem bound_vertexInputs (declared : Variable) :
    bound .vertexInputs bindings declared = { declared with
      location := (bound .vertexInputs bindings declared).location
      unmatched := (bound .vertexInputs bindings declared).unmatched } := by
  unfold bound bind
  split
  · split <;> rfl
  · rfl

theorem index_invalidate (declared : Variable) :
    (Varying.invalidate declared).index = declared.index := by
  unfold Varying.invalidate
  split
  · rfl
  · split <;> rfl

/-- Where no input shares the slots of another, what precedes a variable in an allocation are the
inputs that are served before it. -/
theorem precedes_iff_servedBefore
    (location_eq : (bound .vertexInputs bindings another).location = asked? bindings another)
    (own : (bound .vertexInputs bindings another).index = 0) :
    Precedes .vertexInputs bindings start other another id declared ↔
      ServedBefore bindings start other another id declared := by
  unfold Precedes ServedBefore
  rw [location_eq, own]
  cases asked? bindings another <;> simp

/-- An allocation of vertex inputs that succeeds is correct. -/
theorem allocate_places_inputs (nodup : before.globals.Nodup)
    (own : ∀ {id declared}, Slotted .vertexInputs before id declared → declared.index = 0)
    (invalidates : before.modifyGlobals Varying.invalidate = .ok start)
    (runs : allocate .vertexInputs limit bindings start = .ok (result, none)) :
    ∃ place, PlacesInputs limit bindings start result place := by
  obtain ⟨place, allotted⟩ := allocate_allotted (globals_invalidated invalidates ▸ nodup) runs
  have location_eq : ∀ {id declared}, Slotted .vertexInputs start id declared →
      (bound .vertexInputs bindings declared).location = asked? bindings declared :=
    fun slotted => slotted.bound_location nodup invalidates
  have index_eq : ∀ {id declared}, Slotted .vertexInputs start id declared →
      (bound .vertexInputs bindings declared).index = 0 := by
    intro id declared slotted
    obtain ⟨was, slotted_before, rfl⟩ := slotted.origin nodup invalidates
    rw [bound_vertexInputs]
    exact (index_invalidate was).trans (own slotted_before)
  have has_own : ∀ {id declared}, Slotted .vertexInputs start id declared →
      HasOwn .vertexInputs bindings declared := fun slotted => .inr (index_eq slotted)
  have spans_eq : ∀ id declared, spansBefore .vertexInputs bindings start place id declared =
      servedSpans bindings start place id declared := by
    intro id declared
    ext span
    simp only [spansBefore, servedSpans, Set.mem_ofPred_eq, Reserves, true_and]
    refine or_congr_right (exists_congr fun other => exists_congr fun another =>
      and_congr_right fun slotted => ?_)
    rw [precedes_iff_servedBefore (location_eq slotted) (index_eq slotted)]
  have lowest : ∀ {id declared}, Slotted .vertexInputs start id declared →
      asked? bindings declared = none →
        IsLeast {base | Span.Vacant limit (servedSpans bindings start place id declared)
          ⟨base, declared.ty.attributeSlots⟩} (place id) := by
    intro id declared slotted asks_nothing
    exact spans_eq id declared ▸
      allotted.lowest slotted ((location_eq slotted).trans asks_nothing)
  refine ⟨place, ?_, allotted.untouched, allotted.same, ?_,
    fun slotted slot covers => allotted.inside slotted (has_own slotted) covers,
    fun slotted other_slotted differ =>
      allotted.apart slotted other_slotted differ (has_own slotted) (has_own other_slotted),
    ?_, lowest⟩
  · intro id declared slotted
    cases asks : asked? bindings declared with
    | some location =>
        have located := (location_eq slotted).trans asks
        obtain ⟨placed, now⟩ := allotted.located slotted located
        rw [now, bound_vertexInputs, located, placed,
          slotted.bound_unmatched nodup invalidates (by rw [asks]; rfl)]
    | none =>
        rw [allotted.settled slotted ((location_eq slotted).trans asks), Varying.settle,
          bound_vertexInputs]
  · intro id declared location slotted asks
    exact (allotted.located slotted ((location_eq slotted).trans asks)).1
  · intro id declared mentioned slotted asks_nothing covers
    exact (lowest slotted asks_nothing).1.apart ⟨0, 1⟩ (.inl ⟨mentioned, rfl⟩) 0
      ⟨Nat.le_refl 0, Nat.one_pos⟩ covers

/-- A vertex stage that mentions the built-in position attribute and has inputs of all kinds. -/
def sprite : Shader :=
  .ofParts .vertex [.vector "gl_Vertex" .shaderIn, .vector "tint" .shaderIn,
    (Variable.vector "normal" .shaderIn).withLocation 5, .vector "weight" .shaderIn,
    .ofType "bend" (.matrix .two .four) .shaderIn, .vector "gl_Position" .shaderOut]
    [.ofBody "main" [.copy 5 0]]

/-- The larger input is placed above the bound one although it is declared later, and the smaller
one gets the lowest slot but that of the position attribute. -/
theorem sprite_places_inputs : sprite.globals.Nodup ∧
    (∀ {id declared}, Slotted .vertexInputs sprite id declared → declared.index = 0) ∧
    sprite.Dereferences "gl_Vertex" ∧
    ∃ start result place, sprite.modifyGlobals Varying.invalidate = .ok start ∧
      allocate .vertexInputs 8 { locations := .ofList [("weight", 2)] } start = .ok (result, none) ∧
      PlacesInputs 8 { locations := .ofList [("weight", 2)] } start result place ∧
      result.vars.entries.map (·.location) = [none, some 1, some 5, some 2, some 3, none] := by
  have own : ∀ {id declared}, Slotted .vertexInputs sprite id declared → declared.index = 0 :=
    fun slotted => (by decide : ∀ declared ∈ sprite.vars.entries, declared.index = 0) _
      (Arena.mem_of_get? slotted.found)
  have gives : Checked.givesTo (do
      let start ← sprite.modifyGlobals Varying.invalidate
      allocate .vertexInputs 8 { locations := .ofList [("weight", 2)] } start) (fun outcome =>
        outcome.2.isNone && decide (outcome.1.vars.entries.map (·.location) =
          [none, some 1, some 5, some 2, some 3, none])) = true := by
    decide +kernel
  obtain ⟨⟨result, failure⟩, runs, passes⟩ := Checked.exists_of_givesTo gives
  obtain ⟨start, invalidates, allocates⟩ := Checked.bind_eq_ok.mp runs
  simp only [Bool.and_eq_true, Option.isNone_iff_eq_none, decide_eq_true_eq] at passes
  obtain ⟨rfl, locations⟩ := passes
  obtain ⟨place, places⟩ := allocate_places_inputs (by decide) own invalidates allocates
  have mentions : sprite.mentions "gl_Vertex" = .ok true := rfl
  exact ⟨by decide, own, (Shader.mentions_eq_ok mentions).mp rfl, start, result, place, invalidates,
    allocates, places, locations⟩

end Attribute
end StageLink
