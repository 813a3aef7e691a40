import StageLink.Proofs.Attributes
import StageLink.Proofs.Names

/-!
# Allocated varyings

The two sides of a boundary are known to each other by name, so the ledger of their allocation gives
spans to names.  A side has its generic variables settled where the ledger says, and is otherwise as
it was; so both sides of a varying agree on its location.
-/

namespace StageLink
namespace Varying

variable {mode : VariableMode} {placed : String → Option Span}

/-- What an allocation makes of a variable of the mode that gets its slots. -/
def relocate (mode : VariableMode) (placed : String → Option Span) (declared : Variable) :
    Variable :=
  if isGeneric mode declared then
    match placed declared.name with
    | some span => settle span.base declared
    | none => declared
  else declared

theorem sameButPlace_relocate (declared : Variable) :
    declared.SameButPlace (relocate mode placed declared) := by
  unfold relocate
  split
  · split
    · exact .settle _ declared
    · exact .refl declared
  · exact .refl declared

/-! ## What an allocation leaves alone -/

/-- Two stages of an allocation between which variables of its sides have moved. -/
structure Moves (before after : Allocation) : Prop where
  producer : Shader.Revised Variable.Moved before.producer after.producer
  consumer : Option.Rel (Shader.Revised Variable.Moved) before.consumer after.consumer

namespace Moves

theorem refl (allocation : Allocation) : Moves allocation allocation :=
  ⟨.refl Variable.Moved.refl _, rel_refl (.refl Variable.Moved.refl) _⟩

theorem trans {first second third : Allocation} (before : Moves first second)
    (after : Moves second third) : Moves first third where
  producer := before.producer.trans Variable.Moved.trans after.producer
  consumer := rel_trans (fun _ _ _ related later => related.trans Variable.Moved.trans later)
    before.consumer after.consumer

theorem locate (allocation : Allocation) (used : SlotSet) (pair : Pair) (location : Nat) :
    Moves allocation (locate { allocation with used := used } pair location) := by
  refine ⟨Shader.revised_modifyVariable Variable.Moved.refl fun declared _ =>
    .settle location declared, ?_⟩
  simp only [Varying.locate]
  cases allocation.consumer with
  | none => exact .none
  | some consumer =>
      refine .some ?_
      split
      · exact Shader.revised_modifyVariable Variable.Moved.refl fun declared _ =>
          .settle location declared
      · exact .refl Variable.Moved.refl consumer

end Moves

theorem claimAll_moves {inputs : NameTable VariableId} {captured : List String} {limit : Nat}
    {ids : List VariableId} :
    ∀ {allocation result : Allocation} {failure : Option LinkError},
      claimAll inputs captured limit allocation ids = .ok (result, failure) →
      Moves allocation result := by
  induction ids with
  | nil =>
      intro allocation result failure runs
      obtain ⟨rfl, -⟩ : allocation = result ∧ none = failure := by simpa [claimAll] using runs
      exact .refl allocation
  | cons id ids ih =>
      intro allocation result failure runs
      rw [claimAll] at runs
      obtain ⟨output, fetched, following⟩ := Checked.bind_eq_ok.mp runs
      dsimp only at following
      split at following
      · exact ih following
      · split at following
        · have rest := ih following
          exact ⟨rest.producer, rest.consumer⟩
        · split at following
          · obtain ⟨rfl, -⟩ : allocation = result ∧ _ = failure := by simpa using following
            exact .refl allocation
          · split at following
            · obtain ⟨rfl, -⟩ : allocation = result ∧ _ = failure := by simpa using following
              exact .refl allocation
            · exact (Moves.locate allocation _ _ _).trans (ih following)

theorem placeAll_moves {pairs : List Pair} :
    ∀ {allocation result : Allocation} {failure : Option LinkError},
      placeAll allocation pairs = (result, failure) → Moves allocation result := by
  induction pairs with
  | nil =>
      intro allocation result failure runs
      obtain ⟨rfl, -⟩ : allocation = result ∧ none = failure := by simpa [placeAll] using runs
      exact .refl allocation
  | cons pair pairs ih =>
      intro allocation result failure runs
      rw [placeAll] at runs
      split at runs
      · obtain ⟨rfl, -⟩ : allocation = result ∧ _ = failure := by simpa using runs
        exact .refl allocation
      · exact (Moves.locate allocation _ _ _).trans (ih runs)

/-- The generic inputs of the opposite side, of which there are none if there is no such side. -/
def oppositeInputs (consumer : Option Shader) : Checked (List (VariableId × Variable)) :=
  match consumer with
  | some consumer => genericGlobals .shaderIn consumer
  | none => pure []

/-- An allocation looks at the explicit locations of all outputs and then places the others. -/
theorem allocate_eq_ok {captured : List String} {limit : Nat} {producer : Shader}
    {consumer : Option Shader} {result : Allocation} {failure : Option LinkError}
    (runs : allocate captured limit producer consumer = .ok (result, failure)) :
    ∃ inputs outputs claimed problem,
      oppositeInputs consumer = .ok inputs ∧ genericGlobals .shaderOut producer = .ok outputs ∧
      claimAll (NameTable.ofList (inputs.map fun pair => (pair.2.name, pair.1))) captured limit
        { producer := producer, consumer := consumer, used := SlotSet.reservedAbove limit }
        (outputs.map (·.1)) = .ok (claimed, problem) ∧
      if problem.isSome then claimed = result ∧ problem = failure
      else placeAll claimed (largestFirst (·.slots) claimed.pending) = (result, failure) := by
  have parts : ∃ inputs, oppositeInputs consumer = .ok inputs ∧ ∃ outputs,
      genericGlobals .shaderOut producer = .ok outputs ∧ ∃ answer,
      claimAll (NameTable.ofList (inputs.map fun pair => (pair.2.name, pair.1))) captured limit
        { producer := producer, consumer := consumer, used := SlotSet.reservedAbove limit }
        (outputs.map (·.1)) = .ok answer ∧
      (if answer.2.isSome then pure (answer.1, answer.2)
        else pure (placeAll answer.1 (largestFirst (·.slots) answer.1.pending))
        : Checked (Allocation × Option LinkError)) = .ok (result, failure) := by
    unfold allocate at runs
    cases consumer with
    | none =>
        obtain ⟨inputs, listed, runs⟩ := Checked.bind_eq_ok.mp runs
        obtain ⟨outputs, found, runs⟩ := Checked.bind_eq_ok.mp runs
        obtain ⟨answer, claims, following⟩ := Checked.bind_eq_ok.mp runs
        exact ⟨inputs, listed, outputs, found, answer, claims, following⟩
    | some consumer =>
        obtain ⟨inputs, listed, runs⟩ := Checked.bind_eq_ok.mp runs
        obtain ⟨outputs, found, runs⟩ := Checked.bind_eq_ok.mp runs
        obtain ⟨answer, claims, following⟩ := Checked.bind_eq_ok.mp runs
        exact ⟨inputs, listed, outputs, found, answer, claims, following⟩
  obtain ⟨inputs, listed, outputs, found, ⟨claimed, problem⟩, claims, following⟩ := parts
  refine ⟨inputs, outputs, claimed, problem, listed, found, claims, ?_⟩
  split at following
  · next failed =>
      rw [if_pos failed]
      simpa using following
  · next fine =>
      rw [if_neg fine]
      simpa using following

/-- What an allocation comes to, given the variables on both sides and their explicit locations. -/
theorem allocate_eq {captured : List String} {limit : Nat} {producer : Shader}
    {consumer : Option Shader} {inputs outputs : List (VariableId × Variable)}
    {claimed : Allocation} {problem : Option LinkError}
    (listed : oppositeInputs consumer = .ok inputs)
    (found : genericGlobals .shaderOut producer = .ok outputs)
    (claims :
      claimAll (NameTable.ofList (inputs.map fun pair => (pair.2.name, pair.1))) captured limit
      { producer := producer, consumer := consumer, used := SlotSet.reservedAbove limit }
      (outputs.map (·.1)) = .ok (claimed, problem)) :
    allocate captured limit producer consumer = .ok (if problem.isSome then (claimed, problem)
      else placeAll claimed (largestFirst (·.slots) claimed.pending)) := by
  unfold allocate
  cases consumer with
  | none =>
      refine Checked.bind_eq_ok.mpr ⟨inputs, listed, Checked.bind_eq_ok.mpr ⟨outputs, found, ?_⟩⟩
      refine Checked.bind_eq_ok.mpr ⟨(claimed, problem), claims, ?_⟩
      dsimp only
      split <;> rfl
  | some consumer =>
      refine Checked.bind_eq_ok.mpr ⟨inputs, listed, Checked.bind_eq_ok.mpr ⟨outputs, found, ?_⟩⟩
      refine Checked.bind_eq_ok.mpr ⟨(claimed, problem), claims, ?_⟩
      dsimp only
      split <;> rfl

theorem allocate_moves {captured : List String} {limit : Nat} {producer : Shader}
    {consumer : Option Shader} {result : Allocation} {failure : Option LinkError}
    (runs : allocate captured limit producer consumer = .ok (result, failure)) :
    Shader.Revised Variable.Moved producer result.producer ∧
      Option.Rel (Shader.Revised Variable.Moved) consumer result.consumer := by
  obtain ⟨inputs, outputs, claimed, problem, -, -, claims, following⟩ := allocate_eq_ok runs
  have claimed_sides := claimAll_moves claims
  have sides : Moves
      { producer := producer, consumer := consumer, used := SlotSet.reservedAbove limit }
      result := by
    split at following
    · exact following.1 ▸ claimed_sides
    · exact claimed_sides.trans (placeAll_moves following)
  exact ⟨sides.producer, sides.consumer⟩

/-- Whether it fails or not, an allocation only changes where variables are. -/
theorem allocate_sameSides {captured : List String} {limit : Nat} {producer : Shader}
    {consumer : Option Shader} {result : Allocation} {failure : Option LinkError}
    (runs : allocate captured limit producer consumer = .ok (result, failure)) :
    Shader.Revised Variable.SameButPlace producer result.producer ∧
      Option.Rel (Shader.Revised Variable.SameButPlace) consumer result.consumer := by
  obtain ⟨producer_moved, consumer_moved⟩ := allocate_moves runs
  exact ⟨producer_moved.imp fun _ _ => Variable.Moved.same,
    rel_imp (fun _ _ moved => moved.imp fun _ _ => Variable.Moved.same) consumer_moved⟩

/-! ## Globals that get slots -/

private theorem mem_fetched {shader : Shader} {ids : List VariableId}
    {pairs : List (VariableId × Variable)}
    (fetched : List.Forall₂
      (fun id pair => pair.1 = id ∧ shader.vars.get? id = some pair.2) ids pairs) :
    pairs.map (·.1) = ids ∧ ∀ id declared, (id, declared) ∈ pairs ↔
      id ∈ ids ∧ shader.vars.get? id = some declared := by
  induction fetched with
  | nil => simp
  | @cons first pair rest others here _ ih =>
      obtain ⟨rfl, found⟩ := here
      obtain ⟨keys, listed⟩ := ih
      refine ⟨by rw [List.map_cons, keys], fun id declared => ?_⟩
      rw [List.mem_cons, List.mem_cons, listed]
      constructor
      · rintro (rfl | ⟨later, found_later⟩)
        · exact ⟨.inl rfl, found⟩
        · exact ⟨.inr later, found_later⟩
      · rintro ⟨rfl | later, found_here⟩
        · exact .inl (Prod.ext rfl (Option.some.inj (found_here.symm.trans found)))
        · exact .inr ⟨later, found_here⟩

/-- The generic globals of a mode are listed in order with their declarations. -/
theorem genericGlobals_eq_ok {shader : Shader} {pairs : List (VariableId × Variable)}
    (runs : genericGlobals mode shader = .ok pairs) :
    (pairs.map (·.1)).Sublist shader.globals ∧
      ∀ id declared, (id, declared) ∈ pairs ↔
        id ∈ shader.globals ∧ shader.vars.get? id = some declared ∧
          isGeneric mode declared = true := by
  rw [genericGlobals] at runs
  obtain ⟨all, fetches, equal⟩ := Checked.bind_eq_ok.mp runs
  obtain rfl := Checked.pure_eq_ok.mp equal
  obtain ⟨keys, listed⟩ := @mem_fetched shader shader.globals all (by
    refine (Checked.mapM_eq_ok.mp fetches).imp fun id pair step => ?_
    obtain ⟨declared, found, same⟩ := Checked.bind_eq_ok.mp step
    obtain rfl := Checked.pure_eq_ok.mp same
    exact ⟨rfl, Shader.fetchVariable_eq_ok.mp found⟩)
  refine ⟨?_, fun id declared => ?_⟩
  · rw [← keys]
    exact List.filter_sublist.map _
  · rw [List.mem_filter, listed]
    simp only [and_assoc]

/-! ## One side of a boundary -/

/-- The second shader is the first with its generic globals relocated. -/
def Relocated (mode : VariableMode) (placed : String → Option Span) (before after : Shader) :
    Prop :=
  ∀ id ∈ before.globals, ∀ declared, before.vars.get? id = some declared →
    after.vars.get? id = some (relocate mode placed declared)

namespace Relocated

variable {before after : Shader} {id : VariableId} {declared : Variable} {span : Span}

theorem initial (shader : Shader) : Relocated mode (fun _ => none) shader shader := by
  intro id _ declared found
  rw [found, relocate]
  split <;> rfl

/-- A name without a span gets one: the global of that name is settled. -/
theorem enter (relocated : Relocated mode placed before after) (tidy : before.Tidy)
    (global : id ∈ before.globals) (found : before.vars.get? id = some declared)
    (generic : isGeneric mode declared = true) (fresh : placed declared.name = none) :
    Relocated mode (Function.update placed declared.name (some span)) before
      (after.modifyVariable id (settle span.base)) := by
  intro other other_global entry was
  simp only [Shader.modifyVariable, Arena.get?_modify, relocated other other_global entry was,
    Option.map_some, Option.some.injEq]
  by_cases same : id = other
  · subst same
    obtain rfl : declared = entry := Option.some.inj (found.symm.trans was)
    simp [relocate, generic, fresh]
  · have differs : entry.name ≠ declared.name := fun equal =>
      same (tidy.eq_of_name global other_global found was equal.symm)
    rw [if_neg same]
    simp only [relocate, Function.update_of_ne differs]

theorem enter_absent {name : String} (relocated : Relocated mode placed before after)
    (absent : ∀ declared ∈ before.generics mode, declared.name ≠ name) :
    Relocated mode (Function.update placed name (some span)) before after := by
  intro other other_global entry was
  rw [relocated other other_global entry was]
  congr 1
  unfold relocate
  split
  · next generic =>
      have differs : entry.name ≠ name := absent entry (List.mem_filter.mpr
        ⟨Shader.mem_declaredVariables.mpr ⟨other, other_global, was⟩, generic⟩)
      rw [Function.update_of_ne differs]
  · rfl

theorem declaredVariables (relocated : Relocated mode placed before after) (tidy : before.Tidy)
    (same : after.globals = before.globals) :
    after.declaredVariables = before.declaredVariables.map (relocate mode placed) :=
  Shader.declaredVariables_of_changed same tidy.bound relocated

end Relocated

/-! ## Both sides -/

section Boundary

variable {inputs : NameTable VariableId} {captured : List String} {limit : Nat} {start : Shader}
  {opposite : Option Shader}

/-- The table gives for a name the generic input of that name, if there is one. -/
structure Indexes (inputs : NameTable VariableId) (opposite : Option Shader) : Prop where
  sound : ∀ {name id}, inputs.get? name = some id → ∃ consumer declared,
    opposite = some consumer ∧ id ∈ consumer.globals ∧ consumer.vars.get? id = some declared ∧
      isGeneric .shaderIn declared = true ∧ declared.name = name
  complete : ∀ {consumer}, opposite = some consumer →
    ∀ declared ∈ consumer.generics .shaderIn, (inputs.get? declared.name).isSome = true

/-- Whether an output is to get slots: it has an input of its name, or it is captured. -/
def Wanted (inputs : NameTable VariableId) (captured : List String) (name : String) : Prop :=
  (inputs.get? name).isSome = true ∨ name ∈ captured

/-- A pair is about an output and the input of its name. -/
structure Pair.About (inputs : NameTable VariableId) (start : Shader) (pair : Pair)
    (output : Variable) : Prop where
  global : pair.output ∈ start.globals
  found : start.vars.get? pair.output = some output
  generic : isGeneric .shaderOut output = true
  input : pair.input = inputs.get? output.name
  slots : pair.slots = output.ty.attributeSlots

/-- How far an allocation has come: the ledger says which names have got spans, and both sides are
relocated by it. -/
structure Progress (inputs : NameTable VariableId) (captured : List String) (limit : Nat)
    (start : Shader) (opposite : Option Shader) (allocation : Allocation)
    (placed : String → Option Span) : Prop where
  ledger : Ledger limit allocation.used placed
  producer : Relocated .shaderOut placed start allocation.producer
  consumer : Option.Rel (Relocated .shaderIn placed) opposite allocation.consumer
  low : ∀ {name span}, placed name = some span → span.base ≤ limit
  origin : ∀ {name span}, placed name = some span → Wanted inputs captured name ∧
    ∃ output ∈ start.generics .shaderOut, output.name = name ∧
      span.count = output.ty.attributeSlots

namespace Progress

variable {allocation : Allocation} {placed : String → Option Span}

/-- Nothing has a span when an allocation begins. -/
theorem initial (start : Shader) (opposite : Option Shader) :
    Progress inputs captured limit start opposite
      { producer := start, consumer := opposite, used := SlotSet.reservedAbove limit }
      fun _ => none where
  ledger := .start limit
  producer := .initial start
  consumer := by
    cases opposite with
    | none => exact .none
    | some consumer => exact .some (.initial consumer)
  low := by simp
  origin := by simp

theorem locate (progress : Progress inputs captured limit start opposite allocation placed)
    (indexes : Indexes inputs opposite) (start_tidy : start.Tidy)
    (opposite_tidy : ∀ consumer, opposite = some consumer → consumer.Tidy)
    {pair : Pair} {output : Variable} (about : pair.About inputs start output)
    (fresh : placed output.name = none) (wanted : Wanted inputs captured output.name)
    {location : Nat} {used : SlotSet} (low : location ≤ limit)
    (ledger : Ledger limit used
      (Function.update placed output.name (some ⟨location, pair.slots⟩))) :
    Progress inputs captured limit start opposite
      (locate { allocation with used := used } pair location)
      (Function.update placed output.name (some ⟨location, pair.slots⟩)) where
  ledger := ledger
  producer := progress.producer.enter start_tidy about.global about.found about.generic fresh
  consumer := by
    simp only [Varying.locate, about.input]
    have sides := progress.consumer
    generalize allocation.consumer = now at sides
    cases found : inputs.get? output.name with
    | none =>
        cases sides with
        | none => exact .none
        | @some consumer relocated related =>
            refine .some (related.enter_absent fun declared listed same => ?_)
            have known := indexes.complete rfl declared listed
            rw [same, found] at known
            cases known
    | some input =>
        obtain ⟨consumer, declared, is_opposite, global, was, generic, named⟩ :=
          indexes.sound found
        have tidy := opposite_tidy consumer is_opposite
        subst is_opposite
        cases sides with
        | some related =>
            rw [← named] at fresh ⊢
            exact .some (related.enter tidy global was generic fresh)
  low := by
    intro name span found
    rcases Ledger.entered found with ⟨-, rfl⟩ | ⟨-, before⟩
    · exact low
    · exact progress.low before
  origin := by
    intro name span found
    rcases Ledger.entered found with ⟨rfl, rfl⟩ | ⟨-, before⟩
    · refine ⟨wanted, output, ?_, rfl, about.slots⟩
      exact List.mem_filter.mpr
        ⟨Shader.mem_declaredVariables.mpr ⟨_, about.global, about.found⟩, about.generic⟩
    · exact progress.origin before

end Progress

/-- The varyings of an allocation that wait for a span: their names have none yet, and no output
waits twice. -/
structure Waiting (inputs : NameTable VariableId) (captured : List String) (start : Shader)
    (placed : String → Option Span) (pending : List Pair) : Prop where
  each : ∀ pair ∈ pending, ∃ output, pair.About inputs start output ∧
    placed output.name = none ∧ Wanted inputs captured output.name
  once : (pending.map (·.output)).Nodup

/-- Entering the name of an output that does not wait leaves those that do. -/
theorem Waiting.enter {placed : String → Option Span} {pending : List Pair} {span : Span}
    {id : VariableId} {output : Variable} (waiting : Waiting inputs captured start placed pending)
    (tidy : start.Tidy) (global : id ∈ start.globals) (found : start.vars.get? id = some output)
    (not_waiting : ∀ pair ∈ pending, pair.output ≠ id) :
    Waiting inputs captured start (Function.update placed output.name (some span)) pending where
  each := by
    intro pair listed
    obtain ⟨other, about, fresh, wanted⟩ := waiting.each pair listed
    have differs : other.name ≠ output.name := fun same =>
      not_waiting pair listed (tidy.eq_of_name about.global global about.found found same)
    exact ⟨other, about, by rw [Function.update_of_ne differs, fresh], wanted⟩
  once := waiting.once

theorem Waiting.push {placed : String → Option Span} {pending : List Pair} {pair : Pair}
    {output : Variable} (waiting : Waiting inputs captured start placed pending)
    (about : pair.About inputs start output) (fresh : placed output.name = none)
    (wanted : Wanted inputs captured output.name)
    (not_waiting : ∀ other ∈ pending, other.output ≠ pair.output) :
    Waiting inputs captured start placed (pending ++ [pair]) where
  each := by
    intro other listed
    rcases List.mem_append.mp listed with old | new
    · exact waiting.each other old
    · obtain rfl := List.mem_singleton.mp new
      exact ⟨output, about, fresh, wanted⟩
  once := by
    rw [List.map_append, List.map_singleton, List.nodup_append]
    refine ⟨waiting.once, by simp, ?_⟩
    intro other listed last in_last same
    obtain ⟨earlier, old, rfl⟩ := List.mem_map.mp listed
    obtain rfl := List.mem_singleton.mp in_last
    exact not_waiting earlier old same

theorem Waiting.perm {placed : String → Option Span} {pending reordered : List Pair}
    (waiting : Waiting inputs captured start placed pending) (order : pending.Perm reordered) :
    Waiting inputs captured start placed reordered where
  each pair listed := waiting.each pair (order.mem_iff.mpr listed)
  once := (order.map _).nodup_iff.mp waiting.once

/-- An output that is wanted has a span or waits for one. -/
def Served (placed : String → Option Span) (pending : List Pair) (id : VariableId)
    (output : Variable) : Prop :=
  (placed output.name).isSome = true ∨ ∃ pair ∈ pending, pair.output = id

/-- The ledger has grown, and whoever had waited waits or has a span. -/
structure Advance (placed later : String → Option Span) (pending rest : List Pair) : Prop where
  keeps : ∀ {name span}, placed name = some span → later name = some span
  waits : ∀ pair ∈ pending, pair ∈ rest

/-- Looking at one output without a failure takes the allocation one step further. -/
theorem claimAll_step (indexes : Indexes inputs opposite) (start_tidy : start.Tidy)
    (opposite_tidy : ∀ consumer, opposite = some consumer → consumer.Tidy)
    {allocation result : Allocation} {placed : String → Option Span} {id : VariableId}
    {ids : List VariableId} {output : Variable}
    (progress : Progress inputs captured limit start opposite allocation placed)
    (waiting : Waiting inputs captured start placed allocation.pending)
    (global : id ∈ start.globals) (found : start.vars.get? id = some output)
    (generic : isGeneric .shaderOut output = true) (fresh : placed output.name = none)
    (not_waiting : ∀ pair ∈ allocation.pending, pair.output ≠ id)
    (runs : claimAll inputs captured limit allocation (id :: ids) = .ok (result, none)) :
    ∃ stepped next, claimAll inputs captured limit stepped ids = .ok (result, none) ∧
      Progress inputs captured limit start opposite stepped next ∧
      Waiting inputs captured start next stepped.pending ∧
      Advance placed next allocation.pending stepped.pending ∧
      (∀ name, name ≠ output.name → next name = placed name) ∧
      (∀ pair ∈ stepped.pending, pair ∈ allocation.pending ∨ pair.output = id) ∧
      (Wanted inputs captured output.name → Served next stepped.pending id output) := by
  rw [claimAll] at runs
  obtain ⟨current, fetched, following⟩ := Checked.bind_eq_ok.mp runs
  have now := Shader.fetchVariable_eq_ok.mp fetched
  rw [progress.producer id global output found, relocate, if_pos generic, fresh] at now
  obtain rfl := Option.some.inj now
  dsimp only at following
  split at following
  · next unwanted =>
      refine ⟨allocation, placed, following, progress, waiting, ⟨fun h => h, fun _ h => h⟩,
        fun _ _ => rfl, fun _ listed => .inl listed, fun wanted => ?_⟩
      simp only [Bool.and_eq_true, Option.isNone_iff_eq_none, Bool.not_eq_true'] at unwanted
      rcases wanted with has_input | is_captured
      · simp [unwanted.1] at has_input
      · simp [is_captured] at unwanted
  · next wanting =>
      have wanted : Wanted inputs captured output.name := by
        unfold Wanted
        by_cases has_input : (inputs.get? output.name).isSome
        · exact .inl has_input
        · have no_input : inputs.get? output.name = none := by simpa using has_input
          refine .inr ?_
          simpa [no_input] using wanting
      let pair : Pair := ⟨id, inputs.get? output.name, output.ty.attributeSlots⟩
      have about : pair.About inputs start output := ⟨global, found, generic, rfl, rfl⟩
      split at following
      · refine ⟨_, placed, following, ⟨progress.ledger, progress.producer, progress.consumer,
          progress.low, progress.origin⟩, waiting.push about fresh wanted not_waiting,
          ⟨fun h => h, fun _ listed => List.mem_append_left _ listed⟩, fun _ _ => rfl, ?_,
          fun _ => .inr ⟨pair, List.mem_append_right _ (List.mem_singleton.mpr rfl), rfl⟩⟩
        intro other listed
        rcases List.mem_append.mp listed with old | new
        · exact .inl old
        · obtain rfl := List.mem_singleton.mp new
          exact .inr rfl
      · next location asked =>
          split at following
          · simp at following
          · next low =>
              split at following
              · simp at following
              · next used claimed =>
                  refine ⟨_, _, following, progress.locate indexes start_tidy opposite_tidy about
                    fresh wanted (Nat.le_of_not_le low) (progress.ledger.claim _ claimed),
                    waiting.enter start_tidy global found not_waiting, ⟨?_, fun _ listed => listed⟩,
                    fun name differs => Function.update_of_ne differs ..,
                    fun _ listed => .inl listed, fun _ => .inl (by simp)⟩
                  intro name span before
                  rw [Function.update_of_ne (fun same => by simp [same, fresh] at before)]
                  exact before

theorem Served.advance {placed later : String → Option Span} {pending rest : List Pair}
    {id : VariableId} {output : Variable} (served : Served placed pending id output)
    (advance : Advance placed later pending rest) : Served later rest id output := by
  rcases served with has_span | ⟨pair, listed, same⟩
  · obtain ⟨span, entry⟩ := Option.isSome_iff_exists.mp has_span
    exact .inl (by simp [advance.keeps entry])
  · exact .inr ⟨pair, advance.waits pair listed, same⟩

/-- Going through outputs without a failure serves those of them that are wanted. -/
theorem claimAll_progress (indexes : Indexes inputs opposite) (start_tidy : start.Tidy)
    (opposite_tidy : ∀ consumer, opposite = some consumer → consumer.Tidy)
    {ids : List VariableId} :
    ∀ {allocation result : Allocation} {placed : String → Option Span},
      Progress inputs captured limit start opposite allocation placed →
      Waiting inputs captured start placed allocation.pending → ids.Nodup →
      (∀ id ∈ ids, id ∈ start.globals ∧ ∃ output, start.vars.get? id = some output ∧
        isGeneric .shaderOut output = true ∧ placed output.name = none) →
      (∀ pair ∈ allocation.pending, pair.output ∉ ids) →
      claimAll inputs captured limit allocation ids = .ok (result, none) →
      ∃ final, Progress inputs captured limit start opposite result final ∧
        Waiting inputs captured start final result.pending ∧
        Advance placed final allocation.pending result.pending ∧
        ∀ id ∈ ids, ∀ output, start.vars.get? id = some output →
          Wanted inputs captured output.name → Served final result.pending id output := by
  induction ids with
  | nil =>
      intro allocation result placed progress waiting _ _ _ runs
      obtain rfl : allocation = result := by simpa [claimAll] using runs
      exact ⟨placed, progress, waiting, ⟨fun h => h, fun _ h => h⟩, by simp⟩
  | cons id ids ih =>
      intro allocation result placed progress waiting nodup fresh not_waiting runs
      obtain ⟨not_later, nodup_later⟩ := List.nodup_cons.mp nodup
      obtain ⟨global, output, found, generic, no_span⟩ := fresh id (List.mem_cons_self ..)
      obtain ⟨stepped, next, following, stepped_progress, stepped_waiting, advance, same_names,
        new_waiting, served⟩ := claimAll_step indexes start_tidy opposite_tidy progress waiting
          global found generic no_span
          (fun pair listed same => not_waiting pair listed (same ▸ List.mem_cons_self ..)) runs
      have later_fresh : ∀ other ∈ ids, other ∈ start.globals ∧
          ∃ output, start.vars.get? other = some output ∧
            isGeneric .shaderOut output = true ∧ next output.name = none := by
        intro other later
        obtain ⟨other_global, entry, was, entry_generic, empty⟩ :=
          fresh other (List.mem_cons_of_mem id later)
        refine ⟨other_global, entry, was, entry_generic, ?_⟩
        rw [same_names entry.name fun same => not_later
          (start_tidy.eq_of_name other_global global was found same ▸ later)]
        exact empty
      have later_waiting : ∀ pair ∈ stepped.pending, pair.output ∉ ids := by
        intro pair listed later
        rcases new_waiting pair listed with old | new
        · exact not_waiting pair old (List.mem_cons_of_mem id later)
        · exact not_later (new ▸ later)
      obtain ⟨final, final_progress, final_waiting, final_advance, all_served⟩ :=
        ih stepped_progress stepped_waiting nodup_later later_fresh later_waiting following
      refine ⟨final, final_progress, final_waiting,
        ⟨fun entry => final_advance.keeps (advance.keeps entry),
          fun pair listed => final_advance.waits pair (advance.waits pair listed)⟩, ?_⟩
      intro other listed entry was wanted
      rcases List.mem_cons.mp listed with rfl | later
      · obtain rfl : output = entry := Option.some.inj (found.symm.trans was)
        exact (served wanted).advance final_advance
      · exact all_served other later entry was wanted

/-- Placing the waiting varyings without a failure gives each of them a span. -/
theorem placeAll_progress (indexes : Indexes inputs opposite) (start_tidy : start.Tidy)
    (opposite_tidy : ∀ consumer, opposite = some consumer → consumer.Tidy) {pairs : List Pair} :
    ∀ {allocation result : Allocation} {placed : String → Option Span},
      Progress inputs captured limit start opposite allocation placed →
      Waiting inputs captured start placed pairs →
      placeAll allocation pairs = (result, none) →
      ∃ final, Progress inputs captured limit start opposite result final ∧
        (∀ name span, placed name = some span → final name = some span) ∧
        ∀ pair ∈ pairs, ∀ output, pair.About inputs start output →
          (final output.name).isSome = true := by
  induction pairs with
  | nil =>
      intro allocation result placed progress _ runs
      obtain rfl : allocation = result := by simpa [placeAll] using runs
      exact ⟨placed, progress, fun _ _ entry => entry, by simp⟩
  | cons pair pairs ih =>
      intro allocation result placed progress waiting runs
      obtain ⟨output, about, fresh, wanted⟩ := waiting.each pair (List.mem_cons_self ..)
      obtain ⟨not_later, nodup_later⟩ := List.nodup_cons.mp waiting.once
      rw [placeAll] at runs
      split at runs
      · simp at runs
      · next location found =>
          have low : location ≤ limit := by
            have entered := progress.ledger.place output.name found
            have ends := entered.within (Function.update_self output.name _ _)
              (SlotSet.findFree?_eq_some found).1
            simp only at ends
            omega
          have rest : Waiting inputs captured start placed pairs :=
            ⟨fun other later => waiting.each other (List.mem_cons_of_mem pair later), nodup_later⟩
          obtain ⟨final, final_progress, keeps, all_placed⟩ := ih
            (progress.locate indexes start_tidy opposite_tidy about fresh wanted low
              (progress.ledger.place _ found))
            (rest.enter start_tidy about.global about.found fun other later same =>
              not_later (List.mem_map.mpr ⟨other, later, same⟩)) runs
          refine ⟨final, final_progress, fun name span before => keeps name span ?_, ?_⟩
          · rw [Function.update_of_ne (fun same => by simp [same, fresh] at before)]
            exact before
          · intro other listed entry entry_about
            rcases List.mem_cons.mp listed with rfl | later
            · obtain rfl : output = entry :=
                Option.some.inj (about.found.symm.trans entry_about.found)
              rw [keeps _ _ (Function.update_self ..)]
              rfl
            · exact all_placed other later entry entry_about

/-- The table of an allocation has the generic inputs of the opposite side. -/
theorem indexes_ofList {pairs : List (VariableId × Variable)}
    (listed : oppositeInputs opposite = .ok pairs) :
    Indexes (NameTable.ofList (pairs.map fun pair => (pair.2.name, pair.1))) opposite := by
  cases opposite with
  | none =>
      obtain rfl : [] = pairs := by simpa [oppositeInputs] using listed
      refine ⟨fun found => ?_, fun absurd => by cases absurd⟩
      have in_list := NameTable.mem_of_get?_ofList found
      simp at in_list
  | some consumer =>
      obtain ⟨-, characterized⟩ := genericGlobals_eq_ok listed
      refine ⟨?_, ?_⟩
      · intro name id found
        obtain ⟨pair, in_pairs, equal⟩ := List.mem_map.mp (NameTable.mem_of_get?_ofList found)
        obtain ⟨rfl, rfl⟩ := Prod.mk.inj equal
        obtain ⟨global, was, generic⟩ := (characterized pair.1 pair.2).mp in_pairs
        exact ⟨consumer, pair.2, rfl, global, was, generic, rfl⟩
      · intro other is_opposite declared in_generics
        obtain rfl := Option.some.inj is_opposite
        obtain ⟨declared_here, generic⟩ := List.mem_filter.mp in_generics
        obtain ⟨id, global, was⟩ := Shader.mem_declaredVariables.mp declared_here
        exact @NameTable.isSome_get?_ofList _ _ _ id
          (List.mem_map.mpr ⟨(id, declared), (characterized id declared).mpr
            ⟨global, was, generic⟩, rfl⟩)

def inputNames (opposite : Option Shader) : List String :=
  (Shader.side .shaderIn opposite).map (·.name)

theorem wanted_iff (indexes : Indexes inputs opposite) {name : String} :
    Wanted inputs captured name ↔ name ∈ inputNames opposite ∨ name ∈ captured := by
  unfold Wanted
  refine or_congr ⟨fun known => ?_, fun listed => ?_⟩ Iff.rfl
  · obtain ⟨id, found⟩ := Option.isSome_iff_exists.mp known
    obtain ⟨consumer, declared, rfl, global, was, generic, rfl⟩ := indexes.sound found
    refine List.mem_map_of_mem (List.mem_flatMap.mpr ⟨consumer, by simp, ?_⟩)
    exact List.mem_filter.mpr
      ⟨Shader.mem_declaredVariables.mpr ⟨id, global, was⟩, generic⟩
  · obtain ⟨declared, in_generics, rfl⟩ := List.mem_map.mp listed
    obtain ⟨consumer, here, in_generics⟩ := List.mem_flatMap.mp in_generics
    exact indexes.complete (by simpa using here) declared in_generics

/-- An allocation without a failure is described by a ledger of names: exactly the outputs that have
an input or are captured have spans, and both sides are relocated by the ledger. -/
theorem allocate_ledger {result : Allocation} (start_tidy : start.Tidy)
    (opposite_tidy : ∀ consumer, opposite = some consumer → consumer.Tidy)
    (runs : allocate captured limit start opposite = .ok (result, none)) :
    ∃ (used : SlotSet) (placed : String → Option Span), Ledger limit used placed ∧
      Relocated .shaderOut placed start result.producer ∧
      Option.Rel (Relocated .shaderIn placed) opposite result.consumer ∧
      (∀ name span, placed name = some span → span.base ≤ limit ∧
        (name ∈ inputNames opposite ∨ name ∈ captured) ∧
        ∃ output ∈ start.generics .shaderOut, output.name = name ∧
          span.count = output.ty.attributeSlots) ∧
      ∀ output ∈ start.generics .shaderOut,
        output.name ∈ inputNames opposite ∨ output.name ∈ captured →
        (placed output.name).isSome = true := by
  obtain ⟨inputs, outputs, claimed, problem, inputs_listed, outputs_listed, claims, following⟩ :=
    allocate_eq_ok runs
  have indexes := indexes_ofList inputs_listed
  obtain ⟨in_order, listed⟩ := genericGlobals_eq_ok outputs_listed
  have no_problem : problem = none := by
    split at following
    · exact following.2
    · next fine => simpa using fine
  subst no_problem
  rw [if_neg (by simp)] at following
  have fresh : ∀ id ∈ outputs.map (·.1), id ∈ start.globals ∧
      ∃ output, start.vars.get? id = some output ∧ isGeneric .shaderOut output = true ∧
        (fun _ => none : String → Option Span) output.name = none := by
    intro id in_outputs
    obtain ⟨pair, in_pairs, rfl⟩ := List.mem_map.mp in_outputs
    obtain ⟨global, found, generic⟩ := (listed pair.1 pair.2).mp in_pairs
    exact ⟨global, pair.2, found, generic, rfl⟩
  obtain ⟨first, progress, waiting, -, served⟩ := claimAll_progress indexes start_tidy
    opposite_tidy (.initial start opposite) ⟨by simp, by simp⟩
    (in_order.nodup start_tidy.nodup_globals) fresh (by simp) claims
  have order := largestFirst_perm (·.slots) claimed.pending
  obtain ⟨final, final_progress, keeps, all_placed⟩ := placeAll_progress indexes start_tidy
    opposite_tidy progress (waiting.perm order.symm) following
  refine ⟨_, final, final_progress.ledger, final_progress.producer, final_progress.consumer,
    fun name span entry => ?_, fun output in_generics wanted => ?_⟩
  · obtain ⟨wanted, origin⟩ := final_progress.origin entry
    exact ⟨final_progress.low entry, (wanted_iff indexes).mp wanted, origin⟩
  · obtain ⟨declared_here, generic⟩ := List.mem_filter.mp in_generics
    obtain ⟨id, global, found⟩ := Shader.mem_declaredVariables.mp declared_here
    have in_outputs : id ∈ outputs.map (·.1) :=
      List.mem_map.mpr ⟨(id, output), (listed id output).mpr ⟨global, found, generic⟩, rfl⟩
    rcases served id in_outputs output found ((wanted_iff indexes).mpr wanted) with
      has_span | ⟨pair, in_pending, rfl⟩
    · obtain ⟨span, entry⟩ := Option.isSome_iff_exists.mp has_span
      simp [keeps _ _ entry]
    · obtain ⟨other, about, -, -⟩ := waiting.each pair in_pending
      obtain rfl : output = other := Option.some.inj (found.symm.trans about.found)
      exact all_placed pair (order.mem_iff.mpr in_pending) output about

end Boundary

end Varying
end StageLink
