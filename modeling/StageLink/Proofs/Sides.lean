import StageLink.Proofs.Passes
import StageLink.Proofs.Varyings

/-!
# Sides of boundaries

What a boundary between two stages sees of them are the generic outputs of the one and the generic
inputs of the other.  The check of a boundary makes those of one name match in everything but their
place, and the phases that follow only change places, turn unmatched variables into ordinary globals
and drop dead ones.
-/

namespace StageLink

namespace Boundary

/-- An output and an input that agree in everything but their place. -/
structure Matches (consumer : Stage) (output input : Variable) : Prop where
  ty : perVertex consumer input.ty = output.ty
  centroid : input.centroid = output.centroid
  invariant : input.invariant = output.invariant
  interpolation : input.interpolation = output.interpolation

theorem Matches.moved {consumer : Stage} {output input output' input' : Variable}
    (match_here : Matches consumer output input) (same : output.SameButPlace output')
    (same_input : input.SameButPlace input') : Matches consumer output' input' := by
  rw [same, same_input]
  exact ⟨match_here.ty, match_here.centroid, match_here.invariant, match_here.interpolation⟩

/-- Outputs and inputs of one name match. -/
def AllMatch (consumer : Stage) (outputs inputs : List Variable) : Prop :=
  ∀ output ∈ outputs, ∀ input ∈ inputs, output.name = input.name → Matches consumer output input

theorem disagreement?_eq_none {producer consumer : Stage} {output input : Variable}
    (generic : output.isBuiltin = false)
    (agree : disagreement? producer consumer output input = none) :
    Matches consumer output input := by
  unfold disagreement? at agree
  dsimp only at agree
  split at agree
  · cases agree
  · next same_type =>
      split at agree
      · cases agree
      · next same_centroid =>
          split at agree
          · cases agree
          · next same_invariant =>
              split at agree
              · cases agree
              · next same_interpolation =>
                  refine ⟨?_, ?_, ?_, ?_⟩
                  · simpa [areBuiltinArrays, generic] using same_type
                  · simpa using same_centroid
                  · simpa using same_invariant
                  · simpa using same_interpolation

theorem declared_eq_of_mapM {shader : Shader} {declared : List Variable}
    (grants : Judged.Grants (shader.globals.mapM fun id => monadLift (shader.fetchVariable id))
      declared) : declared = shader.declaredVariables := by
  have found := Judged.grants_mapM.mp grants
  rw [Shader.declaredVariables]
  clear grants
  generalize shader.globals = ids at found
  induction found with
  | nil => rfl
  | cons fetched _ ih =>
      have was := Shader.fetchVariable_eq_ok.mp (Judged.grants_monadLift.mp fetched)
      rw [List.filterMap_cons_some was, ih]

/-- After a boundary has been checked, its sides match. -/
theorem check_grants {producer consumer : Shader} (tidy : producer.Tidy)
    (grants : (check producer consumer).Grants ()) :
    AllMatch consumer.stage (producer.generics .shaderOut) (consumer.generics .shaderIn) := by
  obtain ⟨outputs, lists_outputs, following⟩ := Judged.grants_bind.mp grants
  obtain ⟨inputs, lists_inputs, no_errors⟩ := Judged.grants_bind.mp following
  obtain rfl := declared_eq_of_mapM lists_outputs
  obtain rfl := declared_eq_of_mapM lists_inputs
  have none_disagree := Judged.grants_rejectAll.mp no_errors
  intro output output_side input input_side same
  obtain ⟨output_declared, output_mode, output_generic⟩ := Shader.mem_generics.mp output_side
  obtain ⟨input_declared, input_mode, -⟩ := Shader.mem_generics.mp input_side
  obtain ⟨found, known⟩ : ∃ found,
      (Boundary.outputs producer.declaredVariables).get? input.name = some found := by
    refine Option.isSome_iff_exists.mp (@NameTable.isSome_get?_ofList _ _ _ output ?_)
    refine List.mem_map.mpr ⟨output, List.mem_filter.mpr ⟨output_declared, by simpa⟩, ?_⟩
    rw [same]
  obtain ⟨other, other_listed, equal⟩ := List.mem_map.mp (NameTable.mem_of_get?_ofList known)
  obtain ⟨named, rfl⟩ := Prod.mk.inj equal
  obtain rfl : output = other :=
    tidy.declared_eq_of_name output_declared (List.mem_filter.mp other_listed).1
      (same.trans named.symm)
  by_contra mismatch
  have disagree : disagreement? producer.stage consumer.stage output input ≠ none :=
    fun agree => mismatch (disagreement?_eq_none output_generic agree)
  obtain ⟨cause, disagrees⟩ := Option.ne_none_iff_exists'.mp disagree
  have listed : cause ∈ disagreements producer.stage consumer.stage
      (Boundary.outputs producer.declaredVariables) consumer.declaredVariables :=
    List.mem_filterMap.mpr ⟨input, List.mem_filter.mpr ⟨input_declared, by simpa⟩,
      by rw [known]; exact disagrees⟩
  rw [none_disagree] at listed
  cases listed

end Boundary
/-! ## Changes of single sides -/

namespace Shader

variable {mode other : VariableMode} {placed : String → Option Span}

/-- A change that leaves alone what is generic changes the generics one by one. -/
theorem generics_of_map {before after : Shader} {change : Variable → Variable}
    (declared : after.declaredVariables = before.declaredVariables.map change)
    (keeps : ∀ entry, Varying.isGeneric mode (change entry) = Varying.isGeneric mode entry) :
    after.generics mode = (before.generics mode).map change := by
  rw [generics, generics, declared, List.filter_map]
  congr 1
  exact List.filter_congr fun entry _ => keeps entry

theorem generics_relocated {before after : Shader} (tidy : before.Tidy)
    (same : after.globals = before.globals)
    (relocated : Varying.Relocated mode placed before after) :
    after.generics mode = (before.generics mode).map (Varying.relocate mode placed) :=
  generics_of_map (relocated.declaredVariables tidy same) fun entry =>
    (Varying.sameButPlace_relocate entry).isGeneric mode

/-- Relocating one side leaves the others alone. -/
theorem generics_relocated_other {before after : Shader} (tidy : before.Tidy)
    (same : after.globals = before.globals)
    (relocated : Varying.Relocated mode placed before after) (different : other ≠ mode) :
    after.generics other = before.generics other := by
  rw [generics_of_map (relocated.declaredVariables tidy same) fun entry =>
    (Varying.sameButPlace_relocate entry).isGeneric other]
  have untouched : ∀ entry ∈ before.generics other, Varying.relocate mode placed entry = entry := by
    intro entry listed
    obtain ⟨-, of_other, -⟩ := mem_generics.mp listed
    have not_generic : Varying.isGeneric mode entry = false := by
      simp [Varying.isGeneric, of_other, different]
    simp [Varying.relocate, not_generic]
  rw [List.map_congr_left untouched, List.map_id']

theorem mem_generics_demoted {before after : Shader} (tidy : before.Tidy)
    (is_interface : other.isInterface = true)
    (runs : before.modifyGlobals (Varying.demote mode) = .ok after) {declared : Variable}
    (listed : declared ∈ after.generics other) :
    declared ∈ before.generics other ∧ (other = mode → declared.unmatched = false) := by
  rw [generics, declaredVariables_modifyGlobals tidy runs] at listed
  obtain ⟨in_map, generic⟩ := List.mem_filter.mp listed
  obtain ⟨origin, was, rfl⟩ := List.mem_map.mp in_map
  unfold Varying.demote at generic ⊢
  split at generic
  · next demoted =>
      rw [Varying.isGeneric] at generic
      cases is_plain : other with
      | plain => rw [is_plain] at is_interface; cases is_interface
      | _ => simp [is_plain] at generic
  · next kept =>
      rw [if_neg kept]
      refine ⟨List.mem_filter.mpr ⟨was, generic⟩, ?_⟩
      rintro rfl
      have of_mode : origin.mode = other := by
        simp only [Varying.isGeneric, Bool.and_eq_true, decide_eq_true_eq] at generic
        exact generic.1
      simpa [of_mode] using kept

theorem generics_invalidated {before after : Shader} (tidy : before.Tidy)
    (runs : before.modifyGlobals Varying.invalidate = .ok after) :
    after.generics mode = (before.generics mode).map Varying.invalidate := by
  refine generics_of_map (declaredVariables_modifyGlobals tidy runs) fun entry => ?_
  unfold Varying.invalidate
  split
  · rfl
  · split <;> rfl

end Shader
/-! ## Placements -/

/-- The variable has an explicit location or has yet to find its counterpart. -/
def Variable.Open (declared : Variable) : Prop :=
  declared.explicitLocation = true ∨ declared.unmatched = true

namespace Varying

/-- Spans that names have been given lie apart and end within the limit. -/
structure Placement (limit : Nat) (placed : String → Option Span) : Prop where
  apart : ∀ {one other span another}, one ≠ other → placed one = some span →
    placed other = some another → span.Apart another
  within : ∀ {name span}, placed name = some span → span.base + span.count ≤ limit

/-- Every variable of a side is where its name has been placed, or has an explicit location. -/
structure Follows (holds : Variable → Prop) (placed : String → Option Span) (seen : Ty → Ty)
    (side : List Variable) : Prop where
  there : ∀ declared ∈ side, ∀ span, placed declared.name = some span →
    declared.span? seen = some span
  others : ∀ declared ∈ side, placed declared.name = none →
    declared.explicitLocation = true ∧ holds declared

theorem Follows.mono {holds : Variable → Prop} {placed : String → Option Span} {seen : Ty → Ty}
    {side fewer : List Variable} (follows : Follows holds placed seen side) (among : fewer ⊆ side) :
    Follows holds placed seen fewer :=
  ⟨fun declared listed => follows.there declared (among listed),
    fun declared listed => follows.others declared (among listed)⟩

/-- The sides of a boundary behind which a stage comes follow one placement, which has a span for
every output that is an input, too, or is captured. -/
def Bounded (holds : Variable → Prop) (limit : Nat) (captured : List String) (seen : Ty → Ty)
    (outputs inputs : List Variable) : Prop :=
  ∃ placed, Placement limit placed ∧ Follows holds placed (fun ty => ty) outputs ∧
    Follows holds placed seen inputs ∧
    ∀ output ∈ outputs, (∃ input ∈ inputs, input.name = output.name) ∨ output.name ∈ captured →
      (placed output.name).isSome = true

theorem Bounded.mono {holds : Variable → Prop} {limit : Nat} {captured : List String}
    {seen : Ty → Ty} {outputs inputs fewer_outputs fewer_inputs : List Variable}
    (bounded : Bounded holds limit captured seen outputs inputs)
    (among_outputs : fewer_outputs ⊆ outputs) (among_inputs : fewer_inputs ⊆ inputs) :
    Bounded holds limit captured seen fewer_outputs fewer_inputs := by
  obtain ⟨placed, placement, follow_outputs, follow_inputs, served⟩ := bounded
  refine ⟨placed, placement, follow_outputs.mono among_outputs, follow_inputs.mono among_inputs,
    fun output listed wanted => served output (among_outputs listed) ?_⟩
  rcases wanted with ⟨input, in_inputs, named⟩ | in_captured
  · exact .inl ⟨input, among_inputs in_inputs, named⟩
  · exact .inr in_captured

theorem relocate_name (mode : VariableMode) (placed : String → Option Span) (declared : Variable) :
    (relocate mode placed declared).name = declared.name :=
  (sameButPlace_relocate declared).name

theorem relocate_of_placed {mode : VariableMode} {placed : String → Option Span}
    {declared : Variable} {span : Span} (generic : isGeneric mode declared = true)
    (entry : placed declared.name = some span) :
    relocate mode placed declared = settle span.base declared := by
  simp [relocate, generic, entry]

theorem relocate_of_unplaced {mode : VariableMode} {placed : String → Option Span}
    {declared : Variable} (none_given : placed declared.name = none) :
    relocate mode placed declared = declared := by
  simp [relocate, none_given]

/-- What is left of a relocated side when the unmatched variables have gone follows the
placement. -/
theorem follows_relocated {holds : Variable → Prop} {mode : VariableMode}
    {placed : String → Option Span} {seen : Ty → Ty} {side rest : List Variable}
    (of_mode : ∀ declared ∈ side, isGeneric mode declared = true)
    (is_open : ∀ declared ∈ side, declared.Open ∧ holds declared)
    (slots : ∀ declared ∈ side, ∀ span, placed declared.name = some span →
      span.count = (seen declared.ty).attributeSlots)
    (left : ∀ declared ∈ rest, declared ∈ side.map (relocate mode placed) ∧
      declared.unmatched = false) : Follows holds placed seen rest := by
  constructor
  · intro declared listed span entry
    obtain ⟨origin, was, rfl⟩ := List.mem_map.mp (left declared listed).1
    rw [relocate_name] at entry
    rw [relocate_of_placed (of_mode origin was) entry]
    simp [settle, Variable.span?, ← slots origin was span entry]
  · intro declared listed unplaced
    obtain ⟨in_map, matched⟩ := left declared listed
    obtain ⟨origin, was, rfl⟩ := List.mem_map.mp in_map
    rw [relocate_name] at unplaced
    rw [relocate_of_unplaced unplaced] at matched ⊢
    obtain ⟨explicit | unmatched, held⟩ := is_open origin was
    · exact ⟨explicit, held⟩
    · rw [matched] at unmatched
      cases unmatched

/-- An allocation without a failure settles its boundary: when the unmatched variables have gone,
both sides follow one placement. -/
theorem allocate_bounded {holds : Variable → Prop} {captured : List String} {limit : Nat}
    {producer : Shader} {opposite : Option Shader} {stage : Stage} {result : Allocation}
    (producer_tidy : producer.Tidy)
    (opposite_tidy : ∀ consumer, opposite = some consumer → consumer.Tidy)
    (outputs_open : ∀ output ∈ producer.generics .shaderOut, output.Open ∧ holds output)
    (inputs_open : ∀ input ∈ Shader.side .shaderIn opposite, input.Open ∧ holds input)
    (all_match : Boundary.AllMatch stage (producer.generics .shaderOut)
      (Shader.side .shaderIn opposite))
    (runs : allocate captured limit producer opposite = .ok (result, none))
    {outputs inputs : List Variable}
    (outputs_left : ∀ output ∈ outputs, output ∈ result.producer.generics .shaderOut ∧
      output.unmatched = false)
    (inputs_left : ∀ input ∈ inputs, input ∈ Shader.side .shaderIn result.consumer ∧
      input.unmatched = false) :
    Bounded holds limit captured (Boundary.perVertex stage) outputs inputs := by
  obtain ⟨producer_revised, consumer_revised⟩ := allocate_sameSides runs
  obtain ⟨used, placed, ledger, moved, consumer_moved, about, served⟩ :=
    allocate_ledger producer_tidy opposite_tidy runs
  have inputs_moved : Shader.side .shaderIn result.consumer =
      (Shader.side .shaderIn opposite).map (relocate .shaderIn placed) := by
    revert consumer_revised consumer_moved
    generalize result.consumer = after
    rintro (revised | _) (inputs_relocated | _)
    · simpa [Shader.side] using
        Shader.generics_relocated (opposite_tidy _ rfl) revised.globals inputs_relocated
    · rfl
  have generic : ∀ {mode executable}, ∀ declared ∈ Shader.side mode executable,
      isGeneric mode declared = true := by
    intro mode executable declared listed
    obtain ⟨shader, -, in_generics⟩ := Shader.mem_side.mp listed
    exact (List.mem_filter.mp in_generics).2
  rw [inputs_moved] at inputs_left
  rw [Shader.generics_relocated producer_tidy producer_revised.globals moved] at outputs_left
  refine ⟨placed, ⟨ledger.apart, fun {name span} entry => ?_⟩,
    follows_relocated (fun output listed => (List.mem_filter.mp listed).2) outputs_open
      (fun output listed span entry => ?_) outputs_left,
    follows_relocated generic inputs_open (fun input listed span entry => ?_) inputs_left,
    fun output listed wanted => ?_⟩
  · obtain ⟨low, -, -⟩ := about name span entry
    rcases Nat.eq_zero_or_pos span.count with empty | some_slots
    · omega
    · exact ledger.within entry some_slots
  · obtain ⟨-, -, other, other_listed, named, slots⟩ := about _ span entry
    obtain rfl := producer_tidy.declared_eq_of_name (Shader.mem_generics.mp other_listed).1
      (Shader.mem_generics.mp listed).1 named
    exact slots
  · obtain ⟨-, -, output, output_listed, named, slots⟩ := about _ span entry
    rw [(all_match output output_listed input listed named).ty]
    exact slots
  · obtain ⟨origin, was, rfl⟩ := List.mem_map.mp (outputs_left output listed).1
    rw [relocate_name] at wanted ⊢
    refine served origin was ?_
    rcases wanted with ⟨input, in_inputs, named⟩ | in_captured
    · obtain ⟨other, other_was, rfl⟩ := List.mem_map.mp (inputs_left input in_inputs).1
      rw [relocate_name] at named
      exact .inl (named ▸ List.mem_map_of_mem other_was)
    · exact .inr in_captured

/-- An allocation without a failure leaves alone the variables of other modes on both sides. -/
theorem allocate_others {captured : List String} {limit : Nat} {producer : Shader}
    {opposite : Option Shader} {result : Allocation} (producer_tidy : producer.Tidy)
    (opposite_tidy : ∀ consumer, opposite = some consumer → consumer.Tidy)
    (runs : allocate captured limit producer opposite = .ok (result, none)) (mode : VariableMode) :
    (mode ≠ .shaderOut → result.producer.generics mode = producer.generics mode) ∧
      (mode ≠ .shaderIn → Shader.side mode result.consumer = Shader.side mode opposite) := by
  obtain ⟨producer_revised, consumer_revised⟩ := allocate_sameSides runs
  obtain ⟨used, placed, -, moved, consumer_moved, -, -⟩ :=
    allocate_ledger producer_tidy opposite_tidy runs
  refine ⟨Shader.generics_relocated_other producer_tidy producer_revised.globals moved,
    fun different => ?_⟩
  revert consumer_revised consumer_moved
  generalize result.consumer = after
  rintro (revised | _) (inputs_relocated | _)
  · simpa [Shader.side] using Shader.generics_relocated_other (opposite_tidy _ rfl) revised.globals
      inputs_relocated different
  · rfl

end Varying
end StageLink
