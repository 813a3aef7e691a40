import StageLink.Proofs.Delivery

/-!
# Slots of a linked program

In the executables of a link without errors, every input and output has a location, the two sides of
a varying have the same one, and varyings have no slot in common.  An output with an explicit
location that no later stage reads and that is not captured is the exception: no slot has been
reserved for it, so another varying may have been placed there.
-/

namespace StageLink
namespace Linking

variable {executables : Executables} {holds : Variable → Prop}

/-! ## Sides of a pipeline -/

/-- The type that slots are counted for: that of one vertex for the inputs of a geometry stage. -/
def slotType (stage : Stage) (mode : VariableMode) (ty : Ty) : Ty :=
  if mode = .shaderIn then Boundary.perVertex stage ty else ty

theorem slotType_input (stage : Stage) : slotType stage .shaderIn = Boundary.perVertex stage := rfl

theorem perVertex_of_other {stage : Stage} (other : stage ≠ .geometry) :
    Boundary.perVertex stage = fun ty => ty := by
  funext ty
  exact if_neg other

/-- The outputs of the stage are those that can be captured. -/
def Captured (executables : Executables) (stage : Stage) : Prop :=
  stage ≠ .fragment ∧ ((stagesOf executables).getLast? = some stage ∨
    (stage, .fragment) ∈ neighbours (stagesOf executables))

/-- The allocation reserves slots for the variable: it is an attribute, has no explicit location,
has a counterpart across the boundary, or is captured. -/
inductive Reserved (names : List String) (executables : Executables) :
    Stage → VariableMode → Variable → Prop
  | vertexInput {declared} : Reserved names executables .vertex .shaderIn declared
  | fragmentOutput {declared} : Reserved names executables .fragment .shaderOut declared
  | automatic {stage mode declared} :
      declared.explicitLocation = false → Reserved names executables stage mode declared
  | read {stage next declared input} : (stage, next) ∈ neighbours (stagesOf executables) →
      input ∈ Shader.side .shaderIn (executables.get next) → input.name = declared.name →
      Reserved names executables stage .shaderOut declared
  | written {stage previous declared output} :
      (previous, stage) ∈ neighbours (stagesOf executables) →
      output ∈ Shader.side .shaderOut (executables.get previous) → output.name = declared.name →
      Reserved names executables stage .shaderIn declared
  | captured {stage declared} : Captured executables stage → declared.name ∈ names →
      Reserved names executables stage .shaderOut declared

theorem last_or_neighbour (there : PerStage Bool) : ∀ stage ∈ stagesWith there,
    (stagesWith there).getLast? = some stage ∨
      ∃ pair ∈ neighbours (stagesWith there), pair.1 = stage := by
  obtain ⟨vertex, geometry, fragment⟩ := there
  revert vertex geometry fragment
  decide

theorem first_or_neighbour (there : PerStage Bool) : ∀ stage ∈ stagesWith there,
    (stagesWith there).head? = some stage ∨
      ∃ pair ∈ neighbours (stagesWith there), pair.2 = stage := by
  obtain ⟨vertex, geometry, fragment⟩ := there
  revert vertex geometry fragment
  decide

theorem neighbour_unique (there : PerStage Bool) : ∀ pair ∈ neighbours (stagesWith there),
    ∀ other ∈ neighbours (stagesWith there), pair.1 = other.1 ∨ pair.2 = other.2 →
      pair = other := by
  obtain ⟨vertex, geometry, fragment⟩ := there
  revert vertex geometry fragment
  decide

theorem geometry_not_first (there : PerStage Bool) :
    (stagesWith there).head? = some .geometry →
      there.get .geometry = true ∧ there.get .vertex = false := by
  obtain ⟨vertex, geometry, fragment⟩ := there
  revert vertex geometry fragment
  decide

/-- A side follows a placement that has all reserved names. -/
def Laid (holds : Variable → Prop) (limit : Nat) (names : List String) (executables : Executables)
    (stage : Stage) (mode : VariableMode) : Prop :=
  ∃ placed, Varying.Placement limit placed ∧
    Varying.Follows holds placed (slotType stage mode)
      (Shader.side mode (executables.get stage)) ∧
    ∀ declared ∈ Shader.side mode (executables.get stage),
      Reserved names executables stage mode declared → (placed declared.name).isSome = true

theorem known_neighbours {pair : Stage × Stage}
    (listed : pair ∈ neighbours (stagesOf executables)) :
    Neighbours (stagesOf executables) pair := by
  rw [stagesOf_eq] at listed ⊢
  exact neighbours_of_mem _ pair listed

theorem same_neighbours {pair other : Stage × Stage}
    (listed : pair ∈ neighbours (stagesOf executables))
    (other_listed : other ∈ neighbours (stagesOf executables))
    (shared : pair.1 = other.1 ∨ pair.2 = other.2) : pair = other := by
  rw [stagesOf_eq] at listed other_listed
  exact neighbour_unique _ pair listed other other_listed shared

theorem placed_of_automatic {placed : String → Option Span} {seen : Ty → Ty} {side : List Variable}
    {declared : Variable} (follows : Varying.Follows holds placed seen side)
    (listed : declared ∈ side) (automatic : declared.explicitLocation = false) :
    (placed declared.name).isSome = true := by
  cases entry : placed declared.name with
  | some span => rfl
  | none =>
      have explicit := (follows.others declared listed entry).1
      rw [automatic] at explicit
      cases explicit

theorem Arranged.outputs_laid {limit : Nat} {names : List String}
    (arranged : Arranged holds limit names executables) {stage : Stage}
    (listed : stage ∈ stagesOf executables) (not_fragment : stage ≠ .fragment) :
    Laid holds limit names executables stage .shaderOut := by
  have last_or := last_or_neighbour (executables.map (·.isSome)) stage
  rw [← stagesOf_eq] at last_or
  rcases last_or listed with is_last | ⟨⟨same, next⟩, in_pairs, is_same⟩
  · obtain ⟨placed, placement, follows, -, served⟩ :=
      arranged.last_outputs stage is_last not_fragment
    refine ⟨placed, placement, follows, fun output in_outputs reserved => ?_⟩
    cases reserved with
    | fragmentOutput => exact absurd rfl not_fragment
    | automatic automatic => exact placed_of_automatic follows in_outputs automatic
    | read neighbour _ _ => exact absurd is_last (known_neighbours neighbour).not_last
    | captured _ asked => exact served output in_outputs (.inr asked)
  · obtain rfl : same = stage := is_same
    obtain ⟨placed, placement, follows, -, served⟩ := arranged.boundaries _ in_pairs
    refine ⟨placed, placement, follows, fun output in_outputs reserved => ?_⟩
    cases reserved with
    | fragmentOutput => exact absurd rfl not_fragment
    | automatic automatic => exact placed_of_automatic follows in_outputs automatic
    | read neighbour in_inputs named =>
        cases same_neighbours in_pairs neighbour (.inl rfl)
        exact served output in_outputs (.inl ⟨_, in_inputs, named⟩)
    | captured here asked =>
        obtain ⟨-, is_last | before_fragment⟩ := here
        · exact absurd is_last (known_neighbours in_pairs).not_last
        · cases same_neighbours in_pairs before_fragment (.inl rfl)
          exact served output in_outputs (.inr (by simpa using asked))

theorem Arranged.inputs_laid {limit : Nat} {names : List String}
    (arranged : Arranged holds limit names executables) {stage : Stage}
    (listed : stage ∈ stagesOf executables) (not_vertex : stage ≠ .vertex) :
    Laid holds limit names executables stage .shaderIn := by
  have first_or := first_or_neighbour (executables.map (·.isSome)) stage
  rw [← stagesOf_eq] at first_or
  rcases first_or listed with is_first | ⟨⟨previous, same⟩, in_pairs, is_same⟩
  · obtain rfl : stage = .fragment := by
      cases stage with
      | vertex => exact absurd rfl not_vertex
      | geometry =>
          rw [stagesOf_eq] at is_first
          obtain ⟨there, absent⟩ := geometry_not_first _ is_first
          rw [PerStage.get_map] at there absent
          rw [arranged.conforming.rooted there] at absent
          cases absent
      | fragment => rfl
    obtain ⟨placed, placement, -, follows, -⟩ := arranged.first_inputs is_first
    have seen : slotType .fragment .shaderIn = fun ty => ty := 
      (slotType_input .fragment).trans (perVertex_of_other (by decide))
    refine ⟨placed, placement, seen ▸ follows, fun input in_inputs reserved => ?_⟩
    cases reserved with
    | automatic automatic => exact placed_of_automatic follows in_inputs automatic
    | written neighbour _ _ => exact absurd is_first (known_neighbours neighbour).not_first
  · obtain rfl : same = stage := is_same
    obtain ⟨placed, placement, -, follows, served⟩ := arranged.boundaries _ in_pairs
    refine ⟨placed, placement, follows, fun input in_inputs reserved => ?_⟩
    cases reserved with
    | vertexInput => exact absurd rfl not_vertex
    | automatic automatic => exact placed_of_automatic follows in_inputs automatic
    | written neighbour in_outputs named =>
        cases same_neighbours in_pairs neighbour (.inr rfl)
        exact named ▸ served _ in_outputs (.inl ⟨input, in_inputs, named.symm⟩)

theorem Arranged.located {limit : Nat} {names : List String}
    (arranged : Arranged Variable.Placed limit names executables) {stage : Stage}
    {mode : VariableMode} (is_interface : mode.isInterface = true) {declared : Variable}
    (listed : declared ∈ Shader.side mode (executables.get stage)) :
    declared.location.isSome = true := by
  obtain ⟨shader, found, -⟩ := Shader.mem_side.mp listed
  have there : stage ∈ stagesOf executables := mem_stagesOf.mpr (by simp [found])
  have of_laid : Laid Variable.Placed limit names executables stage mode →
      declared.location.isSome = true := by
    rintro ⟨placed, -, follows, -⟩
    cases entry : placed declared.name with
    | some span =>
        have spans := follows.there declared listed span entry
        rw [Variable.span?] at spans
        rw [← Option.isSome_map, spans]
        rfl
    | none =>
        obtain ⟨explicit, placed_explicitly⟩ := follows.others declared listed entry
        exact placed_explicitly explicit
  cases mode with
  | shaderIn =>
      by_cases first : stage = .vertex
      · subst first
        exact arranged.inputs_located declared listed
      · exact of_laid (arranged.inputs_laid there first)
  | shaderOut =>
      by_cases last : stage = .fragment
      · subst last
        exact arranged.outputs_located declared listed
      · exact of_laid (arranged.outputs_laid there last)
  | _ => cases is_interface

/-- Reserved variables of one side lie apart. -/
theorem Arranged.apart {limit : Nat} {names : List String}
    (arranged : Arranged holds limit names executables) {stage : Stage} {mode : VariableMode}
    (is_interface : mode.isInterface = true) {one other : Variable}
    (one_listed : one ∈ Shader.side mode (executables.get stage))
    (other_listed : other ∈ Shader.side mode (executables.get stage))
    (different : one.name ≠ other.name) (one_own : one.index = 0) (other_own : other.index = 0)
    (one_reserved : Reserved names executables stage mode one)
    (other_reserved : Reserved names executables stage mode other) {span another : Span}
    (spans : one.span? (slotType stage mode) = some span)
    (spans_other : other.span? (slotType stage mode) = some another) : span.Apart another := by
  obtain ⟨shader, found, -⟩ := Shader.mem_side.mp one_listed
  have there : stage ∈ stagesOf executables := mem_stagesOf.mpr (by simp [found])
  have of_laid : Laid holds limit names executables stage mode → span.Apart another := by
    rintro ⟨placed, placement, follows, served⟩
    obtain ⟨first, entry⟩ := Option.isSome_iff_exists.mp (served one one_listed one_reserved)
    obtain ⟨second, entry_other⟩ :=
      Option.isSome_iff_exists.mp (served other other_listed other_reserved)
    have same := (follows.there one one_listed first entry).symm.trans spans
    have same_other := (follows.there other other_listed second entry_other).symm.trans spans_other
    cases same
    cases same_other
    exact placement.apart different entry entry_other
  cases mode with
  | shaderIn =>
      by_cases first : stage = .vertex
      · subst first
        rw [slotType_input, perVertex_of_other (by decide)] at spans spans_other
        exact arranged.inputs_separate one one_listed other other_listed different one_own other_own
          span another spans spans_other
      · exact of_laid (arranged.inputs_laid there first)
  | shaderOut =>
      by_cases last : stage = .fragment
      · subst last
        exact arranged.outputs_separate one one_listed other other_listed different one_own
          other_own span another spans spans_other
      · exact of_laid (arranged.outputs_laid there last)
  | _ => cases is_interface

end Linking
namespace Varying

/-- The variables are the two sides of a varying: an output and an input of one name. -/
structure Carries (producer consumer : Shader) (output input : Variable) : Prop where
  written : output ∈ producer.generics .shaderOut
  read : input ∈ consumer.generics .shaderIn
  name : input.name = output.name

/-- Two executables agree about the varyings between them. -/
structure Agree (limit : Nat) (producer consumer : Shader) : Prop where
  location : ∀ {output input}, Carries producer consumer output input →
    input.location = output.location
  sides : ∀ {output input}, Carries producer consumer output input →
    Boundary.Matches consumer.stage output input
  within : ∀ {output input span}, Carries producer consumer output input →
    output.span? (fun ty => ty) = some span → span.base + span.count ≤ limit
  apart : ∀ {output input other another span further}, Carries producer consumer output input →
    Carries producer consumer other another → output.name ≠ other.name →
    output.span? (fun ty => ty) = some span → other.span? (fun ty => ty) = some further →
    span.Apart further

/-- A boundary whose sides follow one placement is one that both sides agree about. -/
theorem Bounded.agree {holds : Variable → Prop} {limit : Nat} {captured : List String}
    {producer consumer : Shader}
    (all_match : Boundary.AllMatch consumer.stage (producer.generics .shaderOut)
      (consumer.generics .shaderIn))
    (bounded : Bounded holds limit captured (Boundary.perVertex consumer.stage)
      (producer.generics .shaderOut) (consumer.generics .shaderIn)) :
    Agree limit producer consumer := by
  obtain ⟨placed, placement, outputs_follow, inputs_follow, served⟩ := bounded
  have entered : ∀ {output input : Variable}, Carries producer consumer output input →
      ∃ span, placed output.name = some span ∧ output.span? (fun ty => ty) = some span ∧
        input.span? (Boundary.perVertex consumer.stage) = some span := by
    intro output input carries
    obtain ⟨span, entry⟩ := Option.isSome_iff_exists.mp
      (served output carries.written (.inl ⟨input, carries.read, carries.name⟩))
    exact ⟨span, entry, outputs_follow.there output carries.written span entry,
      inputs_follow.there input carries.read span (carries.name ▸ entry)⟩
  refine ⟨fun {output input} carries => ?_, fun {output input} carries =>
    all_match output carries.written input carries.read carries.name.symm,
    fun {output input span} carries spans => ?_,
    fun {output input other another span further} carries carries_other different spans
      spans_other => ?_⟩
  · obtain ⟨span, -, spans, spans_input⟩ := entered carries
    obtain ⟨location, located, rfl⟩ := Option.map_eq_some_iff.mp spans
    obtain ⟨same, located_input, equal⟩ := Option.map_eq_some_iff.mp spans_input
    rw [located, located_input, (Span.mk.inj equal).1]
  · obtain ⟨first, entry, entered_spans, -⟩ := entered carries
    cases entered_spans.symm.trans spans
    exact placement.within entry
  · obtain ⟨first, entry, entered_spans, -⟩ := entered carries
    obtain ⟨second, entry_other, entered_other, -⟩ := entered carries_other
    cases entered_spans.symm.trans spans
    cases entered_other.symm.trans spans_other
    exact placement.apart different entry entry_other

end Varying

/-! ## Small programs -/

set_option maxRecDepth 20000

namespace Shader

/-- A shader that declares some variables and then some functions. -/
def ofParts (stage : Stage) (globals : List Variable) (functions : List Function) : Shader :=
  populateSymbols {
    stage := stage
    version := 150
    vars := ⟨globals⟩
    functions := ⟨functions⟩
    topLevel := (List.range globals.length).map .declare ++
      (List.range functions.length).map .function }

end Shader

/-- A vector without qualifiers. -/
def Variable.vector (name : String) (mode : VariableMode) : Variable :=
  .ofType name (.floatVector .four) mode

/-- A function without parameters that has a body. -/
def Function.ofBody (name : String) (body : Block) : Function :=
  { name := name, signatures := [.define .void [] body] }

def Instruction.copy (target source : VariableId) : Instruction :=
  store (.whole target) (.load (.whole source))

namespace Program

open Linking

def linksTo (program : Program) (options : Options) (check : Program → Bool) : Bool :=
  match program.link options with
  | .ok result => result.linked && check result
  | .error _ => false

theorem exists_of_linksTo {program : Program} {options : Options} {check : Program → Bool}
    (links : program.linksTo options check = true) :
    ∃ result, program.link options = .ok result ∧ result.linked = true ∧ check result = true := by
  unfold linksTo at links
  split at links
  · next result runs =>
      rw [Bool.and_eq_true] at links
      exact ⟨result, runs, links⟩
  · cases links

/-- In the executables of a link without errors every input and output has a location, and
neighbouring executables agree about the varyings between them. -/
theorem link_locates_varyings {options : Options} {program result : Program}
    (distinct : ∀ unit ∈ program.units, (unit.shader.declaredVariables.map (·.name)).Nodup)
    (placed : ∀ unit ∈ program.units, ∀ shader ∈ unit.shader :: unit.libraries,
      ∀ declared ∈ shader.vars.entries, declared.Placed)
    (runs : program.link options = .ok result) (succeeds : result.linked = true) :
    (∀ shader ∈ result.outcome.present, ∀ mode, mode.isInterface = true →
      ∀ declared ∈ shader.generics mode, declared.location.isSome = true) ∧
    ∀ pair ∈ neighbours result.outcome.present,
      Varying.Agree options.limits.varyingSlots pair.1 pair.2 := by
  have arranged := link_arranges inherited_placed distinct placed runs succeeds
  refine ⟨fun shader listed mode is_interface declared in_generics => ?_, fun pair listed => ?_⟩
  · obtain ⟨stage, found⟩ := Outcome.mem_present.mp listed
    exact arranged.located is_interface (Shader.mem_side.mpr ⟨shader, found, in_generics⟩)
  · obtain ⟨stages, in_stages, is_producer, is_consumer⟩ := mem_neighbours_present.mp listed
    have matched := arranged.conforming.all_matched stages in_stages
    have bounded := arranged.boundaries stages in_stages
    have side_of : ∀ mode (shader : Shader),
      Shader.side mode (some shader) = shader.generics mode :=
      fun mode shader => by simp [Shader.side]
    rw [is_producer, is_consumer, side_of, side_of] at matched bounded
    rw [← (arranged.conforming.in_place _ _ is_consumer).1] at matched bounded
    exact bounded.agree matched

/-- Two varyings between a vertex and a fragment stage, one of them at an explicit location. -/
def shaded : Program where
  units := [
    ⟨.ofParts .vertex [.vector "position" .shaderIn,
      (Variable.vector "normal" .shaderOut).withLocation 3, .vector "color" .shaderOut]
      [.ofBody "main" [.copy 1 0, .copy 2 0]], []⟩,
    ⟨.ofParts .fragment [.vector "color" .shaderIn, .vector "normal" .shaderIn,
      .vector "result" .shaderOut, .vector "glow" .shaderOut]
      [.ofBody "main" [.copy 2 0, .copy 3 1]], []⟩]

theorem shaded_locates_varyings : ∃ result, shaded.link {} = .ok result ∧
    (∀ shader ∈ result.outcome.present, ∀ mode, mode.isInterface = true →
      ∀ declared ∈ shader.generics mode, declared.location.isSome = true) ∧
    ∀ pair ∈ neighbours result.outcome.present, Varying.Agree 16 pair.1 pair.2 := by
  have links : shaded.linksTo {} (fun _ => true) = true := by decide +kernel
  obtain ⟨result, runs, succeeds, -⟩ := exists_of_linksTo links
  exact ⟨result, runs, link_locates_varyings (by decide +kernel) (by decide +kernel) runs succeeds⟩

/-- The main function calls a function of a library that writes an output which has no location,
although it is marked as having an explicit one. -/
def straying : Program where
  units := [
    ⟨.ofParts .vertex [] [.ofBody "main" [.call ⟨1, 0⟩ [] none],
        { name := "helper", signatures := [.announce .void []] }],
      [.ofParts .vertex [{ Variable.vector "stray" .shaderOut with explicitLocation := true },
        .vector "source" .plain] [.ofBody "helper" [.copy 0 1]]]⟩]

/-- Locations in the units alone are not enough: an output that comes from a library may have
none. -/
theorem straying_output_has_no_location :
    (∀ unit ∈ straying.units, (unit.shader.declaredVariables.map (·.name)).Nodup) ∧
    (∀ unit ∈ straying.units, ∀ declared ∈ unit.shader.vars.entries, declared.Placed) ∧
    ∃ result, straying.link {} = .ok result ∧ result.linked = true ∧
      ∃ shader ∈ result.outcome.present, ∃ declared ∈ shader.generics .shaderOut,
        declared.location = none := by
  refine ⟨by decide +kernel, by decide +kernel, ?_⟩
  have links : straying.linksTo {} (fun result => decide (∃ shader ∈ result.outcome.present,
      ∃ declared ∈ shader.generics .shaderOut, declared.location = none)) = true := by
    decide +kernel
  obtain ⟨result, runs, succeeds, found⟩ := exists_of_linksTo links
  exact ⟨result, runs, succeeds, of_decide_eq_true found⟩

/-- Two different globals of one interface mode in an executable of a link without errors have no
slot in common, if slots have been reserved for both. -/
theorem link_separates {options : Options} {program result : Program}
    (distinct : ∀ unit ∈ program.units, (unit.shader.declaredVariables.map (·.name)).Nodup)
    (runs : program.link options = .ok result) (succeeds : result.linked = true) {stage : Stage}
    {shader : Shader} (found : result.outcome.executables.get stage = some shader)
    {mode : VariableMode} (is_interface : mode.isInterface = true) {first second : VariableId}
    (first_global : first ∈ shader.globals) (second_global : second ∈ shader.globals)
    (different : first ≠ second) {one other : Variable}
    (is_first : shader.vars.get? first = some one)
    (is_second : shader.vars.get? second = some other)
    (one_generic : Varying.isGeneric mode one = true)
    (other_generic : Varying.isGeneric mode other = true) (one_own : one.index = 0)
    (other_own : other.index = 0)
    (one_reserved : Reserved (requestedNames program.feedback) result.outcome.executables stage mode
      one)
    (other_reserved : Reserved (requestedNames program.feedback) result.outcome.executables stage
      mode other) {span another : Span} (spans : one.span? (slotType stage mode) = some span)
    (spans_other : other.span? (slotType stage mode) = some another) : span.Apart another := by
  have arranged := link_arranges inherited_trivial distinct (by simp) runs succeeds
  have tidy := (arranged.conforming.in_place stage shader found).2
  have listed : ∀ {id : VariableId} {declared : Variable}, id ∈ shader.globals →
      shader.vars.get? id = some declared → Varying.isGeneric mode declared = true →
      declared ∈ Shader.side mode (result.outcome.executables.get stage) :=
    fun global here generic => Shader.mem_side.mpr ⟨shader, found, List.mem_filter.mpr
      ⟨Shader.mem_declaredVariables.mpr ⟨_, global, here⟩, generic⟩⟩
  exact arranged.apart is_interface (listed first_global is_first one_generic)
    (listed second_global is_second other_generic)
    (fun same => different (tidy.eq_of_name first_global second_global is_first is_second same))
    one_own other_own one_reserved other_reserved spans spans_other

theorem shaded_separates : ∃ result, shaded.link {} = .ok result ∧
    ∃ shader ∈ result.outcome.executables.get .vertex, ∃ one ∈ shader.vars.get? 1,
      ∃ other ∈ shader.vars.get? 2, one.name = "normal" ∧ other.name = "color" ∧
        Span.Apart ⟨3, 1⟩ ⟨0, 1⟩ := by
  have links : shaded.linksTo {} (fun result => decide (
      (Stage.vertex, Stage.fragment) ∈ neighbours (stagesOf result.outcome.executables) ∧
      (∃ input ∈ Shader.side .shaderIn (result.outcome.executables.get .fragment),
        input.name = "normal") ∧
      ∃ shader ∈ result.outcome.executables.get .vertex, 1 ∈ shader.globals ∧ 2 ∈ shader.globals ∧
        ∃ one ∈ shader.vars.get? 1, ∃ other ∈ shader.vars.get? 2,
          (one.name = "normal" ∧ Varying.isGeneric .shaderOut one = true ∧ one.index = 0 ∧
            one.span? (fun ty => ty) = some ⟨3, 1⟩) ∧
          other.name = "color" ∧ Varying.isGeneric .shaderOut other = true ∧ other.index = 0 ∧
            other.explicitLocation = false ∧ other.span? (fun ty => ty) = some ⟨0, 1⟩)) = true := by
    decide +kernel
  obtain ⟨result, runs, succeeds, found⟩ := exists_of_linksTo links
  obtain ⟨adjacent, ⟨input, in_inputs, input_named⟩, shader, here, one_global, other_global, one,
    is_one, other, is_other, ⟨one_named, one_generic, one_own, one_spans⟩, other_named,
    other_generic, other_own, automatic, other_spans⟩ := of_decide_eq_true found
  exact ⟨result, runs, shader, here, one, is_one, other, is_other, one_named, other_named,
    link_separates (by decide +kernel) runs succeeds here rfl one_global other_global (by decide)
      is_one is_other one_generic other_generic one_own other_own
      (.read adjacent in_inputs (input_named.trans one_named.symm)) (.automatic automatic) one_spans
      other_spans⟩

/-- A vertex stage with an output at an explicit location that the fragment stage does not read. -/
def colliding : Program where
  units := [
    ⟨.ofParts .vertex [.vector "position" .shaderIn,
      (Variable.vector "unread" .shaderOut).withLocation 0, .vector "color" .shaderOut]
      [.ofBody "main" [.copy 1 0, .copy 2 0]], []⟩,
    ⟨.ofParts .fragment [.vector "color" .shaderIn, .vector "result" .shaderOut]
      [.ofBody "main" [.copy 1 0]], []⟩]

/-- An output with an explicit location that the next stage does not read may share its slot with
one that has been placed automatically. -/
theorem colliding_outputs_share_slot :
    (∀ unit ∈ colliding.units, (unit.shader.declaredVariables.map (·.name)).Nodup) ∧
    ∃ result, colliding.link {} = .ok result ∧ result.linked = true ∧
      ∃ shader ∈ result.outcome.executables.get .vertex, ∃ one ∈ shader.generics .shaderOut,
        ∃ other ∈ shader.generics .shaderOut, one.name ≠ other.name ∧ one.index = 0 ∧
          other.index = 0 ∧ ∃ span another, one.span? (fun ty => ty) = some span ∧
            other.span? (fun ty => ty) = some another ∧ ¬ span.Apart another := by
  refine ⟨by decide +kernel, ?_⟩
  have links : colliding.linksTo {} (fun result => decide (
      ∃ shader ∈ result.outcome.executables.get .vertex, ∃ one ∈ shader.generics .shaderOut,
        ∃ other ∈ shader.generics .shaderOut, one.name ≠ other.name ∧ one.index = 0 ∧
          other.index = 0 ∧ one.span? (fun ty => ty) = some ⟨0, 1⟩ ∧
            other.span? (fun ty => ty) = some ⟨0, 1⟩)) = true := by decide +kernel
  obtain ⟨result, runs, succeeds, found⟩ := exists_of_linksTo links
  obtain ⟨shader, here, one, one_listed, other, other_listed, different, one_own, other_own, spans,
    spans_other⟩ := of_decide_eq_true found
  exact ⟨result, runs, succeeds, shader, here, one, one_listed, other, other_listed, different,
    one_own, other_own, ⟨0, 1⟩, ⟨0, 1⟩, spans, spans_other,
    fun apart => apart 0 ⟨Nat.le_refl 0, Nat.one_pos⟩ ⟨Nat.le_refl 0, Nat.one_pos⟩⟩

end Program
end StageLink
