import StageLink.Capture
import StageLink.Interface.Boundary
import StageLink.Slot.Attribute

/-!
# Varyings

At a boundary between two stages, an output that the next stage reads or that is captured gets a
slot, and the input of its name gets the same.  Explicit locations are claimed first, those of
outputs before those of inputs; the rest is placed in the lowest free spans, larger ones first.
Outputs and inputs that find no counterpart are demoted to ordinary globals afterwards.  A failed
allocation keeps what it has placed so far.
-/

namespace StageLink
namespace Varying

/-- Whether a variable of the mode gets its slot here: built-ins do not. -/
def isGeneric (mode : VariableMode) (declared : Variable) : Bool :=
  declared.mode = mode && !declared.isBuiltin

/-- The globals of a mode that get slots, with their declarations. -/
def genericGlobals (mode : VariableMode) (shader : Shader) :
    Checked (List (VariableId × Variable)) := do
  let declared ← shader.globals.mapM fun id => return (id, ← shader.fetchVariable id)
  return declared.filter fun pair => isGeneric mode pair.2

/-- An output that needs a slot, with the input of its name. -/
structure Pair where
  output : VariableId
  input : Option VariableId
  slots : Nat

/-- An allocation in progress. -/
structure Allocation where
  producer : Shader
  consumer : Option Shader
  used : SlotSet
  /-- The varyings without a location. -/
  pending : List Pair := []

/-- Give a variable a location that its counterpart has too. -/
def settle (location : Nat) (declared : Variable) : Variable :=
  { declared with location := some location, unmatched := false }

/-- Give both sides of a varying a location. -/
def locate (allocation : Allocation) (pair : Pair) (location : Nat) : Allocation :=
  { allocation with
    producer := allocation.producer.modifyVariable pair.output (settle location)
    consumer := allocation.consumer.map fun consumer =>
      match pair.input with
      | some input => consumer.modifyVariable input (settle location)
      | none => consumer }

/-- The location that the declarations of a varying ask for. -/
def explicitLocation? (output : Variable) (input : Option Variable) : Option Nat :=
  if output.explicitLocation then output.location
  else input.bind fun input => if input.explicitLocation then input.location else none

def inputAt? (allocation : Allocation) (input : Option VariableId) : Option Variable :=
  allocation.consumer.bind fun consumer => input.bind consumer.vars.get?

def claimAll (inputs : NameTable VariableId) (captured : List String) (limit : Nat) :
    Allocation → List VariableId → Checked (Allocation × Option LinkError)
  | allocation, [] => return (allocation, none)
  | allocation, id :: ids => do
      let output ← allocation.producer.fetchVariable id
      let input := inputs.get? output.name
      if input.isNone && !captured.contains output.name then
        claimAll inputs captured limit allocation ids
      else
        let pair : Pair := ⟨id, input, output.ty.attributeSlots⟩
        match explicitLocation? output (inputAt? allocation input) with
        | none =>
            let pending := allocation.pending ++ [pair]
            claimAll inputs captured limit { allocation with pending := pending } ids
        | some location =>
            if limit ≤ location then
              return (allocation, some (.invalidExplicitLocation location output.name))
            else
              match allocation.used.claim? location pair.slots with
              | none => return (allocation, some (.insufficientLocations "varying" output.name))
              | some used =>
                  claimAll inputs captured limit
                    (locate { allocation with used := used } pair location) ids

/-- Place some varyings in the lowest free spans. -/
def placeAll : Allocation → List Pair → Allocation × Option LinkError
  | allocation, [] => (allocation, none)
  | allocation, pair :: pairs =>
      match allocation.used.findFree? pair.slots with
      | none =>
          let output := allocation.producer.vars.get? pair.output
          let name := (output.map (·.name)).getD ""
          (allocation, some (.insufficientLocations "varying" name))
      | some location =>
          let used := allocation.used ||| SlotSet.span location pair.slots
          placeAll (locate { allocation with used := used } pair location) pairs

/-- Allocate the slots at the boundary behind a stage.  Without a next stage only captured outputs
get slots. -/
def allocate (captured : List String) (limit : Nat) (producer : Shader)
    (consumer : Option Shader) : Checked (Allocation × Option LinkError) := do
  let inputs ←
    match consumer with
    | some consumer => genericGlobals .shaderIn consumer
    | none => pure []
  let outputs ← genericGlobals .shaderOut producer
  let inputTable := NameTable.ofList (inputs.map fun pair => (pair.2.name, pair.1))
  let start : Allocation :=
    { producer := producer, consumer := consumer, used := SlotSet.reservedAbove limit }
  let (allocation, failure) ←
    claimAll inputTable captured limit start (outputs.map (·.1))
  if failure.isSome then
    return (allocation, failure)
  else
    return placeAll allocation (largestFirst (·.slots) allocation.pending)

/-! ## Before and after -/

/-- Forget a location that is not explicit; whatever is not fixed has yet to find its
counterpart. -/
def invalidate (declared : Variable) : Variable :=
  if !declared.mode.isInterface then declared
  else if declared.explicitLocation || declared.isBuiltin then { declared with unmatched := false }
  else { declared with location := none, unmatched := true }

/-- Make an input or output without counterpart an ordinary global. -/
def demote (mode : VariableMode) (declared : Variable) : Variable :=
  if declared.mode = mode && declared.unmatched then { declared with mode := .plain }
  else declared

/-- The components of all globals of a mode that have a location, each type being taken as its
stage sees it. -/
def locatedComponents (mode : VariableMode) (seen : Ty → Ty) (shader : Shader) : Checked Nat := do
  let globals ← genericGlobals mode shader
  return wrap (total (globals.map fun pair =>
    if pair.2.location.isSome then wrap ((seen pair.2.ty).attributeSlots * 4) else 0))

def checkOutputs (limits : Limits) (shader : Shader) : Judged Unit := do
  let used ← locatedComponents .shaderOut id shader
  let limit := limits.outputComponents.get shader.stage
  if limit < used then
    Judged.reject (.tooManyOutputComponents shader.stage used limit)

/-- Check the input components of a stage against its limit.  Inputs of a geometry stage count for
one vertex. -/
def checkInputs (limits : Limits) (shader : Shader) : Judged Unit := do
  let used ← locatedComponents .shaderIn (Boundary.perVertex shader.stage) shader
  let limit := limits.inputComponents.get shader.stage
  if limit < used then
    Judged.reject (.tooManyInputComponents shader.stage used limit)

end Varying
end StageLink
