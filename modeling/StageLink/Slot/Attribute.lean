import StageLink.Diagnostic
import StageLink.Slot
import StageLink.Stage.Usage

/-!
# Attributes and fragment outputs

The inputs of a vertex stage and the outputs of a fragment stage get slots.  Explicit locations and
the locations that the application has bound are claimed first, in the order of declaration.  The
rest is placed in the lowest free span, larger spans before smaller ones and spans of one size in
the order of declaration.  A failed allocation keeps what it has placed so far.
-/

namespace StageLink

/-- What is allocated. -/
inductive AttributeTarget where
  | vertexInputs
  | fragmentOutputs
  deriving DecidableEq

namespace AttributeTarget

/-- The mode of the variables that get slots. -/
def mode : AttributeTarget → VariableMode
  | vertexInputs => .shaderIn
  | fragmentOutputs => .shaderOut

/-- The words for the variables that get slots. -/
def text : AttributeTarget → String
  | vertexInputs => "vertex shader input"
  | fragmentOutputs => "fragment shader output"

end AttributeTarget

/-- The locations and dual-source indices that an application has bound to names. -/
structure Bindings where
  locations : NameTable Nat := {}
  indices : NameTable Nat := {}

/-- Put an item before the first of some items that needs no more slots than it. -/
def placeBySize {Item : Type} (slots : Item → Nat) (item : Item) : List Item → List Item
  | [] => [item]
  | other :: rest =>
      if slots other ≤ slots item then item :: other :: rest
      else other :: placeBySize slots item rest

/-- Sort by decreasing number of slots, keeping the order of those that need the same number. -/
def largestFirst {Item : Type} (slots : Item → Nat) : List Item → List Item
  | [] => []
  | item :: items => placeBySize slots item (largestFirst slots items)

namespace Attribute

/-- An allocation in progress. -/
structure Allocation where
  shader : Shader
  used : SlotSet
  /-- The variables without a location with the number of slots each needs. -/
  pending : List (VariableId × Nat) := []

def bind (target : AttributeTarget) (bindings : Bindings) (declared : Variable) : Variable :=
  match bindings.locations.get? declared.name with
  | none => declared
  | some location =>
      { declared with
        location := some location
        unmatched := false
        index :=
          if target = .fragmentOutputs then (bindings.indices.get? declared.name).getD 0
          else declared.index }

/-- Claim the slots of a variable that has a location.  A variable with a dual-source index shares
the slots of another and claims none. -/
def claim? (used : SlotSet) (declared : Variable) (location : Nat) : Option SlotSet :=
  if declared.index = 0 then used.claim? location declared.ty.attributeSlots else some used

/-- Look at the explicit and bound locations of some globals in order. -/
def claimAll (target : AttributeTarget) (limit : Nat) (bindings : Bindings) :
    Allocation → List VariableId → Checked (Allocation × Option LinkError)
  | allocation, [] => return (allocation, none)
  | allocation, id :: ids => do
      let declared ← allocation.shader.fetchVariable id
      if declared.mode ≠ target.mode || declared.isBuiltin then
        claimAll target limit bindings allocation ids
      else if declared.explicitLocation && declared.location.any (limit ≤ ·) then
        let location := declared.location.getD 0
        return (allocation, some (.invalidExplicitLocation location declared.name))
      else
        let bound := if declared.explicitLocation then declared else bind target bindings declared
        let allocation :=
          { allocation with shader := allocation.shader.modifyVariable id fun _ => bound }
        match bound.location with
        | none =>
            let pending := allocation.pending ++ [(id, bound.ty.attributeSlots)]
            claimAll target limit bindings { allocation with pending := pending } ids
        | some location =>
            match claim? allocation.used bound location with
            | some used => claimAll target limit bindings { allocation with used := used } ids
            | none => return (allocation, some (.insufficientLocations target.text bound.name))

/-- Place some variables in the lowest free spans. -/
def placeAll (target : AttributeTarget) :
    Shader → SlotSet → List (VariableId × Nat) → Shader × Option LinkError
  | shader, _, [] => (shader, none)
  | shader, used, (id, slots) :: rest =>
      match used.findFree? slots with
      | none =>
          let name := ((shader.vars.get? id).map (·.name)).getD ""
          (shader, some (.insufficientLocations target.text name))
      | some location =>
          let placed := shader.modifyVariable id fun declared =>
            { declared with location := some location, unmatched := false }
          placeAll target placed (used ||| SlotSet.span location slots) rest

/-- Allocate the slots of a vertex or fragment stage.  If the vertex stage mentions the built-in
position attribute then slot zero is its own. -/
def allocate (target : AttributeTarget) (limit : Nat) (bindings : Bindings) (shader : Shader) :
    Checked (Shader × Option LinkError) := do
  let start : Allocation := { shader := shader, used := SlotSet.reservedAbove limit }
  let (allocation, failure) ← claimAll target limit bindings start shader.globals
  if failure.isSome || allocation.pending.isEmpty then
    return (allocation.shader, failure)
  else
    let reserved ←
      if target = .vertexInputs then allocation.shader.mentions "gl_Vertex" else pure false
    let used := if reserved then allocation.used ||| 1 else allocation.used
    return placeAll target allocation.shader used (largestFirst (·.2) allocation.pending)

end Attribute
end StageLink
