import StageLink.Shader

/-!
# Uniform storage

The uniforms of a program as one list.  A uniform of a record type is listed by its leaves, the
elements of an array of records one by one.  Uniforms of the default block take locations one after
the other, one for each array element; samplers take texture units, either the bound one or the next
ones.  Members of uniform blocks take no location.
-/

namespace StageLink

/-- An active uniform of a program. -/
structure UniformEntry where
  name : String
  ty : Ty
  /-- The first location; members of uniform blocks have none. -/
  location : Option Nat
  /-- The number of elements, which is zero for anything but an array. -/
  arrayElements : Nat
  /-- The first texture unit of a sampler. -/
  samplerUnit : Option Nat
  /-- The uniform block that the uniform belongs to. -/
  block : Option String
  initializer : Option Constant
  /-- The stages whose executables declare the uniform. -/
  stages : PerStage Bool

/-- The uniform resources that a stage uses. -/
structure StageUsage where
  samplers : Nat := 0
  /-- Components in the default uniform block. -/
  components : Nat := 0
  /-- Components in the default block and in all uniform blocks of the stage. -/
  combinedComponents : Nat := 0
  deriving DecidableEq

namespace Uniform

/-- A part of a uniform that is listed on its own. -/
structure Leaf where
  name : String
  ty : Ty
  block : Option String := none
  /-- The texture unit bound to a sampler. -/
  binding : Option Nat := none
  initializer : Option Constant := none

mutual

/-- The names and types of the leaves of a type. -/
def flatten (name : String) : Ty → List (String × Ty)
  | .record _ fields => flattenFields name fields
  | .array (.record recordName fields) length =>
      (List.range (length.getD 0)).flatMap fun index =>
        flatten s!"{name}[{index}]" (.record recordName fields)
  | ty => [(name, ty)]

/-- The names and types of the leaves of some fields. -/
def flattenFields (name : String) : List (Field Ty) → List (String × Ty)
  | [] => []
  | ⟨field, ty, _⟩ :: fields => flatten s!"{name}.{field}" ty ++ flattenFields name fields

end

/-- The leaves of a uniform in the default block.  Binding and initial value belong to a uniform as
a whole. -/
def defaultLeaves (declared : Variable) : List Leaf :=
  (flatten declared.name declared.ty).map fun leaf =>
    let whole := leaf.1 = declared.name
    { name := leaf.1
      ty := leaf.2
      binding := if declared.explicitBinding ∧ whole then some declared.binding else none
      initializer := if whole then declared.constantInitializer else none }

/-- The leaves of a member or an instance of a uniform block. -/
def blockLeaves (declared : Variable) : List Leaf :=
  match declared.interfaceType with
  | none => []
  | some definition =>
      let block := definition.name?.getD ""
      if declared.ty.interface?.isSome then
        definition.fields.map fun field =>
          { name := s!"{block}.{field.name}", ty := field.ty, block := some block }
      else
        [{ name := declared.name, ty := declared.ty, block := some block }]

def leaves (declared : Variable) : List Leaf :=
  if declared.isInUniformBlock then blockLeaves declared else defaultLeaves declared

/-- The list of uniforms so far, with the next location and texture unit. -/
structure Table where
  entries : List UniformEntry := []
  nextLocation : Nat := 0
  nextUnit : Nat := 0

def addBlockMember (table : Table) (leaf : Leaf) : Table :=
  { table with
    entries := table.entries ++
      [{ name := leaf.name
         ty := leaf.ty
         location := none
         arrayElements := leaf.ty.length?.getD 0
         samplerUnit := none
         block := leaf.block
         initializer := none
         stages := .constant false }] }

def addDefault (table : Table) (leaf : Leaf) : Table :=
  let elements := leaf.ty.length?.getD 0
  let isAutomatic := leaf.ty.containsSampler && leaf.binding.isNone
  let unit :=
    if leaf.ty.containsSampler then some (leaf.binding.getD table.nextUnit) else none
  { entries := table.entries ++
      [{ name := leaf.name
         ty := leaf.ty
         location := some table.nextLocation
         arrayElements := elements
         samplerUnit := unit
         block := none
         initializer := leaf.initializer
         stages := .constant false }]
    nextLocation := wrap (table.nextLocation + max elements 1)
    nextUnit :=
      if isAutomatic then wrap (table.nextUnit + leaf.ty.samplerCount) else table.nextUnit }

/-- Add a leaf unless its name is listed already. -/
def addLeaf (table : Table) (leaf : Leaf) : Table :=
  if table.entries.any (·.name = leaf.name) then table
  else if leaf.block.isSome then addBlockMember table leaf
  else addDefault table leaf

def markStage (stage : Stage) (name : String) : List UniformEntry → List UniformEntry
  | [] => []
  | entry :: entries =>
      if entry.name = name then { entry with stages := entry.stages.set stage true } :: entries
      else entry :: markStage stage name entries

def enterLeaf (stage : Stage) (table : Table) (leaf : Leaf) : Table :=
  let added := addLeaf table leaf
  { added with entries := markStage stage leaf.name added.entries }

/-- The uniforms among the globals of an executable. -/
def uniformsOf (shader : Shader) : Checked (List Variable) := do
  let declared ← shader.globals.mapM fun id => shader.fetchVariable id
  return declared.filter (·.mode = .uniform)

/-- The resources used by some uniforms and uniform blocks. -/
def usage (uniforms : List Variable) (blocks : List UniformBlock) : StageUsage :=
  let defaults := uniforms.filter fun declared => !declared.isInUniformBlock
  let components := wrap (total (defaults.map (·.ty.componentSlots)))
  { samplers := wrap (total (defaults.map (·.ty.samplerCount)))
    components := components
    combinedComponents := wrap (components + total (blocks.map (·.size / 4))) }

def enterStage (stage : Stage) (table : Table) (uniforms : List Variable) : Table :=
  (uniforms.flatMap leaves).foldl (enterLeaf stage) table

/-- Enter the uniforms of some stages in order and note what each stage uses. -/
def storageFrom (executables : PerStage (Option Shader)) :
    Table → PerStage StageUsage → List Stage → Checked (Table × PerStage StageUsage)
  | table, usages, [] => return (table, usages)
  | table, usages, stage :: stages => do
      match executables.get stage with
      | none => storageFrom executables table usages stages
      | some shader =>
          let uniforms ← uniformsOf shader
          storageFrom executables (enterStage stage table uniforms)
            (usages.set stage (usage uniforms shader.uniformBlocks)) stages

/-- The uniforms of a program and the resources that each stage uses. -/
def storage (executables : PerStage (Option Shader)) :
    Checked (List UniformEntry × PerStage StageUsage) := do
  let (table, usages) ← storageFrom executables {} (.constant {}) Stage.all
  return (table.entries, usages)

end Uniform
end StageLink
