import StageLink.ArraySize.Geometry
import StageLink.Call.Definition
import StageLink.Call.Resolution
import StageLink.Interface.Block
import StageLink.Limits
import StageLink.UniformBlock.Table

/-!
# Merging the units of a stage

The units of one stage become one executable.  The unit that defines `main` is the basis; statements
that other units have at the top level are cloned to the start of `main`, after those of the main
unit.  Then calls are resolved from all units and the libraries that come with them, declarations
take over what other units have added to them, and arrays get their sizes.
-/

namespace StageLink

/-- A shader handed in to a program, with the libraries of built-in functions it brings along. -/
structure TranslationUnit where
  shader : Shader
  libraries : List Shader := []

namespace Merge

/-! ## Geometry layout -/

/-- Combine a qualifier with another declaration of it. -/
def combineQualifier {Value : Type} [DecidableEq Value] (sofar declared : Option Value) :
    Except (Value × Value) (Option Value) :=
  match sofar, declared with
  | sofar, none => .ok sofar
  | none, some value => .ok (some value)
  | some previous, some value =>
      if previous = value then .ok (some value) else .error (previous, value)

/-- Add the layout of a unit; there is an error if the two conflict, and then what comes before the
conflict counts. -/
def addLayout (sofar declared : GeometryLayout) : GeometryLayout × Option LinkError :=
  match combineQualifier sofar.input declared.input with
  | .error _ => (sofar, some .conflictingGeometryInput)
  | .ok input =>
      let sofar := { sofar with input := input }
      match combineQualifier sofar.output declared.output with
      | .error _ => (sofar, some .conflictingGeometryOutput)
      | .ok output =>
          let sofar := { sofar with output := output }
          match combineQualifier sofar.verticesOut declared.verticesOut with
          | .error (previous, value) => (sofar, some (.conflictingVerticesOut previous value))
          | .ok vertices => ({ sofar with verticesOut := vertices }, none)

/-- The first qualifier that a complete layout lacks. -/
def missingQualifier? (layout : GeometryLayout) : Option LinkError :=
  if layout.input.isNone then some .missingGeometryInput
  else if layout.output.isNone then some .missingGeometryOutput
  else if layout.verticesOut.isNone then some .missingMaxVertices
  else none

/-- Combine the layouts of some units into one that is complete. -/
def combineLayouts (sofar : GeometryLayout) :
    List GeometryLayout → GeometryLayout × Option LinkError
  | [] => (sofar, missingQualifier? sofar)
  | declared :: rest =>
      match addLayout sofar declared with
      | (combined, none) => combineLayouts combined rest
      | (combined, some cause) => (combined, some cause)

/-- The layout of a stage.  Only geometry stages from version 150 on have one. -/
def geometryLayout (stage : Stage) (version : Nat) (units : List Shader) :
    GeometryLayout × Option LinkError :=
  if stage = .geometry && 150 ≤ version then combineLayouts {} (units.map (·.geometry))
  else ({}, none)

/-! ## Top-level statements -/

/-- Whether a top-level instruction declares a function or a variable other than a temporary. -/
def isGlobalDeclaration (shader : Shader) : Instruction → Checked Bool
  | .function _ => return true
  | .declare id => return (← shader.fetchVariable id).mode ≠ .temporary
  | _ => return false

/-- Split a top-level list into global declarations and what is to be done at the start of
`main`. -/
def splitTopLevel (shader : Shader) : Block → Checked (Block × Block)
  | [] => return ([], [])
  | instruction :: rest => do
      let (declarations, statements) ← splitTopLevel shader rest
      if ← isGlobalDeclaration shader instruction then
        return (instruction :: declarations, statements)
      else
        return (declarations, instruction :: statements)

def cloneStatements : List Shader → Shader → Checked (Block × Shader)
  | [], target => return ([], target)
  | unit :: units, target => do
      let (_, statements) ← splitTopLevel unit unit.topLevel
      let (cloned, target) ← (CloneM.block unit statements).runOn target []
      let (later, target) ← cloneStatements units target
      return (cloned ++ later, target)

/-- Move the statements of the top level, followed by those of other units, to the start of
`main`. -/
def moveStatements (shader : Shader) (others : List Shader) : Checked Shader := do
  match shader.mainSignature? with
  | none => return shader
  | some main =>
      let (declarations, statements) ← splitTopLevel shader shader.topLevel
      let bare := { shader with topLevel := declarations }.populateSymbols
      let (cloned, extended) ← cloneStatements others bare
      return extended.modifySignature main fun signature =>
        { signature with body := statements ++ cloned ++ signature.body }

/-! ## Executables -/

/-- The first unit that defines `main`, and the other units in order. -/
def splitMain? : List Shader → Option (Shader × List Shader)
  | [] => none
  | unit :: units =>
      if unit.mainSignature?.isSome then some (unit, units)
      else (splitMain? units).map fun found => (found.1, unit :: found.2)

def fitStageInputs (stage : Stage) (shader : Shader) : Checked (Shader × List LinkError) :=
  match stage, shader.geometry.input with
  | .geometry, some primitive => ArraySize.fitGeometryInputs primitive.vertices shader
  | _, _ => return (shader, [])

/-- Build the executable of a stage around its main unit. -/
def assemble (stage : Stage) (version : Nat) (units : List TranslationUnit)
    (resolutions : Resolutions) (blocks : List UniformBlock) (main : Shader)
    (others : List Shader) : Judged Shader := do
  let shaders := units.map (·.shader)
  let (layout, conflict) := geometryLayout stage version shaders
  let basis := { main with uniformBlocks := blocks, geometry := layout }
  let merged ← moveStatements basis others
  let libraries := shaders ++ units.flatMap (·.libraries)
  let resolved ← Judged.after conflict.toList (Resolution.resolveCalls libraries merged)
  let agreed ← resolved.adoptResolutions resolutions
  let (fitted, misfits) ← fitStageInputs stage agreed
  let sized ← ArraySize.sizeArrays fitted
  Judged.rejectAll (conflict.toList ++ misfits)
  return sized

/-- Merge the units of one stage into its executable. -/
def link (stage : Stage) (version : Nat) (limits : Limits) (units : List TranslationUnit) :
    Judged Shader := do
  let shaders := units.map (·.shader)
  let resolutions ← Declaration.resolve false shaders
  InterfaceBlock.checkUnits shaders
  let blocks ←
    match UniformBlock.ofUnits limits.uniformBlockSize shaders with
    | .ok blocks => pure blocks
    | .error cause => Judged.reject cause
  Definition.check shaders
  match splitMain? shaders with
  | none => Judged.reject (.missingMain stage)
  | some (main, others) => assemble stage version units resolutions blocks main others

end Merge
end StageLink
