import StageLink.Call.Recursion
import StageLink.Optimize.Pass
import StageLink.Program
import StageLink.Shader.Compact
import StageLink.Slot.Varying
import StageLink.Uniform.Quota
import StageLink.Uniform.Shrink

/-!
# Linking

A link runs in phases.  The units of each stage are merged and checked; the interfaces between the
stages are compared; the executables are optimized; locations are assigned, from the last boundary
to the first, so that outputs that no later stage needs are gone before an earlier boundary is
allocated; and the uniforms are listed and counted.  A phase that fails reports why and ends the
link.  What has been stored until then stays, and every executable is compacted in the end.
-/

namespace StageLink

/-- The end of a link that cannot go on.  The reason is in the log. -/
inductive Halt where
  | halt
  deriving DecidableEq

/-- A phase of a link, which works on the outcome and may end the link. -/
abbrev Linking := ExceptT Halt (StateT Outcome Checked)

namespace Linking

/-- Report some errors and end the link. -/
def fail {Result : Type} (causes : List LinkError) : Linking Result := do
  modify fun outcome => { outcome with log := outcome.log.errors causes }
  throw .halt

def settle {Result : Type} (check : Judged Result) : Linking Result := do
  match ← (monadLift check.run : StateT Outcome Checked (Except (List LinkError) Result)) with
  | .ok result => return result
  | .error causes => fail causes

/-- Take a result, ending the link with the error if there is none. -/
def accept {Result : Type} : Except LinkError Result → Linking Result
  | .ok result => return result
  | .error cause => fail [cause]

/-- End the link if there is a failure. -/
def surrender : Option LinkError → Linking Unit
  | none => return ()
  | some cause => fail [cause]

def store (stage : Stage) (shader : Shader) : Linking Unit :=
  modify fun outcome =>
    { outcome with executables := outcome.executables.set stage (some shader) }

def withExecutable (stage : Stage) (action : Shader → Linking Unit) : Linking Unit := do
  match (← get).executables.get stage with
  | some shader => action shader
  | none => return ()

/-- Change all executables in pipeline order. -/
def updateExecutables (change : Shader → Linking Shader) : Linking Unit :=
  Stage.all.forM fun stage => withExecutable stage fun shader => do
    store stage (← change shader)

/-! ## Units -/

/-- The version and dialect of a program.  Dialects do not mix, and units of the embedded dialect
all have one version. -/
def dialectOf (units : List Shader) : Except LinkError (Nat × Bool) :=
  let isEs := (units.head?.map (·.isEs)).getD false
  let version := (units.map (·.version)).foldl max 0
  if units.any (·.isEs ≠ isEs) then .error .versionMismatch
  else if isEs && units.any (·.version ≠ version) then .error .versionMismatch
  else .ok (version, isEs)

/-- Check that the units go together. -/
def checkVersions (units : List TranslationUnit) : Linking Unit := do
  let shaders := units.map (·.shader)
  let (version, isEs) ← accept (dialectOf shaders)
  modify fun outcome => { outcome with version := version, isEs := isEs }
  if shaders.any (·.stage = .geometry) && !shaders.any (·.stage = .vertex) then
    fail [.geometryWithoutVertex]

/-- Keep what the check of a stage has found out. -/
def keepInfo (info : StageInfo) (outcome : Outcome) : Outcome :=
  match info with
  | .vertex clip => { outcome with vertex := clip, lastClipDistanceSize := clip.clipDistanceSize }
  | .geometry info =>
      { outcome with geometry := info, lastClipDistanceSize := info.clip.clipDistanceSize }
  | .fragment => outcome

/-- Merge the units of a stage, if there are any, and check the executable. -/
def linkStage (limits : Limits) (units : List TranslationUnit) (stage : Stage) : Linking Unit := do
  let ofStage := units.filter (·.shader.stage = stage)
  unless ofStage.isEmpty do
    let outcome ← get
    let shader ← settle (Merge.link stage outcome.version limits ofStage)
    let info ← settle (StageRules.check shader outcome.version outcome.isEs)
    modify (keepInfo info)
    store stage shader

/-- Merge and check the stages one by one. -/
def linkStages (limits : Limits) (units : List TranslationUnit) : Linking Unit :=
  [Stage.vertex, .fragment, .geometry].forM (linkStage limits units)

/-! ## Interfaces -/

def neighbours {Item : Type} (items : List Item) : List (Item × Item) := items.zip items.tail

/-- Compare the two sides of a boundary. -/
def checkBoundary (producer consumer : Shader) : Linking Unit := do
  settle (InterfaceBlock.checkBoundary producer consumer)
  settle (Boundary.check producer consumer)

/-- Compare uniforms among all stages, then each stage with the next, then uniform blocks. -/
def linkInterfaces : Linking Unit := do
  let resolutions ← settle (Declaration.resolve true (← get).present)
  updateExecutables fun shader => monadLift (shader.adoptResolutions resolutions)
  (neighbours (← get).present).forM fun pair => checkBoundary pair.1 pair.2
  let (blocks, positions) ← accept (UniformBlock.ofProgram (← get).executables)
  modify fun outcome => { outcome with uniformBlocks := blocks, blockPositions := positions }

/-! ## Optimization -/

/-- Optimize the executables, none of which may have recursion. -/
def optimize : Linking Unit :=
  updateExecutables fun shader => do
    settle (Recursion.check shader)
    return shader.optimizeFully

/-! ## Locations -/

def assignAttributes (stage : Stage) (target : AttributeTarget) (limit : Nat)
    (bindings : Bindings) : Linking Unit :=
  withExecutable stage fun shader => do
    let (allocated, failure) ← Attribute.allocate target limit bindings shader
    store stage allocated
    surrender failure

/-- The requested captures.  They need a stage before the fragment stage. -/
def requestedCaptures (request : FeedbackRequest) (first : Stage) : Linking (List Capture) :=
  if request.varyings.isEmpty then
    return []
  else if first = .fragment then
    fail [.feedbackWithoutVertexStage]
  else
    settle (Capture.parseAll request.varyings)

/-- Resolve captures against the outputs of a stage. -/
def resolveCaptures (producer : Shader) (captures : List Capture) : Linking (List Capture) :=
  captures.mapM fun capture => settle (Capture.resolve producer capture)

def demote (mode : VariableMode) (shader : Shader) : Linking Shader :=
  monadLift (shader.modifyGlobals (Varying.demote mode))

/-- Allocate the captured outputs of a last stage that is no fragment stage. -/
def assignLastOutputs (limit : Nat) (stage : Stage) (captures : List Capture) (shader : Shader) :
    Linking (List Capture) := do
  if captures.isEmpty then
    return captures
  else
    let captured := captures.map (·.name.base)
    let (allocation, failure) ← Varying.allocate captured limit shader none
    store stage allocation.producer
    surrender failure
    resolveCaptures allocation.producer captures

/-- See to the open end of the pipeline: the outputs of a last stage that is no fragment stage, and
the inputs of a fragment stage that stands alone. -/
def assignOpenEnd (limit : Nat) (first last : Stage) (captures : List Capture) :
    Linking (List Capture) := do
  match (← get).executables.get last with
  | none => return captures
  | some shader =>
      if last ≠ .fragment then
        let resolved ← assignLastOutputs limit last captures shader
        withExecutable last fun allocated => do
          store last (← demote .shaderOut allocated).removeAllDeadCode
        return resolved
      else if first = .fragment then
        store last (← demote .shaderIn shader).removeAllDeadCode
        return captures
      else
        return captures

/-- The captures when the boundary before a stage has been allocated: they are outputs of the stage
before the fragment stage. -/
def capturesBefore (consumerStage : Stage) (producer : Shader) (captures : List Capture) :
    Linking (List Capture) :=
  if consumerStage = .fragment then resolveCaptures producer captures else return captures

/-- Drop what neither side of a boundary needs any more, and check what is left. -/
def clearBoundary (limits : Limits) (producerStage consumerStage : Stage)
    (producer consumer : Shader) : Linking Unit := do
  let producer := (← demote .shaderOut producer).removeAllDeadCode
  let consumer := (← demote .shaderIn consumer).removeAllDeadCode
  store producerStage producer
  store consumerStage consumer
  settle (Varying.checkOutputs limits producer)
  settle (Varying.checkInputs limits consumer)

def capturedBefore (consumerStage : Stage) (captures : List Capture) : List String :=
  if consumerStage = .fragment then captures.map (·.name.base) else []

/-- Allocate the varyings between two stages. -/
def assignBoundary (limits : Limits) (producerStage consumerStage : Stage)
    (captures : List Capture) : Linking (List Capture) := do
  let executables := (← get).executables
  match executables.get producerStage, executables.get consumerStage with
  | some producer, some consumer =>
      let (allocation, failure) ←
        Varying.allocate (capturedBefore consumerStage captures) limits.varyingSlots producer
          (some consumer)
      let consumer := allocation.consumer.getD consumer
      store producerStage allocation.producer
      store consumerStage consumer
      surrender failure
      let resolved ← capturesBefore consumerStage allocation.producer captures
      clearBoundary limits producerStage consumerStage allocation.producer consumer
      return resolved
  | _, _ => return captures

/-- Allocate the varyings between some pairs of stages, one after the other. -/
def assignBoundaries (limits : Limits) :
    List (Stage × Stage) → List Capture → Linking (List Capture)
  | [], captures => return captures
  | (producer, consumer) :: rest, captures => do
      assignBoundaries limits rest (← assignBoundary limits producer consumer captures)

/-- Assign all locations, and lay out the captured varyings. -/
def assignLocations (limits : Limits) (program : Program) : Linking Unit := do
  updateExecutables fun shader => monadLift (shader.modifyGlobals Varying.invalidate)
  assignAttributes .vertex .vertexInputs limits.vertexAttributes ⟨program.attributes, {}⟩
  assignAttributes .fragment .fragmentOutputs limits.colorOutputs
    ⟨program.fragmentData, program.fragmentIndices⟩
  let stages := (← get).presentStages
  match stages.head?, stages.getLast? with
  | some first, some last =>
      let requested ← requestedCaptures program.feedback first
      let captures ← assignOpenEnd limits.varyingSlots first last requested
      let resolved ← assignBoundaries limits (neighbours stages).reverse captures
      let captured ← accept (Capture.placeAll program.feedback.mode limits resolved)
      modify fun outcome => { outcome with captured := captured }
  | _, _ => return ()

/-! ## Uniforms -/

/-- The depth layout of the depth output among some globals. -/
def depthLayoutOf (shader : Shader) : List VariableId → Checked DepthLayout
  | [] => return .none
  | id :: ids => do
      let declared ← shader.fetchVariable id
      if declared.mode = .shaderOut && declared.name = "gl_FragDepth" then
        return declared.depthLayout
      else
        depthLayoutOf shader ids

/-- List the uniforms and check that nothing is over its limit. -/
def assignUniforms (options : Options) : Linking Unit := do
  let highest := Uniform.highestAccess (← get).present
  updateExecutables fun shader => monadLift (Uniform.resizeArrays highest shader)
  let (uniforms, usages) ← Uniform.storage (← get).executables
  modify fun outcome => { outcome with uniforms := uniforms, usages := usages }
  withExecutable .fragment fun shader => do
    let layout ← depthLayoutOf shader shader.globals
    modify fun outcome => { outcome with depthLayout := layout }
  modify fun outcome =>
    let overruns :=
      Uniform.overruns options outcome.presentStages outcome.usages outcome.blockPositions
    { outcome with log := ⟨outcome.log.entries ++ overruns⟩ }
  if (← get).log.hasErrors then
    throw .halt

def checkRequiredStages (options : Options) : Linking Unit := do
  let outcome ← get
  if options.embeddedApi || outcome.isEs then
    if outcome.executables.vertex.isNone then
      fail [.missingVertexShader]
    else if outcome.executables.fragment.isNone then
      fail [.missingFragmentShader]

/-- All phases of a link. -/
def phases (options : Options) (program : Program) : Linking Unit := do
  checkVersions program.units
  linkStages options.limits program.units
  linkInterfaces
  optimize
  assignLocations options.limits program
  assignUniforms options
  checkRequiredStages options

end Linking

namespace Outcome

def compactExecutable : Option Shader → Checked (Option Shader)
  | none => return none
  | some shader => return some (← shader.compact)

def compactAll (outcome : Outcome) : Checked Outcome := do
  let vertex ← compactExecutable outcome.executables.vertex
  let geometry ← compactExecutable outcome.executables.geometry
  let fragment ← compactExecutable outcome.executables.fragment
  return { outcome with executables := ⟨vertex, geometry, fragment⟩ }

end Outcome

namespace Program

/-- Link a program.  The outcome of an earlier link is lost. -/
def link (options : Options) (program : Program) : Checked Program := do
  let (_, reached) ← ((Linking.phases options program).run).run {}
  let outcome ← reached.compactAll
  return { program with outcome := outcome, linked := !outcome.log.hasErrors }

end Program
end StageLink
