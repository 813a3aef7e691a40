import StageLink.Stage
import StageLink.Ty.Text

/-!
# Diagnostics

Everything that a link can complain about, by cause.  `LinkError.message` is the wording of a
complaint and `LinkError.kind` its broad category; the same cause may be reported as an error or, if
the limit it concerns is not enforced, as a warning.
-/

namespace StageLink

/-- The broad category of a diagnostic. -/
inductive ErrorKind where
  /-- Declarations of the same global disagree. -/
  | crossDeclaration
  /-- There is no `main`, or a stage that the dialect requires is absent. -/
  | missingEntryPoint
  /-- Two units define the same signature. -/
  | multiplyDefined
  /-- A rule of one stage is violated. -/
  | stageSemantic
  /-- An output of a stage disagrees with the input of the next. -/
  | interfaceMismatch
  /-- An allocation failed, or a counted resource is over its limit. -/
  | resourceExhausted
  /-- A called function is defined nowhere. -/
  | unresolvedReference
  /-- A function calls itself, directly or indirectly. -/
  | recursion
  /-- A request for transform feedback cannot be met. -/
  | transformFeedback
  /-- Units disagree on dialect or version. -/
  | version
  deriving DecidableEq

/-- The cause of a diagnostic. -/
inductive LinkError where
  | typeMismatch (storage name : String) (new existing : Ty)
  | locationMismatch (storage name : String)
  | bindingMismatch (storage name : String)
  | atomicOffsetMismatch (storage name : String)
  | depthRedeclared
  | depthLayoutDiffers
  | initializerMismatch (storage name : String)
  | multipleInitializers (name : String)
  | invariantMismatch (storage name : String)
  | centroidMismatch (storage name : String)
  | interfaceBlockMismatch (name : String)
  | uniformBlockMismatch (name : String)
  | uniformBlockTooBig (name : String) (size limit : Nat)
  | multiplyDefined (function : String)
  | missingMain (stage : Stage)
  | unresolvedFunction (function : String)
  | staticRecursion (function : String)
  | conflictingGeometryInput
  | conflictingGeometryOutput
  | conflictingVerticesOut (previous declared : Nat)
  | missingGeometryInput
  | missingGeometryOutput
  | missingMaxVertices
  | geometryInputSize (name : String) (size vertices : Nat)
  | geometryInputAccess (name : String) (index vertices : Nat)
  | missingPositionWrite
  | clipVertexAndDistance (stage : Stage)
  | colorAndData
  | boundaryTypeMismatch (producer consumer : Stage) (name : String) (output input : Ty)
  | boundaryCentroidMismatch (producer consumer : Stage) (name : String) (output input : Bool)
  | boundaryInvariantMismatch (producer consumer : Stage) (name : String) (output input : Bool)
  | interpolationMismatch (producer consumer : Stage) (name output input : String)
  | invalidExplicitLocation (location : Nat) (name : String)
  /-- The target says what was to be placed. -/
  | insufficientLocations (target name : String)
  | tooManyOutputComponents (stage : Stage) (used limit : Nat)
  | tooManyInputComponents (stage : Stage) (used limit : Nat)
  | tooManySamplers (stage : Stage)
  | tooManyDefaultComponents (stage : Stage)
  | defaultComponentsOverLimit (stage : Stage)
  | tooManyUniformComponents (stage : Stage)
  | uniformComponentsOverLimit (stage : Stage)
  | tooManyCombinedBlocks (count limit : Nat)
  | tooManyUniformBlocks (stage : Stage) (count limit : Nat)
  | versionMismatch
  | geometryWithoutVertex
  | missingVertexShader
  | missingFragmentShader
  | feedbackWithoutVertexStage
  | feedbackDuplicate (name : String)
  | feedbackUndefined (name : String)
  | feedbackIndexOutOfRange (name : String) (index size : Nat)
  | feedbackIndexOnNonArray (name : String)
  | tooManyInterleavedComponents (used limit : Nat)
  | tooManySeparateComponents (name : String) (used limit : Nat)
  | tooManyFeedbackBuffers (used limit : Nat)
  deriving DecidableEq

namespace LinkError

/-- The verb that says whether a side has a qualifier. -/
def hasOrLacks (present : Bool) : String := if present then "has" else "lacks"

/-- What is added to a limit that is not enforced. -/
def notEnforced : String :=
  "but the driver will try to optimize them out; this is non-portable out-of-spec behavior"

/-- The wording of a disagreement about a qualifier between two stages. -/
def qualifierMismatch (qualifier : String) (producer consumer : Stage) (name : String)
    (output input : Bool) : String :=
  let outputSide := s!"{producer.name} shader output `{name}' {hasOrLacks output}"
  let inputSide := s!"{consumer.name} shader input {hasOrLacks input}"
  s!"{outputSide} {qualifier} qualifier, but {inputSide} {qualifier} qualifier"

/-- The wording of a diagnostic. -/
def message : LinkError → String
  | typeMismatch storage name new existing =>
      s!"{storage} `{name}' declared as type `{new.text}' and type `{existing.text}'"
  | locationMismatch storage name =>
      s!"explicit locations for {storage} `{name}' have differing values"
  | bindingMismatch storage name =>
      s!"explicit bindings for {storage} `{name}' have differing values"
  | atomicOffsetMismatch storage name =>
      s!"offset specifications for {storage} `{name}' have differing values"
  | depthRedeclared =>
      "All redeclarations of gl_FragDepth in all fragment shaders in a single program must have "
        ++ "the same set of qualifiers."
  | depthLayoutDiffers =>
      "If gl_FragDepth is redeclared with a layout qualifier in any fragment shader, it must be "
        ++ "redeclared with the same layout qualifier in all fragment shaders that have "
        ++ "assignments to gl_FragDepth"
  | initializerMismatch storage name =>
      s!"initializers for {storage} `{name}' have differing values"
  | multipleInitializers name =>
      s!"shared global variable `{name}' has multiple non-constant initializers."
  | invariantMismatch storage name =>
      s!"declarations for {storage} `{name}' have mismatching invariant qualifiers"
  | centroidMismatch storage name =>
      s!"declarations for {storage} `{name}' have mismatching centroid qualifiers"
  | interfaceBlockMismatch name => s!"definitions of interface block `{name}' do not match"
  | uniformBlockMismatch name => s!"uniform block `{name}' has mismatching definitions"
  | uniformBlockTooBig name size limit => s!"uniform block `{name}' too big ({size}/{limit})"
  | multiplyDefined function => s!"function `{function}' is multiply defined"
  | missingMain stage => s!"{stage.name} shader lacks `main'"
  | unresolvedFunction function => s!"unresolved reference to function `{function}'"
  | staticRecursion function => s!"function `{function}' has static recursion"
  | conflictingGeometryInput => "geometry shader defined with conflicting input types"
  | conflictingGeometryOutput => "geometry shader defined with conflicting output types"
  | conflictingVerticesOut previous declared =>
      "geometry shader defined with conflicting output vertex count "
        ++ s!"({previous} and {declared})"
  | missingGeometryInput => "geometry shader didn't declare primitive input type"
  | missingGeometryOutput => "geometry shader didn't declare primitive output type"
  | missingMaxVertices => "geometry shader didn't declare max_vertices"
  | geometryInputSize name size vertices =>
      s!"size of array {name} declared as {size}, but number of input vertices is {vertices}"
  | geometryInputAccess name index vertices =>
      s!"geometry shader accesses element {index} of {name}, but only {vertices} input vertices"
  | missingPositionWrite => "vertex shader does not write to `gl_Position'"
  | clipVertexAndDistance stage =>
      s!"{stage.name} shader writes to both `gl_ClipVertex' and `gl_ClipDistance'"
  | colorAndData => "fragment shader writes to both `gl_FragColor' and `gl_FragData'"
  | boundaryTypeMismatch producer consumer name output input =>
      s!"{producer.name} shader output `{name}' declared as type `{output.text}', "
        ++ s!"but {consumer.name} shader input declared as type `{input.text}'"
  | boundaryCentroidMismatch producer consumer name output input =>
      qualifierMismatch "centroid" producer consumer name output input
  | boundaryInvariantMismatch producer consumer name output input =>
      qualifierMismatch "invariant" producer consumer name output input
  | interpolationMismatch producer consumer name output input =>
      s!"{producer.name} shader output `{name}' specifies {output} interpolation qualifier, "
        ++ s!"but {consumer.name} shader input specifies {input} interpolation qualifier"
  | invalidExplicitLocation location name =>
      s!"invalid explicit location {location} specified for `{name}'"
  | insufficientLocations target name =>
      s!"insufficient contiguous locations available for {target} `{name}'"
  | tooManyOutputComponents stage used limit =>
      s!"{stage.name} shader uses too many output components ({used} > {limit})"
  | tooManyInputComponents stage used limit =>
      s!"{stage.name} shader uses too many input components ({used} > {limit})"
  | tooManySamplers stage => s!"Too many {stage.name} shader texture samplers"
  | tooManyDefaultComponents stage =>
      s!"Too many {stage.name} shader default uniform block components"
  | defaultComponentsOverLimit stage =>
      s!"Too many {stage.name} shader default uniform block components, " ++ notEnforced
  | tooManyUniformComponents stage => s!"Too many {stage.name} shader uniform components"
  | uniformComponentsOverLimit stage =>
      s!"Too many {stage.name} shader uniform components, " ++ notEnforced
  | tooManyCombinedBlocks count limit => s!"Too many combined uniform blocks ({count}/{limit})"
  | tooManyUniformBlocks stage count limit =>
      s!"Too many {stage.name} uniform blocks ({count}/{limit})"
  | versionMismatch => "all shaders must use same shading language version"
  | geometryWithoutVertex => "Geometry shader must be linked with vertex shader"
  | missingVertexShader => "program lacks a vertex shader"
  | missingFragmentShader => "program lacks a fragment shader"
  | feedbackWithoutVertexStage =>
      "Transform feedback varyings specified, but no vertex or geometry shader is present."
  | feedbackDuplicate name => s!"Transform feedback varying {name} specified more than once."
  | feedbackUndefined name => s!"Transform feedback varying {name} undefined."
  | feedbackIndexOutOfRange name index size =>
      s!"Transform feedback varying {name} has index {index}, but the array size is {size}."
  | feedbackIndexOnNonArray name =>
      s!"Transform feedback varying {name} is not an array, but an index was specified."
  | tooManyInterleavedComponents used limit =>
      s!"Too many feedback components in interleaved mode ({used}/{limit})"
  | tooManySeparateComponents name used limit =>
      s!"Transform feedback varying {name} exceeds the separate mode component limit "
        ++ s!"({used}/{limit})"
  | tooManyFeedbackBuffers used limit =>
      s!"Too many feedback buffers in separate mode ({used}/{limit})"

/-- The category of a diagnostic. -/
def kind : LinkError → ErrorKind
  | typeMismatch .. | locationMismatch .. | bindingMismatch .. | atomicOffsetMismatch ..
  | depthRedeclared | depthLayoutDiffers | initializerMismatch .. | multipleInitializers _
  | invariantMismatch .. | centroidMismatch .. | interfaceBlockMismatch _
  | uniformBlockMismatch _ => .crossDeclaration
  | missingMain _ | missingVertexShader | missingFragmentShader => .missingEntryPoint
  | multiplyDefined _ => .multiplyDefined
  | unresolvedFunction _ => .unresolvedReference
  | staticRecursion _ => .recursion
  | conflictingGeometryInput | conflictingGeometryOutput | conflictingVerticesOut ..
  | missingGeometryInput | missingGeometryOutput | missingMaxVertices | geometryInputSize ..
  | geometryInputAccess .. | missingPositionWrite | clipVertexAndDistance _ | colorAndData
  | geometryWithoutVertex => .stageSemantic
  | boundaryTypeMismatch .. | boundaryCentroidMismatch .. | boundaryInvariantMismatch ..
  | interpolationMismatch .. => .interfaceMismatch
  | uniformBlockTooBig .. | invalidExplicitLocation .. | insufficientLocations ..
  | tooManyOutputComponents .. | tooManyInputComponents .. | tooManySamplers _
  | tooManyDefaultComponents _ | defaultComponentsOverLimit _ | tooManyUniformComponents _
  | uniformComponentsOverLimit _ | tooManyCombinedBlocks .. | tooManyUniformBlocks .. =>
      .resourceExhausted
  | feedbackWithoutVertexStage | feedbackDuplicate _ | feedbackUndefined _
  | feedbackIndexOutOfRange .. | feedbackIndexOnNonArray _ | tooManyInterleavedComponents ..
  | tooManySeparateComponents .. | tooManyFeedbackBuffers .. => .transformFeedback
  | versionMismatch => .version

end LinkError
end StageLink
