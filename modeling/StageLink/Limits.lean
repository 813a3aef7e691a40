import StageLink.Stage

/-!
# Limits and options

The limits of an implementation, with the least values that the language demands as defaults, and
the options of a link.
-/

namespace StageLink

/-- The limits of an implementation. -/
structure Limits where
  vertexAttributes : Nat := 16
  drawBuffers : Nat := 8
  dualSourceDrawBuffers : Nat := 1
  /-- Components for generic varyings at each boundary between stages. -/
  varyingComponents : Nat := 64
  outputComponents : PerStage Nat := ⟨64, 128, 0⟩
  inputComponents : PerStage Nat := ⟨0, 64, 128⟩
  textureUnits : PerStage Nat := .constant 16
  uniformComponents : PerStage Nat := .constant 1024
  combinedUniformComponents : PerStage Nat := .constant (1024 + 12 * 16384 / 4)
  uniformBlocks : PerStage Nat := .constant 12
  combinedUniformBlocks : Nat := 36
  /-- The size of a uniform block in bytes. -/
  uniformBlockSize : Nat := 16384
  interleavedComponents : Nat := 64
  separateComponents : Nat := 4
  feedbackBuffers : Nat := 4
  deriving DecidableEq

/-- The options of a link. -/
structure Options where
  limits : Limits := {}
  /-- Report too many uniform components as a warning only. -/
  lenientUniforms : Bool := false
  /-- The interface itself is the embedded one, which needs both a vertex and a fragment stage. -/
  embeddedApi : Bool := false
  deriving DecidableEq

/-- The number of slots for varyings at a boundary between stages. -/
def Limits.varyingSlots (limits : Limits) : Nat := min (limits.varyingComponents / 4) 32

/-- The number of slots for fragment outputs. -/
def Limits.colorOutputs (limits : Limits) : Nat :=
  max limits.drawBuffers limits.dualSourceDrawBuffers

/-- A short description of some options. -/
def Options.text (options : Options) : String :=
  let limits := options.limits
  let strict := !options.lenientUniforms
  "LinkOptions \x7b "
    ++ s!"vertex_attribs: {limits.vertexAttributes}, draw_buffers: {limits.drawBuffers}, "
    ++ s!"varying_components: {limits.varyingComponents}, "
    ++ s!"strict_uniform_limits: {strict}, api_es2: {options.embeddedApi} \x7d"

end StageLink
