import StageLink.Capture
import StageLink.Document
import StageLink.Limits

/-!
# Options as documents

Limits, options and the request for transform feedback.  What is absent keeps its default.
-/

namespace StageLink

open Document

namespace PerStage

def toDocument {Value : Type} (write : Value → Document) (values : PerStage Value) : Document :=
  listOf write values.toList

def ofDocument {Value : Type} (read : Document → Decoded Value) (document : Document) :
    Decoded (PerStage Value) := do
  match ← document.itemsUpTo 3 with
  | [vertex, geometry, fragment] =>
      return ⟨← read vertex.val, ← read geometry.val, ← read fragment.val⟩
  | _ => throw (.wrongKind "a list of three")

end PerStage

namespace Limits

/-- The members of the record of limits. -/
def memberNames : List String :=
  ["max_vertex_attribs", "max_draw_buffers", "max_dual_source_draw_buffers",
    "max_varying_components", "max_output_components", "max_input_components",
    "max_texture_image_units", "max_uniform_components", "max_combined_uniform_components",
    "max_uniform_blocks", "max_combined_uniform_blocks", "max_uniform_block_size",
    "max_transform_feedback_interleaved_components",
    "max_transform_feedback_separate_components", "max_transform_feedback_buffers"]

/-- Write limits. -/
def toDocument (limits : Limits) : Document :=
  let stages := PerStage.toDocument natural
  .record <| memberNames.zip
    [natural limits.vertexAttributes, natural limits.drawBuffers,
      natural limits.dualSourceDrawBuffers, natural limits.varyingComponents,
      stages limits.outputComponents, stages limits.inputComponents, stages limits.textureUnits,
      stages limits.uniformComponents, stages limits.combinedUniformComponents,
      stages limits.uniformBlocks, natural limits.combinedUniformBlocks,
      natural limits.uniformBlockSize, natural limits.interleavedComponents,
      natural limits.separateComponents, natural limits.feedbackBuffers]

/-- Read limits. -/
def ofDocument (document : Document) : Decoded Limits := do
  let members ← document.membersInOrder memberNames
  let usual : Limits := {}
  let word (name : String) (default : Nat) := members.optional name default asWord
  let words (name : String) (default : PerStage Nat) :=
    members.optional name default (PerStage.ofDocument asWord)
  return {
    vertexAttributes := ← word "max_vertex_attribs" usual.vertexAttributes
    drawBuffers := ← word "max_draw_buffers" usual.drawBuffers
    dualSourceDrawBuffers := ← word "max_dual_source_draw_buffers" usual.dualSourceDrawBuffers
    varyingComponents := ← word "max_varying_components" usual.varyingComponents
    outputComponents := ← words "max_output_components" usual.outputComponents
    inputComponents := ← words "max_input_components" usual.inputComponents
    textureUnits := ← words "max_texture_image_units" usual.textureUnits
    uniformComponents := ← words "max_uniform_components" usual.uniformComponents
    combinedUniformComponents :=
      ← words "max_combined_uniform_components" usual.combinedUniformComponents
    uniformBlocks := ← words "max_uniform_blocks" usual.uniformBlocks
    combinedUniformBlocks := ← word "max_combined_uniform_blocks" usual.combinedUniformBlocks
    uniformBlockSize := ← word "max_uniform_block_size" usual.uniformBlockSize
    interleavedComponents :=
      ← word "max_transform_feedback_interleaved_components" usual.interleavedComponents
    separateComponents :=
      ← word "max_transform_feedback_separate_components" usual.separateComponents
    feedbackBuffers := ← word "max_transform_feedback_buffers" usual.feedbackBuffers }

end Limits

namespace Options

/-- Write options. -/
def toDocument (options : Options) : Document :=
  .record
    [("limits", options.limits.toDocument),
      ("skip_strict_max_uniform_limit_check", .bool options.lenientUniforms),
      ("api_es2", .bool options.embeddedApi)]

/-- Read options. -/
def ofDocument (document : Document) : Decoded Options := do
  let members ← document.membersInOrder
    ["limits", "skip_strict_max_uniform_limit_check", "api_es2"]
  return {
    limits := ← members.optional "limits" {} Limits.ofDocument
    lenientUniforms := ← members.optional "skip_strict_max_uniform_limit_check" false asBool
    embeddedApi := ← members.optional "api_es2" false asBool }

end Options

def FeedbackMode.naming : Naming FeedbackMode where
  all := [.interleaved, .separate]
  name
    | .interleaved => "interleaved"
    | .separate => "separate"

namespace FeedbackRequest

def ofMembers {whole : Document} (members : Members whole) : Decoded FeedbackRequest := do
  let mode ← members.optional "mode" none (asOption FeedbackMode.naming.read)
  return {
    varyings := ← members.required "varyings" (asList asText)
    mode := mode.getD .interleaved }

/-- Read a request for transform feedback, which has to name its members. -/
def ofDocument (document : Document) : Decoded FeedbackRequest := do
  ofMembers (← document.members)

end FeedbackRequest
end StageLink
