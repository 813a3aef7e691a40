import StageLink.Interchange.Options
import StageLink.Interchange.Shader
import StageLink.Program

/-!
# Manifests

A manifest names the shaders of a program and holds what an application would set before linking:
bound locations, the varyings to be captured, and options.  A manifest has no members but these.
-/

namespace StageLink

/-- A program to be linked, but for its shaders, which are named only. -/
structure Manifest where
  /-- The files of the shaders in the order in which they are attached. -/
  shaders : List String
  attributes : NameTable Nat := {}
  fragmentData : NameTable Nat := {}
  fragmentIndices : NameTable Nat := {}
  feedback : FeedbackRequest := {}
  options : Options := {}

namespace Manifest

open Document

/-- Read a table of bound locations. -/
def readBindings (document : Document) : Decoded (NameTable Nat) :=
  NameTable.ofList <$> document.asTable asWord

/-- Read the request for transform feedback of a manifest. -/
def readFeedback (document : Document) : Decoded FeedbackRequest := do
  let members ← document.membersInOrder ["varyings", "mode"]
  members.restrictTo ["varyings", "mode"]
  FeedbackRequest.ofMembers members

/-- The members of a manifest. -/
def memberNames : List String :=
  ["shaders", "attribute_bindings", "frag_data_bindings", "frag_data_index_bindings",
    "transform_feedback", "options"]

def ofDocument (document : Document) : Decoded Manifest := do
  let members ← document.membersInOrder memberNames
  members.restrictTo memberNames
  return {
    shaders := ← members.required "shaders" (asList asText)
    attributes := ← members.optional "attribute_bindings" {} readBindings
    fragmentData := ← members.optional "frag_data_bindings" {} readBindings
    fragmentIndices := ← members.optional "frag_data_index_bindings" {} readBindings
    feedback := (← members.optional "transform_feedback" none (asOption readFeedback)).getD {}
    options := ← members.optional "options" {} Options.ofDocument }

def program (manifest : Manifest) (shaders : List Shader) : Program :=
  { units := shaders.map fun shader => { shader := shader }
    attributes := manifest.attributes
    fragmentData := manifest.fragmentData
    fragmentIndices := manifest.fragmentIndices
    feedback := manifest.feedback }

end Manifest
end StageLink
