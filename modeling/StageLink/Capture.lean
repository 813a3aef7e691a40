import StageLink.Capture.Name
import StageLink.Diagnostic.Judged
import StageLink.Limits
import StageLink.Shader

/-!
# Transform feedback

An application asks for outputs to be captured by name.  Each request is resolved against the
outputs of the last stage before rasterization, once these have their locations, and then gets its
place in the feedback buffers: all requests share one buffer, or each has a buffer of its own.
-/

namespace StageLink

/-- How captured varyings are laid out in buffers. -/
inductive FeedbackMode where
  /-- All in the first buffer, one after the other. -/
  | interleaved
  /-- Each in a buffer of its own. -/
  | separate
  deriving DecidableEq

/-- The varyings that an application wants captured. -/
structure FeedbackRequest where
  varyings : List String := []
  mode : FeedbackMode := .interleaved
  deriving DecidableEq

/-- What a request comes to. -/
structure Captured where
  /-- The varying slot; built-ins have none. -/
  location : Option Nat
  components : Nat
  ty : Ty

/-- One requested capture, resolved or not. -/
structure Capture where
  /-- The name as it was requested. -/
  requested : String
  name : ResourceName
  resolved : Option Captured := none

/-- The place of a captured varying in the feedback buffers. -/
structure CapturedVarying where
  /-- The name as it was requested. -/
  name : String
  buffer : Nat
  /-- The offset in the buffer, in components. -/
  offset : Nat
  location : Option Nat
  components : Nat
  ty : Ty

namespace Capture

/-- Take the requested names apart; none may be requested twice. -/
def parseFrom (sofar : List Capture) : List String → Judged (List Capture)
  | [] => return sofar
  | requested :: rest => do
      let name ← ResourceName.parse requested
      if sofar.any fun capture => capture.name = name then
        Judged.reject (.feedbackDuplicate requested)
      else
        parseFrom (sofar ++ [{ requested := requested, name := name }]) rest

/-- Take the requested names apart. -/
def parseAll (requested : List String) : Judged (List Capture) := parseFrom [] requested

/-- The first output of the given name among some globals. -/
def findOutput (producer : Shader) (name : String) : List VariableId → Checked (Option Variable)
  | [] => return none
  | id :: ids => do
      let declared ← producer.fetchVariable id
      if declared.mode = .shaderOut && declared.name = name then return some declared
      else findOutput producer name ids

/-- What a request for a variable, or for one of its elements, comes to. -/
def resolveAgainst (capture : Capture) (output : Variable) : Except LinkError Captured :=
  let located (offset : Nat) : Option Nat :=
    if output.isBuiltin then none else output.location.map fun base => wrap (base + offset)
  match capture.name.index, output.ty.element? with
  | none, _ => .ok ⟨located 0, output.ty.componentSlots, output.ty⟩
  | some _, none => .error (.feedbackIndexOnNonArray capture.requested)
  | some index, some element =>
      let size := output.ty.length?.getD 0
      if size ≤ index then
        .error (.feedbackIndexOutOfRange capture.requested index size)
      else
        .ok ⟨located (wrap (index * element.attributeSlots)), element.componentSlots, element⟩

def resolve (producer : Shader) (capture : Capture) : Judged Capture := do
  match ← findOutput producer capture.name.base producer.globals with
  | none => Judged.reject (.feedbackUndefined capture.requested)
  | some output =>
      match resolveAgainst capture output with
      | .ok captured => return { capture with resolved := some captured }
      | .error cause => Judged.reject cause

/-- The place of a resolved request in the buffers, given its position and the number of components
before it. -/
def place (mode : FeedbackMode) (limits : Limits) (position offset : Nat) (capture : Capture)
    (captured : Captured) : Except LinkError CapturedVarying :=
  let entry (buffer start : Nat) : CapturedVarying :=
    ⟨capture.requested, buffer, start, captured.location, captured.components, captured.ty⟩
  match mode with
  | .interleaved =>
      let used := wrap (offset + captured.components)
      if limits.interleavedComponents < used then
        .error (.tooManyInterleavedComponents used limits.interleavedComponents)
      else
        .ok (entry 0 offset)
  | .separate =>
      if limits.separateComponents < captured.components then
        .error (.tooManySeparateComponents capture.requested captured.components
          limits.separateComponents)
      else
        .ok (entry position 0)

def placeFrom (mode : FeedbackMode) (limits : Limits) :
    Nat → Nat → List Capture → Except LinkError (List CapturedVarying)
  | _, _, [] => .ok []
  | position, offset, capture :: captures =>
      match capture.resolved with
      | none => .error (.feedbackUndefined capture.requested)
      | some captured => do
          let entry ← place mode limits position offset capture captured
          let entries ←
            placeFrom mode limits (position + 1) (wrap (offset + captured.components)) captures
          return entry :: entries

/-- The places of all requests in the buffers. -/
def placeAll (mode : FeedbackMode) (limits : Limits) (captures : List Capture) :
    Except LinkError (List CapturedVarying) :=
  if mode = .separate && limits.feedbackBuffers < captures.length then
    .error (.tooManyFeedbackBuffers captures.length limits.feedbackBuffers)
  else
    placeFrom mode limits 0 0 captures

end Capture
end StageLink
