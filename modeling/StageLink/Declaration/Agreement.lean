import StageLink.Diagnostic.Judged
import StageLink.Shader

/-!
# Agreement of declarations

Globals of the same name in several shaders are one object and must be declared compatibly.  What
one declaration leaves open, another may fill in: the length of an array, a location or binding, an
initial value.  The result is one resolved declaration for each name, which is then copied onto the
globals of linked executables.
-/

namespace StageLink

/-- The resolved declarations by name. -/
abbrev Resolutions := NameTable Variable

namespace Declaration

/-- Whether two types are arrays of the same elements of which one has no length yet. -/
def unifiable (left right : Ty) : Bool :=
  left.isArray && right.isArray && left.element? = right.element?
    && (left.isUnsizedArray || right.isUnsizedArray)

/-- The resolved type, an array being given the length that either declaration has. -/
def unifyType (existing declared : Variable) : Except LinkError Variable :=
  if declared.ty = existing.ty then
    .ok existing
  else if !unifiable declared.ty existing.ty then
    .error (.typeMismatch declared.storage declared.name declared.ty existing.ty)
  else if declared.ty.isUnsizedArray then
    .ok existing
  else
    .ok { existing with ty := declared.ty }

/-- The resolved location. -/
def unifyLocation (existing declared : Variable) : Except LinkError Variable :=
  if !declared.explicitLocation then
    .ok existing
  else if existing.explicitLocation && declared.location ≠ existing.location then
    .error (.locationMismatch declared.storage declared.name)
  else
    .ok { existing with location := declared.location, explicitLocation := true }

/-- The resolved binding. -/
def unifyBinding (existing declared : Variable) : Except LinkError Variable :=
  if !declared.explicitBinding then
    .ok existing
  else if existing.explicitBinding && declared.binding ≠ existing.binding then
    .error (.bindingMismatch declared.storage declared.name)
  else
    .ok { existing with binding := declared.binding, explicitBinding := true }

/-- Atomic counters must lie at the same offset. -/
def unifyAtomicOffset (existing declared : Variable) : Except LinkError Variable :=
  if declared.ty.containsAtomic && declared.atomicOffset ≠ existing.atomicOffset then
    .error (.atomicOffsetMismatch declared.storage declared.name)
  else
    .ok existing

def unifyInitializer (existing declared : Variable) : Except LinkError Variable :=
  match declared.constantInitializer, existing.constantInitializer with
  | none, _ => .ok existing
  | some value, some first =>
      if first.sameValue value then .ok existing
      else .error (.initializerMismatch declared.storage declared.name)
  | some value, none => .ok { existing with constantInitializer := some value }

/-- Of several initializers, all must be constant. -/
def unifyInitialization (existing declared : Variable) : Except LinkError Variable :=
  if !declared.hasInitializer then
    .ok existing
  else if existing.hasInitializer
      && (declared.constantInitializer.isNone || existing.constantInitializer.isNone) then
    .error (.multipleInitializers declared.name)
  else
    .ok { existing with hasInitializer := true }

/-- Qualifiers must be the same. -/
def unifyQualifiers (existing declared : Variable) : Except LinkError Variable :=
  if existing.invariant ≠ declared.invariant then
    .error (.invariantMismatch declared.storage declared.name)
  else if existing.centroid ≠ declared.centroid then
    .error (.centroidMismatch declared.storage declared.name)
  else
    .ok existing

/-- What is resolved before the depth layout is looked at. -/
def unifyPlacement (existing declared : Variable) : Except LinkError Variable := do
  let existing ← unifyType existing declared
  let existing ← unifyLocation existing declared
  let existing ← unifyBinding existing declared
  unifyAtomicOffset existing declared

/-- What is resolved after the depth layout has been looked at. -/
def unifyValue (existing declared : Variable) : Except LinkError Variable := do
  let existing ← unifyInitializer existing declared
  let existing ← unifyInitialization existing declared
  unifyQualifiers existing declared

/-- Disagreements about the layout of the depth output, which do not stop the comparison. -/
def depthLayoutErrors (existing declared : Variable) : List LinkError :=
  if declared.name = "gl_FragDepth" && declared.depthLayout ≠ existing.depthLayout then
    (if declared.depthLayout ≠ .none then [.depthRedeclared] else [])
      ++ (if declared.used then [.depthLayoutDiffers] else [])
  else
    []

/-- Fold a declaration into the one resolved so far.  The errors are all that were found, the last
of them being the one that stopped the comparison if there is no result. -/
def merge (existing declared : Variable) : List LinkError × Option Variable :=
  match unifyPlacement existing declared with
  | .error cause => ([cause], none)
  | .ok existing =>
      let errors := depthLayoutErrors existing declared
      match unifyValue existing declared with
      | .error cause => (errors ++ [cause], none)
      | .ok resolved => (errors, some resolved)

/-- Whether a global takes part in the comparison. -/
def isCompared (uniformsOnly : Bool) (declared : Variable) : Bool :=
  if uniformsOnly then declared.mode = .uniform else declared.mode ≠ .temporary

/-- Fold the globals of some shaders into the declarations resolved so far. -/
def resolveFrom (uniformsOnly : Bool) :
    List LinkError → Resolutions → List (Shader × VariableId) → Judged Resolutions
  | errors, resolved, [] => do
      Judged.rejectAll errors
      return resolved
  | errors, resolved, (shader, id) :: rest => do
      let declared ← shader.fetchVariable id
      if isCompared uniformsOnly declared then
        match resolved.get? declared.name with
        | none => resolveFrom uniformsOnly errors (resolved.insert declared.name declared) rest
        | some existing =>
            match merge existing declared with
            | (found, none) => throw (errors ++ found)
            | (found, some merged) =>
                resolveFrom uniformsOnly (errors ++ found) (resolved.insert declared.name merged)
                  rest
      else
        resolveFrom uniformsOnly errors resolved rest

def resolve (uniformsOnly : Bool) (shaders : List Shader) : Judged Resolutions :=
  resolveFrom uniformsOnly [] {}
    (shaders.flatMap fun shader => shader.globals.map fun id => (shader, id))

/-- What a global takes over from the resolved declaration of its name. -/
def adopt (resolved declared : Variable) : Variable :=
  if resolved.mode ≠ declared.mode then
    declared
  else
    { declared with
      ty :=
        if declared.ty.isUnsizedArray && !resolved.ty.isUnsizedArray then resolved.ty
        else declared.ty
      explicitLocation := declared.explicitLocation || resolved.explicitLocation
      location := if resolved.explicitLocation then resolved.location else declared.location
      explicitBinding := declared.explicitBinding || resolved.explicitBinding
      binding := if resolved.explicitBinding then resolved.binding else declared.binding
      constantInitializer := declared.constantInitializer <|> resolved.constantInitializer
      hasInitializer := declared.hasInitializer || resolved.hasInitializer }

end Declaration

namespace Shader

/-- Change some variables one after the other. -/
def modifyVariables (shader : Shader) (change : Variable → Variable) :
    List VariableId → Checked Shader
  | [] => return shader
  | id :: ids => do
      let _ ← shader.fetchVariable id
      (shader.modifyVariable id change).modifyVariables change ids

def modifyGlobals (shader : Shader) (change : Variable → Variable) : Checked Shader :=
  shader.modifyVariables change shader.globals

/-- Let the globals of a shader take over their resolved declarations. -/
def adoptResolutions (shader : Shader) (resolutions : Resolutions) : Checked Shader :=
  shader.modifyGlobals fun declared =>
    match resolutions.get? declared.name with
    | some resolved => Declaration.adopt resolved declared
    | none => declared

end Shader
end StageLink
