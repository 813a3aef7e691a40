import StageLink.Interchange.Constant
import StageLink.Variable

/-!
# Variables as documents

A variable is a record in which every member may be absent; writing leaves out none.
-/

namespace StageLink

def VariableMode.naming : Naming VariableMode where
  all :=
    [.plain, .uniform, .shaderIn, .shaderOut, .functionIn, .functionOut, .functionInout, .constIn,
      .systemValue, .temporary]
  name
    | .plain => "Auto"
    | .uniform => "Uniform"
    | .shaderIn => "ShaderIn"
    | .shaderOut => "ShaderOut"
    | .functionIn => "FunctionIn"
    | .functionOut => "FunctionOut"
    | .functionInout => "FunctionInout"
    | .constIn => "ConstIn"
    | .systemValue => "SystemValue"
    | .temporary => "Temporary"

def Interpolation.naming : Naming Interpolation where
  all := [.smooth, .flat, .noPerspective]
  name
    | .smooth => "Smooth"
    | .flat => "Flat"
    | .noPerspective => "NoPerspective"

def DepthLayout.naming : Naming DepthLayout where
  all := [.none, .any, .greater, .less, .unchanged]
  name
    | .none => "None"
    | .any => "Any"
    | .greater => "Greater"
    | .less => "Less"
    | .unchanged => "Unchanged"

namespace Variable

open Document

/-- The members of the record of a variable. -/
def memberNames : List String :=
  ["name", "ty", "mode", "interpolation", "centroid", "invariant", "read_only",
    "explicit_location", "location", "index", "explicit_binding", "binding", "atomic_offset",
    "depth_layout", "constant_initializer", "has_initializer", "used", "max_array_access",
    "max_ifc_array_access", "interface_type", "is_unmatched_generic_inout"]

def toDocument (declaration : Variable) : Document :=
  .record
    [("name", text declaration.name),
      ("ty", declaration.ty.toDocument),
      ("mode", VariableMode.naming.write declaration.mode),
      ("interpolation", option Interpolation.naming.write declaration.interpolation),
      ("centroid", .bool declaration.centroid),
      ("invariant", .bool declaration.invariant),
      ("read_only", .bool declaration.readOnly),
      ("explicit_location", .bool declaration.explicitLocation),
      ("location", option natural declaration.location),
      ("index", natural declaration.index),
      ("explicit_binding", .bool declaration.explicitBinding),
      ("binding", natural declaration.binding),
      ("atomic_offset", natural declaration.atomicOffset),
      ("depth_layout", DepthLayout.naming.write declaration.depthLayout),
      ("constant_initializer", option Constant.toDocument declaration.constantInitializer),
      ("has_initializer", .bool declaration.hasInitializer),
      ("used", .bool declaration.used),
      ("max_array_access", natural declaration.maxArrayAccess),
      ("max_ifc_array_access", listOf natural declaration.maxMemberAccess),
      ("interface_type", option Ty.toDocument declaration.interfaceType),
      ("is_unmatched_generic_inout", .bool declaration.unmatched)]

def ofDocument (document : Document) : Decoded Variable := do
  let members ← document.membersInOrder memberNames
  return {
    name := ← members.optional "name" "" asText
    ty := ← members.optional "ty" .void Ty.ofDocument
    mode := ← members.optional "mode" .plain VariableMode.naming.read
    interpolation :=
      ← members.optional "interpolation" none (asOption Interpolation.naming.read)
    centroid := ← members.optional "centroid" false asBool
    invariant := ← members.optional "invariant" false asBool
    readOnly := ← members.optional "read_only" false asBool
    explicitLocation := ← members.optional "explicit_location" false asBool
    location := ← members.optional "location" none (asOption asWord)
    index := ← members.optional "index" 0 asWord
    explicitBinding := ← members.optional "explicit_binding" false asBool
    binding := ← members.optional "binding" 0 asWord
    atomicOffset := ← members.optional "atomic_offset" 0 asWord
    depthLayout := ← members.optional "depth_layout" .none DepthLayout.naming.read
    constantInitializer :=
      ← members.optional "constant_initializer" none (asOption Constant.ofDocument)
    hasInitializer := ← members.optional "has_initializer" false asBool
    used := ← members.optional "used" false asBool
    maxArrayAccess := ← members.optional "max_array_access" 0 asWord
    maxMemberAccess := ← members.optional "max_ifc_array_access" [] (asList asWord)
    interfaceType := ← members.optional "interface_type" none (asOption Ty.ofDocument)
    unmatched := ← members.optional "is_unmatched_generic_inout" false asBool }

end Variable
end StageLink
