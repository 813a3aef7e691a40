import StageLink.Constant

/-!
# Variables

A variable declaration carries everything a linker looks at: its storage mode, its qualifiers, its
place in the location space of its mode, and what the front end observed about its use.
-/

namespace StageLink

/-- The storage mode of a variable. -/
inductive VariableMode where
  /-- Ordinary global or local storage. -/
  | plain
  | uniform
  | shaderIn
  | shaderOut
  | functionIn
  | functionOut
  | functionInout
  /-- A function parameter declared constant. -/
  | constIn
  | systemValue
  /-- Temporary storage made by a compiler. -/
  | temporary
  deriving DecidableEq

/-- How a stage input or output is interpolated. -/
inductive Interpolation where
  | smooth
  | flat
  | noPerspective
  deriving DecidableEq

/-- The conservative depth layout of the depth output. -/
inductive DepthLayout where
  | none
  | any
  | greater
  | less
  | unchanged
  deriving DecidableEq

/-- A variable declaration. -/
structure Variable where
  name : String := ""
  ty : Ty := .void
  mode : VariableMode := .plain
  interpolation : Option Interpolation := none
  centroid : Bool := false
  invariant : Bool := false
  readOnly : Bool := false
  /-- The location comes from a layout qualifier, or is fixed for a built-in. -/
  explicitLocation : Bool := false
  /-- The slot in the location space of the mode. -/
  location : Option Nat := none
  /-- The fragment output index of dual-source blending. -/
  index : Nat := 0
  explicitBinding : Bool := false
  binding : Nat := 0
  atomicOffset : Nat := 0
  depthLayout : DepthLayout := .none
  constantInitializer : Option Constant := none
  hasInitializer : Bool := false
  /-- The variable is statically written somewhere in the shader. -/
  used : Bool := false
  /-- The highest constant array index that the front end observed. -/
  maxArrayAccess : Nat := 0
  /-- For each member of an interface block instance, the highest array index observed. -/
  maxMemberAccess : List Nat := []
  /-- The block type of a member of an unnamed block, or of a block instance. -/
  interfaceType : Option Ty := none
  /-- Set while a generic input or output has no counterpart in the adjacent stage. -/
  unmatched : Bool := false
  deriving DecidableEq

namespace VariableMode

/-- Whether the mode belongs to the interface of a stage. -/
def isInterface : VariableMode → Bool
  | shaderIn | shaderOut => true
  | _ => false

def isParameter : VariableMode → Bool
  | functionIn | functionOut | functionInout | constIn => true
  | _ => false

/-- Whether a call writes through a parameter of this mode. -/
def isWritableParameter : VariableMode → Bool
  | functionOut | functionInout => true
  | _ => false

/-- The word for the mode in a listing. -/
def text : VariableMode → String
  | plain => "auto"
  | uniform => "uniform"
  | shaderIn => "in"
  | shaderOut => "out"
  | functionIn => "param_in"
  | functionOut => "param_out"
  | functionInout => "param_inout"
  | constIn => "const_in"
  | systemValue => "system_value"
  | temporary => "temporary"

end VariableMode

/-- Whether a name is reserved for built-in variables. -/
def isBuiltinName (name : String) : Bool := name.startsWith "gl_"

namespace Variable

instance : Inhabited Variable := ⟨{}⟩

/-- A variable without qualifiers. -/
def ofType (name : String) (ty : Ty) (mode : VariableMode) : Variable :=
  { name := name, ty := ty, mode := mode }

/-- Whether the variable is built into the language. -/
def isBuiltin (declaration : Variable) : Bool := isBuiltinName declaration.name

/-- Whether the variable is a member or an instance of a uniform block. -/
def isInUniformBlock (declaration : Variable) : Bool :=
  declaration.mode = .uniform && declaration.interfaceType.isSome

/-- The storage of a variable in the words of a diagnostic. -/
def storage (declaration : Variable) : String :=
  match declaration.mode with
  | .plain => if declaration.readOnly then "global constant" else "global variable"
  | .uniform => "uniform"
  | .shaderIn | .systemValue => "shader input"
  | .shaderOut => "shader output"
  | .functionIn | .constIn => "function input"
  | .functionOut => "function output"
  | .functionInout => "function inout"
  | .temporary => "compiler temporary"

def withLocation (declaration : Variable) (location : Nat) : Variable :=
  { declaration with explicitLocation := true, location := some location }

def withInitializer (declaration : Variable) (value : Constant) : Variable :=
  { declaration with constantInitializer := some value, hasInitializer := true }

/-- Record the highest constant array index observed. -/
def withMaxAccess (declaration : Variable) (highest : Nat) : Variable :=
  { declaration with maxArrayAccess := highest }

def declarationText (declaration : Variable) : String :=
  let qualifiers :=
    [declaration.mode.text]
      ++ (if declaration.invariant then ["invariant"] else [])
      ++ (if declaration.centroid then ["centroid"] else [])
      ++ (declaration.location.toList.map fun location => s!"location={location}")
  let initializer :=
    match declaration.constantInitializer with
    | some value => " = " ++ value.text
    | none => ""
  s!"(declare ({Constant.spaced qualifiers}) {declaration.ty.text} {declaration.name}{initializer})"

end Variable
end StageLink
