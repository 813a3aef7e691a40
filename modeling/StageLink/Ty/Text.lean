import StageLink.Ty

/-!
# Names of types

The text under which types appear in listings and messages: the keywords of the shading language
for the built-in types, the declared name for records and blocks, and a bracketed length after the
element type for arrays.
-/

namespace StageLink

/-- The keyword of a component kind. -/
def ScalarKind.text : ScalarKind → String
  | bool => "bool"
  | int => "int"
  | uint => "uint"
  | float => "float"

/-- The letter before the name of a vector type. -/
def ScalarKind.vectorLetter : ScalarKind → String
  | bool => "b"
  | int => "i"
  | uint => "u"
  | float => ""

/-- The letter before the name of a sampler type. -/
def ScalarKind.samplerLetter : ScalarKind → String
  | int => "i"
  | uint => "u"
  | _ => ""

def VectorSize.text (size : VectorSize) : String := toString size.count

/-- What follows the word for samplers in the name of a sampler type. -/
def SamplerDimension.text : SamplerDimension → String
  | d1 => "1D"
  | d2 => "2D"
  | d3 => "3D"
  | cube => "Cube"
  | rectangle => "2DRect"
  | buffer => "Buffer"
  | d1Array => "1DArray"
  | d2Array => "2DArray"
  | cubeArray => "CubeArray"
  | d2Multisample => "2DMS"

/-- The name of a type.  A square matrix names its size once. -/
def Ty.text : Ty → String
  | void => "void"
  | scalar kind => kind.text
  | vector size kind => kind.vectorLetter ++ "vec" ++ size.text
  | matrix columns rows =>
      if columns = rows then "mat" ++ columns.text
      else "mat" ++ columns.text ++ "x" ++ rows.text
  | sampler dimension kind shadow =>
      kind.samplerLetter ++ "sampler" ++ dimension.text ++ if shadow then "Shadow" else ""
  | atomicCounter => "atomic_uint"
  | array element (some length) => element.text ++ "[" ++ toString length ++ "]"
  | array element none => element.text ++ "[]"
  | record name _ => name
  | interface name _ _ => name

end StageLink
