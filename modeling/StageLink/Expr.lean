import StageLink.Arena
import StageLink.Fault
import StageLink.Variable

/-!
# Places and expressions

A place denotes storage: a variable, an element of an indexed place, or a field.  An expression
denotes a value.  The two refer to each other, since an element is chosen by an expression and an
expression may read a place.  Every node but a constant and a variable carries its own type.
-/

namespace StageLink

/-- Operators with one operand. -/
inductive UnaryOperator where
  | negate
  | logicalNot
  | absolute
  | squareRoot
  | inverseSquareRoot
  | floor
  deriving DecidableEq

/-- Operators with two operands. -/
inductive BinaryOperator where
  | add
  | subtract
  | multiply
  | divide
  | less
  | greater
  | lessEqual
  | greaterEqual
  | equal
  | notEqual
  | logicalAnd
  | logicalOr
  | dot
  deriving DecidableEq

/-- The word for the operator in a listing. -/
def UnaryOperator.text : UnaryOperator → String
  | negate => "neg"
  | logicalNot => "!"
  | absolute => "abs"
  | squareRoot => "sqrt"
  | inverseSquareRoot => "rsq"
  | floor => "floor"

/-- The sign of the operator in a listing. -/
def BinaryOperator.text : BinaryOperator → String
  | add => "+"
  | subtract => "-"
  | multiply => "*"
  | divide => "/"
  | less => "<"
  | greater => ">"
  | lessEqual => "<="
  | greaterEqual => ">="
  | equal => "=="
  | notEqual => "!="
  | logicalAnd => "&&"
  | logicalOr => "||"
  | dot => "dot"

mutual

/-- A reference to storage. -/
inductive Place where
  /-- A whole variable, of the type it was declared with. -/
  | whole (id : VariableId)
  /-- An array element, matrix column or vector component. -/
  | element (array : Place) (index : Expr) (ty : Ty)
  /-- A field of a record or block instance. -/
  | field (record : Place) (name : String) (ty : Ty)

/-- A tree that produces a value. -/
inductive Expr where
  | constant (value : Constant)
  | load (place : Place)
  | unary (operator : UnaryOperator) (operand : Expr) (ty : Ty)
  | binary (operator : BinaryOperator) (left right : Expr) (ty : Ty)
  | swizzle (value : Expr) (components : List Nat) (ty : Ty)
  /-- A value built from components, such as a vector from scalars. -/
  | compose (ty : Ty) (components : List Expr)
  | texture (sampler : Place) (coordinate : Expr) (ty : Ty)

end

namespace Place

def root : Place → VariableId
  | whole id => id
  | element array _ _ => array.root
  | field record _ _ => record.root

/-- The element of a place of the given type; anything but an array has void elements. -/
def elementAt (place : Place) (index : Expr) (placeType : Ty) : Place :=
  element place index (placeType.element?.getD .void)

/-- The named field of a place of the given type; a field that the type lacks is void. -/
def fieldNamed (place : Place) (name : String) (placeType : Ty) : Place :=
  field place name ((placeType.fieldType? name).getD .void)

/-- The type of a place among the variables of a shader. -/
def ty (vars : Arena Variable) : Place → Checked Ty
  | whole id =>
      match vars.get? id with
      | some declaration => .ok declaration.ty
      | none => .error (.noVariable id)
  | element _ _ ty => .ok ty
  | field _ _ ty => .ok ty

/-- The index of an element chosen by a constant. -/
def constantIndex? : Place → Option Nat
  | element _ (.constant value) _ => value.asIndex?
  | _ => none

end Place

namespace Expr

def ofVariable (id : VariableId) : Expr := load (.whole id)

/-- The type of the value among the variables of a shader. -/
def ty (vars : Arena Variable) : Expr → Checked Ty
  | constant value => .ok value.ty
  | load place => place.ty vars
  | unary _ _ ty => .ok ty
  | binary _ _ _ ty => .ok ty
  | swizzle _ _ ty => .ok ty
  | compose ty _ => .ok ty
  | texture _ _ ty => .ok ty

/-- The variable read, if the expression only reads a place. -/
def root? : Expr → Option VariableId
  | load place => some place.root
  | _ => none

def constant? : Expr → Option Constant
  | constant value => some value
  | _ => none

end Expr
end StageLink
