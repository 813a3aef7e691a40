import StageLink.Expr
import StageLink.Interchange.Constant

/-!
# Places and expressions as documents

Every node is a record whose only member bears the name of the node and holds its parts.
-/

namespace StageLink

def UnaryOperator.naming : Naming UnaryOperator where
  all := [.negate, .logicalNot, .absolute, .squareRoot, .inverseSquareRoot, .floor]
  name
    | .negate => "Negate"
    | .logicalNot => "LogicalNot"
    | .absolute => "Abs"
    | .squareRoot => "Sqrt"
    | .inverseSquareRoot => "Rsq"
    | .floor => "Floor"

def BinaryOperator.naming : Naming BinaryOperator where
  all :=
    [.add, .subtract, .multiply, .divide, .less, .greater, .lessEqual, .greaterEqual, .equal,
      .notEqual, .logicalAnd, .logicalOr, .dot]
  name
    | .add => "Add"
    | .subtract => "Subtract"
    | .multiply => "Multiply"
    | .divide => "Divide"
    | .less => "Less"
    | .greater => "Greater"
    | .lessEqual => "LessEqual"
    | .greaterEqual => "GreaterEqual"
    | .equal => "Equal"
    | .notEqual => "NotEqual"
    | .logicalAnd => "LogicalAnd"
    | .logicalOr => "LogicalOr"
    | .dot => "Dot"

open Document

/-! ## Writing -/

mutual

/-- Write a place. -/
def Place.toDocument : Place → Document
  | .whole id => alternative "Variable" (natural id)
  | .element array index ty =>
      alternative "Array" <| .record
        [("array", array.toDocument), ("index", index.toDocument), ("ty", ty.toDocument)]
  | .field whole name ty =>
      alternative "Record" <| .record
        [("record", whole.toDocument), ("field", text name), ("ty", ty.toDocument)]

/-- Write an expression. -/
def Expr.toDocument : Expr → Document
  | .constant value => alternative "Constant" value.toDocument
  | .load place => alternative "Deref" place.toDocument
  | .unary operator operand ty =>
      alternative "Unary" <| .record
        [("op", UnaryOperator.naming.write operator), ("operand", operand.toDocument),
          ("ty", ty.toDocument)]
  | .binary operator left right ty =>
      alternative "Binary" <| .record
        [("op", BinaryOperator.naming.write operator), ("left", left.toDocument),
          ("right", right.toDocument), ("ty", ty.toDocument)]
  | .swizzle value components ty =>
      alternative "Swizzle" <| .record
        [("value", value.toDocument), ("components", listOf natural components),
          ("ty", ty.toDocument)]
  | .compose ty components =>
      alternative "Compose" <| .record
        [("ty", ty.toDocument), ("components", list (Expr.documents components))]
  | .texture sampler coordinate ty =>
      alternative "Texture" <| .record
        [("sampler", sampler.toDocument), ("coordinate", coordinate.toDocument),
          ("ty", ty.toDocument)]

/-- Write some expressions. -/
def Expr.documents : List Expr → List Document
  | [] => []
  | expression :: expressions => expression.toDocument :: Expr.documents expressions

end

/-! ## Reading -/

mutual

/-- Read a place. -/
def Place.ofDocument (document : Document) : Decoded Place := do
  match ← document.choice with
  | ("Variable", some id) => .whole <$> id.val.asWord
  | ("Array", some ⟨content, _⟩) => do
      let members ← content.content ["array", "index", "ty"]
      let ⟨array, _⟩ ← members.get "array"
      let ⟨index, _⟩ ← members.get "index"
      return .element (← Place.ofDocument array) (← Expr.ofDocument index)
        (← members.required "ty" Ty.ofDocument)
  | ("Record", some ⟨content, _⟩) => do
      let members ← content.content ["record", "field", "ty"]
      let ⟨whole, _⟩ ← members.get "record"
      return .field (← Place.ofDocument whole) (← members.required "field" asText)
        (← members.required "ty" Ty.ofDocument)
  | (name, _) => throw (.unknownName name)
termination_by sizeOf document

/-- Read an expression. -/
def Expr.ofDocument (document : Document) : Decoded Expr := do
  match ← document.choice with
  | ("Constant", some value) => .constant <$> Constant.ofDocument value.val
  | ("Deref", some ⟨place, _⟩) => .load <$> Place.ofDocument place
  | ("Unary", some ⟨content, _⟩) => do
      let members ← content.content ["op", "operand", "ty"]
      let ⟨operand, _⟩ ← members.get "operand"
      return .unary (← members.required "op" UnaryOperator.naming.read)
        (← Expr.ofDocument operand) (← members.required "ty" Ty.ofDocument)
  | ("Binary", some ⟨content, _⟩) => do
      let members ← content.content ["op", "left", "right", "ty"]
      let ⟨left, _⟩ ← members.get "left"
      let ⟨right, _⟩ ← members.get "right"
      return .binary (← members.required "op" BinaryOperator.naming.read)
        (← Expr.ofDocument left) (← Expr.ofDocument right)
        (← members.required "ty" Ty.ofDocument)
  | ("Swizzle", some ⟨content, _⟩) => do
      let members ← content.content ["value", "components", "ty"]
      let ⟨value, _⟩ ← members.get "value"
      return .swizzle (← Expr.ofDocument value)
        (← members.required "components" (asList (asNatural 8)))
        (← members.required "ty" Ty.ofDocument)
  | ("Compose", some ⟨content, _⟩) => do
      let members ← content.content ["ty", "components"]
      let ⟨components, _⟩ ← members.get "components"
      return .compose (← members.required "ty" Ty.ofDocument) (← Expr.listOfDocument components)
  | ("Texture", some ⟨content, _⟩) => do
      let members ← content.content ["sampler", "coordinate", "ty"]
      let ⟨sampler, _⟩ ← members.get "sampler"
      let ⟨coordinate, _⟩ ← members.get "coordinate"
      return .texture (← Place.ofDocument sampler) (← Expr.ofDocument coordinate)
        (← members.required "ty" Ty.ofDocument)
  | (name, _) => throw (.unknownName name)
termination_by sizeOf document

/-- Read a list of expressions. -/
def Expr.listOfDocument (document : Document) : Decoded (List Expr) := do
  (← document.items).mapM fun ⟨item, _⟩ => Expr.ofDocument item
termination_by sizeOf document

end

end StageLink
