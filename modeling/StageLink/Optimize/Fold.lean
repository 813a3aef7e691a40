import StageLink.Shader

/-!
# Constant folding

Operators applied to constants are replaced by their values, and code guarded by a constant is
replaced by what it comes to.  Folding an operator works componentwise on scalars and vectors, a
single component being paired with every component of the other operand; it is given up when some
component has no value.  Expressions are reduced at the root after their operands have been folded.
-/

namespace StageLink
namespace Fold

/-! ## Operators on components -/

/-- Only scalars and vectors are folded. -/
def isComponentwise : Ty → Bool
  | .scalar _ | .vector .. => true
  | _ => false

/-- The components as a list of the given length, a single one being repeated. -/
def spread? {Component : Type} (count : Nat) : List Component → Option (List Component)
  | [component] => some (List.replicate count component)
  | components => if components.length = count then some components else none

/-- Combine the components of two operands in pairs. -/
def combine? {Component Result : Type} (operation : Component → Component → Option Result)
    (left right : List Component) : Option (List Result) := do
  let count := max left.length right.length
  let left ← spread? count left
  let right ← spread? count right
  (left.zip right).mapM fun pair => operation pair.1 pair.2

/-- Arithmetic on floats. -/
def onFloats : BinaryOperator → Single → Single → Option Single
  | .add, left, right => some (left.add right)
  | .subtract, left, right => some (left.subtract right)
  | .multiply, left, right => some (left.multiply right)
  | .divide, left, right => some (left.divide right)
  | _, _, _ => none

/-- Arithmetic on signed integers, which wraps; there is no quotient by zero. -/
def onInts : BinaryOperator → Int32 → Int32 → Option Int32
  | .add, left, right => some (left + right)
  | .subtract, left, right => some (left - right)
  | .multiply, left, right => some (left * right)
  | .divide, left, right => if right = 0 then none else some (left / right)
  | _, _, _ => none

/-- Arithmetic on unsigned integers, which wraps; there is no quotient by zero. -/
def onUints : BinaryOperator → UInt32 → UInt32 → Option UInt32
  | .add, left, right => some (left + right)
  | .subtract, left, right => some (left - right)
  | .multiply, left, right => some (left * right)
  | .divide, left, right => if right = 0 then none else some (left / right)
  | _, _, _ => none

/-- Comparison of two numbers, given their order and equality. -/
def comparing {Component : Type} (less lessEqual equal : Component → Component → Bool) :
    BinaryOperator → Component → Component → Option Bool
  | .less, left, right => some (less left right)
  | .greater, left, right => some (less right left)
  | .lessEqual, left, right => some (lessEqual left right)
  | .greaterEqual, left, right => some (lessEqual right left)
  | .equal, left, right => some (equal left right)
  | .notEqual, left, right => some !(equal left right)
  | _, _, _ => none

/-- Comparison of floats. -/
def compareFloats : BinaryOperator → Single → Single → Option Bool :=
  comparing Single.less Single.lessEqual Single.equal

/-- Comparison of signed integers. -/
def compareInts : BinaryOperator → Int32 → Int32 → Option Bool :=
  comparing (fun left right => left < right) (fun left right => left ≤ right)
    (fun left right => left = right)

/-- Comparison of unsigned integers. -/
def compareUints : BinaryOperator → UInt32 → UInt32 → Option Bool :=
  comparing (fun left right => left < right) (fun left right => left ≤ right)
    (fun left right => left = right)

/-- Operators on booleans. -/
def onBools : BinaryOperator → Bool → Bool → Option Bool
  | .equal, left, right => some (left == right)
  | .notEqual, left, right => some (left != right)
  | .logicalAnd, left, right => some (left && right)
  | .logicalOr, left, right => some (left || right)
  | _, _, _ => none

/-- The dot product of two vectors of one length, summed from the left and from negative zero. -/
def dotProduct? (left right : List Single) : Option Single :=
  if left.length = right.length then
    some ((left.zip right).foldl (fun sum pair => sum.add (pair.1.multiply pair.2))
      Single.negativeZero)
  else
    none

/-- The components of an operator applied to the components of its operands. -/
def binaryValue? (operator : BinaryOperator) :
    Payload Constant → Payload Constant → Option (Payload Constant)
  | .floats left, .floats right =>
      if operator = .dot then
        (dotProduct? left right).map fun sum => .floats [sum]
      else
        (combine? (onFloats operator) left right).map .floats
          <|> (combine? (compareFloats operator) left right).map .bools
  | .ints left, .ints right =>
      (combine? (onInts operator) left right).map .ints
        <|> (combine? (compareInts operator) left right).map .bools
  | .uints left, .uints right =>
      (combine? (onUints operator) left right).map .uints
        <|> (combine? (compareUints operator) left right).map .bools
  | .bools left, .bools right => (combine? (onBools operator) left right).map .bools
  | _, _ => none

def count : Payload Constant → Nat
  | .bools components => components.length
  | .ints components => components.length
  | .uints components => components.length
  | .floats components => components.length
  | .composite elements => elements.length

/-- The value of an operator with two constant operands, which must have as many components as its
type. -/
def binary? (operator : BinaryOperator) (left right : Constant) (ty : Ty) : Option Constant :=
  if isComponentwise left.ty && isComponentwise right.ty && isComponentwise ty then
    match binaryValue? operator left.value right.value with
    | some value => if count value = ty.components then some ⟨ty, value⟩ else none
    | none => none
  else
    none

/-- The components of an operator applied to the components of its operand. -/
def unaryValue? : UnaryOperator → Payload Constant → Option (Payload Constant)
  | .negate, .floats components => some (.floats (components.map Single.negate))
  | .negate, .ints components => some (.ints (components.map fun value => -value))
  | .absolute, .floats components => some (.floats (components.map Single.magnitude))
  | .absolute, .ints components =>
      some (.ints (components.map fun value => if value < 0 then -value else value))
  | .floor, .floats components => some (.floats (components.map Single.floor))
  | .squareRoot, .floats components => some (.floats (components.map Single.squareRoot))
  | .inverseSquareRoot, .floats components =>
      some (.floats (components.map Single.inverseSquareRoot))
  | .logicalNot, .bools components => some (.bools (components.map not))
  | _, _ => none

/-- The value of an operator with a constant operand. -/
def unary? (operator : UnaryOperator) (operand : Constant) (ty : Ty) : Option Constant :=
  if isComponentwise operand.ty then
    (unaryValue? operator operand.value).map fun value => ⟨ty, value⟩
  else
    none

/-- The components at some positions, all of which must exist. -/
def pick? {Component : Type} (components : List Component) (positions : List Nat) :
    Option (List Component) :=
  positions.mapM fun position => components[position]?

def swizzleValue? (positions : List Nat) : Payload Constant → Option (Payload Constant)
  | .bools components => (pick? components positions).map .bools
  | .ints components => (pick? components positions).map .ints
  | .uints components => (pick? components positions).map .uints
  | .floats components => (pick? components positions).map .floats
  | .composite _ => none

def swizzle? (value : Constant) (positions : List Nat) (ty : Ty) : Option Constant :=
  if isComponentwise value.ty then
    (swizzleValue? positions value.value).map fun picked => ⟨ty, picked⟩
  else
    none

end Fold

/-! ## Expressions -/

/-- The boolean that an expression is, if it is a constant one. -/
def Expr.constantBool? : Expr → Option Bool
  | .constant value => value.asBool?
  | _ => none

/-- The constant that an operator at the root of an expression comes to. -/
def Expr.value? : Expr → Option Constant
  | .unary operator (.constant operand) ty => Fold.unary? operator operand ty
  | .binary operator (.constant left) (.constant right) ty => Fold.binary? operator left right ty
  | .swizzle (.constant value) positions ty => Fold.swizzle? value positions ty
  | _ => none

/-- Replace an expression by its value, if its root has one. -/
def Expr.reduce (expression : Expr) : Expr :=
  match expression.value? with
  | some value => .constant value
  | none => expression

mutual

def Place.fold : Place → Place
  | .whole id => .whole id
  | .element array index ty => .element array.fold index.fold ty
  | .field record name ty => .field record.fold name ty

/-- Fold an expression from the leaves up.  The sampler of a texture lookup is left alone. -/
def Expr.fold : Expr → Expr
  | .constant value => .constant value
  | .load place => .load place.fold
  | .unary operator operand ty => (Expr.unary operator operand.fold ty).reduce
  | .binary operator left right ty => (Expr.binary operator left.fold right.fold ty).reduce
  | .swizzle value positions ty => (Expr.swizzle value.fold positions ty).reduce
  | .compose ty components => .compose ty (Expr.foldAll components)
  | .texture sampler coordinate ty => .texture sampler coordinate.fold ty

def Expr.foldAll : List Expr → List Expr
  | [] => []
  | expression :: expressions => expression.fold :: Expr.foldAll expressions

end

/-! ## Instructions -/

/-- Fold a guard and drop it if it always holds. -/
def Expr.foldGuard : Option Expr → Option Expr
  | none => none
  | some guard => if guard.fold.constantBool? = some true then none else some guard.fold

def Instruction.fold : Instruction → Instruction
  | .assign target value guard => .assign target.fold value.fold (Expr.foldGuard guard)
  | .call callee arguments result => .call callee (Expr.foldAll arguments) (result.map Place.fold)
  | .branch condition accept reject => .branch condition.fold accept reject
  | .yield value => .yield (value.map Expr.fold)
  | other => other

/-- What is left of an instruction when its condition is constant: of a branch the part taken, of an
assignment whose guard never holds nothing. -/
def Instruction.resolve : Instruction → Block
  | .branch condition accept reject =>
      match condition.constantBool? with
      | some true => accept
      | some false => reject
      | none => [.branch condition accept reject]
  | .assign target value (some guard) =>
      if guard.constantBool? = some false then [] else [.assign target value (some guard)]
  | other => [other]

/-- Resolve the constant conditions of an instruction list. -/
def Block.resolve (block : Block) : Block := block.flatMap Instruction.resolve

/-- Fold all operands of an instruction list, then resolve all constant conditions. -/
def Block.fold (block : Block) : Block :=
  Block.updateBlocks Block.resolve (Block.updateInstructions Instruction.fold block)

/-- Fold the constants in all instruction lists of a shader. -/
def Shader.foldConstants (shader : Shader) : Shader := shader.updateBodies Block.fold

end StageLink
