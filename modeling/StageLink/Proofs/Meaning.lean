import StageLink.Optimize.Fold
import StageLink.Proofs.Execution

/-!
# The meaning of expressions and instructions

Expressions are evaluated over a store, which they leave alone.  On scalars and vectors operators
work component by component, a single component going with every component of the other operand;
integers of 32 bits wrap around.  A quotient by zero, and whatever an operator does to other
operands, is left open, as are the store itself, aggregates, texture lookups and calls.
-/

namespace StageLink

/-- What an expression comes to: components of one kind, or the elements of an aggregate. -/
abbrev Value := Payload Constant

/-! ## Operators on components -/

namespace Arithmetic

variable {Component Result : Type}

/-- The component that goes with a position.  A single one goes with all positions. -/
def component? (components : List Component) (position : Nat) : Option Component :=
  if components.length = 1 then components[0]? else components[position]?

/-- Apply an operation at all positions, each of which must have a component in both operands. -/
def everywhere? (operation : Component → Component → Option Result)
    (left right : List Component) : Option (List Result) :=
  (List.range (max left.length right.length)).mapM fun position => do
    operation (← component? left position) (← component? right position)

/-- The exact result of an operator on integers, a quotient being cut off towards zero. -/
def unbounded? : BinaryOperator → Int → Int → Option Int
  | .add, left, right => some (left + right)
  | .subtract, left, right => some (left - right)
  | .multiply, left, right => some (left * right)
  | .divide, left, right => if right = 0 then none else some (left.tdiv right)
  | _, _, _ => none

/-- The comparison of two integers. -/
def compareIntegers? : BinaryOperator → Int → Int → Option Bool
  | .less, left, right => some (left < right)
  | .greater, left, right => some (left > right)
  | .lessEqual, left, right => some (left ≤ right)
  | .greaterEqual, left, right => some (left ≥ right)
  | .equal, left, right => some (left = right)
  | .notEqual, left, right => some (left ≠ right)
  | _, _, _ => none

/-- Arithmetic in single precision. -/
def float? : BinaryOperator → Single → Single → Option Single
  | .add, left, right => some (left.add right)
  | .subtract, left, right => some (left.subtract right)
  | .multiply, left, right => some (left.multiply right)
  | .divide, left, right => some (left.divide right)
  | _, _, _ => none

/-- The comparison of two floats. -/
def compareFloats? : BinaryOperator → Single → Single → Option Bool
  | .less, left, right => some (left.less right)
  | .greater, left, right => some (right.less left)
  | .lessEqual, left, right => some (left.lessEqual right)
  | .greaterEqual, left, right => some (right.lessEqual left)
  | .equal, left, right => some (left.equal right)
  | .notEqual, left, right => some !(left.equal right)
  | _, _, _ => none

def truth? : BinaryOperator → Bool → Bool → Option Bool
  | .equal, left, right => some (left = right)
  | .notEqual, left, right => some (left ≠ right)
  | .logicalAnd, left, right => some (left ∧ right)
  | .logicalOr, left, right => some (left ∨ right)
  | _, _, _ => none

/-- The sum of the products of corresponding components, taken from the left. -/
def dotFrom (sum : Single) : List Single → List Single → Option Single
  | [], [] => some sum
  | left :: lefts, right :: rights => dotFrom (sum.add (left.multiply right)) lefts rights
  | _, _ => none

/-- Whether an operator gives components of the kind it is applied to. -/
def isArithmetic : BinaryOperator → Bool
  | .add | .subtract | .multiply | .divide => true
  | _ => false

/-- An operator on the components of two operands. -/
def binary? (operator : BinaryOperator) : Value → Value → Option Value
  | .floats left, .floats right =>
      if operator = .dot then
        (dotFrom .negativeZero left right).map fun sum => .floats [sum]
      else if isArithmetic operator then
        (everywhere? (float? operator) left right).map .floats
      else
        (everywhere? (compareFloats? operator) left right).map .bools
  | .ints left, .ints right =>
      if isArithmetic operator then
        (everywhere?
          (fun left right => (unbounded? operator left.toInt right.toInt).map Int32.ofInt)
          left right).map .ints
      else
        (everywhere? (fun left right => compareIntegers? operator left.toInt right.toInt)
          left right).map .bools
  | .uints left, .uints right =>
      if isArithmetic operator then
        (everywhere?
          (fun left right => (unbounded? operator left.toNat right.toNat).map UInt32.ofInt)
          left right).map .uints
      else
        (everywhere? (fun left right => compareIntegers? operator left.toNat right.toNat)
          left right).map .bools
  | .bools left, .bools right => (everywhere? (truth? operator) left right).map .bools
  | _, _ => none

/-- An operator on the components of an operand. -/
def unary? : UnaryOperator → Value → Option Value
  | .negate, .floats components => some (.floats (components.map Single.negate))
  | .negate, .ints components =>
      some (.ints (components.map fun component => Int32.ofInt (-component.toInt)))
  | .absolute, .floats components => some (.floats (components.map Single.magnitude))
  | .absolute, .ints components =>
      some (.ints (components.map fun component => Int32.ofInt component.toInt.natAbs))
  | .floor, .floats components => some (.floats (components.map Single.floor))
  | .squareRoot, .floats components => some (.floats (components.map Single.squareRoot))
  | .inverseSquareRoot, .floats components =>
      some (.floats (components.map Single.inverseSquareRoot))
  | .logicalNot, .bools components =>
      some (.bools (components.map fun component => decide (component = false)))
  | _, _ => none

def select? (positions : List Nat) : Value → Option Value
  | .bools components => (positions.mapM (components[·]?)).map .bools
  | .ints components => (positions.mapM (components[·]?)).map .ints
  | .uints components => (positions.mapM (components[·]?)).map .uints
  | .floats components => (positions.mapM (components[·]?)).map .floats
  | .composite _ => none

end Arithmetic

/-! ## Meanings -/

/-- What a call gets to know of an argument. -/
structure Argument where
  value : Option Value
  /-- The storage that the argument denotes. -/
  location : Option (Location Value)

/-- All that is left open about the meaning of expressions and instructions. -/
structure Meaning (Store Event : Type) where
  /-- The declarations that the recorded types of variables come from. -/
  vars : Arena Variable
  read : Location Value → Store → Option Value
  write : Location Value → Value → Store → Option Store
  declare : VariableId → Store → Store
  /-- An operator where it does not work component by component. -/
  unary : UnaryOperator → Ty → Value → Ty → Option Value
  /-- An operator where it does not work component by component. -/
  binary : BinaryOperator → Ty → Value → Ty → Value → Ty → Option Value
  swizzle : Ty → Value → List Nat → Ty → Option Value
  compose : Ty → List Value → Option Value
  texture : Location Value → Value → Ty → Store → Option Value
  call : Callee → List Argument → Option (Location Value) → Store → Execution Store Event Value
  emitVertex : Store → Event
  endPrimitive : Store → Event

namespace Meaning

variable {Store Event : Type} (meaning : Meaning Store Event)

/-- Apply an operator to a value of the type given first; the type of the result comes last. -/
def applyUnary (operator : UnaryOperator) (operandType : Ty) (value : Value) (ty : Ty) :
    Option Value :=
  (if Fold.isComponentwise operandType then Arithmetic.unary? operator value else none)
    <|> meaning.unary operator operandType value ty

/-- Apply an operator to two values, each after its type; the type of the result comes last. -/
def applyBinary (operator : BinaryOperator) (leftType : Ty) (left : Value) (rightType : Ty)
    (right : Value) (ty : Ty) : Option Value :=
  (if Fold.isComponentwise leftType && Fold.isComponentwise rightType &&
    Fold.isComponentwise ty then
    (Arithmetic.binary? operator left right).filter fun value => Fold.count value = ty.components
  else
    none)
    <|> meaning.binary operator leftType left rightType right ty

/-- Select components of a value of the type given first; the type of the result comes last. -/
def applySwizzle (valueType : Ty) (value : Value) (positions : List Nat) (ty : Ty) : Option Value :=
  (if Fold.isComponentwise valueType then Arithmetic.select? positions value else none)
    <|> meaning.swizzle valueType value positions ty

end Meaning

section

variable {Store Event : Type} (meaning : Meaning Store Event) (store : Store)

mutual

/-- The storage that a place denotes. -/
def Place.locate : Place → Option (Location Value)
  | .whole id => some { root := id }
  | .element array index ty => do
      let location ← array.locate
      let index ← index.evaluate
      return location.part (.element index ty)
  | .field record name ty => do
      let location ← record.locate
      return location.part (.field name ty)

/-- The value of an expression. -/
def Expr.evaluate : Expr → Option Value
  | .constant value => some value.value
  | .load place => do
      let location ← place.locate
      meaning.read location store
  | .unary operator operand ty => do
      let value ← operand.evaluate
      let operandType ← (operand.ty meaning.vars).toOption
      meaning.applyUnary operator operandType value ty
  | .binary operator left right ty => do
      let leftValue ← left.evaluate
      let rightValue ← right.evaluate
      let leftType ← (left.ty meaning.vars).toOption
      let rightType ← (right.ty meaning.vars).toOption
      meaning.applyBinary operator leftType leftValue rightType rightValue ty
  | .swizzle inner positions ty => do
      let value ← inner.evaluate
      let valueType ← (inner.ty meaning.vars).toOption
      meaning.applySwizzle valueType value positions ty
  | .compose ty components => do
      let values ← Expr.evaluateAll components
      meaning.compose ty values
  | .texture sampler coordinate ty => do
      let location ← sampler.locate
      let value ← coordinate.evaluate
      meaning.texture location value ty store

def Expr.evaluateAll : List Expr → Option (List Value)
  | [] => some []
  | expression :: expressions => do
      let value ← expression.evaluate
      let values ← Expr.evaluateAll expressions
      return value :: values

end

/-- The storage that an argument denotes: that of a place, or of components selected from it. -/
def Expr.locate? : Expr → Option (Location Value)
  | .load place => place.locate meaning store
  | .swizzle inner positions ty => inner.locate?.map (Location.part · (.select positions ty))
  | _ => none

/-- What a call gets to know of an expression. -/
def Expr.argument (expression : Expr) : Argument :=
  ⟨expression.evaluate meaning store, expression.locate? meaning store⟩

/-- The truth of a condition, whose value has to be a single truth value. -/
def Expr.truth? (condition : Expr) : Option Bool :=
  match condition.evaluate meaning store with
  | some (.bools [holds]) => some holds
  | _ => none

end

/-- The operations of a meaning.  A call whose result has no place to go is not made. -/
def Meaning.operations {Store Event : Type} (meaning : Meaning Store Event) :
    Operations Store Event Value where
  declare := meaning.declare
  assign target value store := do
    let location ← target.locate meaning store
    let result ← value.evaluate meaning store
    meaning.write location result store
  holds condition store := condition.truth? meaning store
  value expression store := expression.evaluate meaning store
  call callee arguments result store :=
    let arguments := arguments.map (Expr.argument meaning store)
    match result with
    | none => meaning.call callee arguments none store
    | some place =>
        match place.locate meaning store with
        | none => { state := store, ending := .undefined }
        | some location => meaning.call callee arguments (some location) store
  emitVertex := meaning.emitVertex
  endPrimitive := meaning.endPrimitive
  decided _ _ := []

end StageLink
