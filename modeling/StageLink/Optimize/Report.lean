import StageLink.Optimize.Pass

/-!
# Reports of passes

A pass tells whether it has changed anything, which it notes where it makes its changes: folding
where an operator is replaced by its value, a guard is dropped or a condition is resolved, the other
passes where an instruction or a signature is removed.  Several passes, and several rounds of them,
report a change if one of them does.
-/

namespace StageLink

def Node.isInstruction (kind : Instruction → Bool) : Node → Bool
  | .instruction inner => kind inner
  | _ => false

def Instruction.hasKind (kind : Instruction → Bool) (instruction : Instruction) : Bool :=
  (instruction.nodes fun _ => []).any (Node.isInstruction kind)

/-- Whether an instruction of a list, or one inside it, is of a kind. -/
def Block.hasKind (kind : Instruction → Bool) (block : Block) : Bool :=
  (Block.ownNodes block).any (Node.isInstruction kind)

/-! ## Folding -/

mutual

/-- Whether folding replaces something in the indices of a place. -/
def Place.folds : Place → Bool
  | .whole _ => false
  | .element array index _ => array.folds || index.folds
  | .field record _ _ => record.folds

def Expr.folds : Expr → Bool
  | .constant _ => false
  | .load place => place.folds
  | .unary operator operand ty =>
      operand.folds || (Expr.unary operator operand.fold ty).value?.isSome
  | .binary operator left right ty =>
      left.folds || right.folds || (Expr.binary operator left.fold right.fold ty).value?.isSome
  | .swizzle value positions ty =>
      value.folds || (Expr.swizzle value.fold positions ty).value?.isSome
  | .compose _ components => Expr.someFolds components
  | .texture _ coordinate _ => coordinate.folds

/-- Whether folding replaces an operator in some of the expressions. -/
def Expr.someFolds : List Expr → Bool
  | [] => false
  | expression :: expressions => expression.folds || Expr.someFolds expressions

end

/-- Whether folding replaces an operator in a guard or drops the guard. -/
def Expr.foldsGuard : Option Expr → Bool
  | none => false
  | some guard => guard.folds || guard.fold.constantBool? = some true

/-- Whether folding changes the operands of an instruction. -/
def Instruction.folds : Instruction → Bool
  | .assign target value guard => target.folds || value.folds || Expr.foldsGuard guard
  | .call _ arguments result => Expr.someFolds arguments || result.any Place.folds
  | .branch condition _ _ => condition.folds
  | .yield value => value.any Expr.folds
  | _ => false

/-- Whether an instruction is resolved because its condition is constant. -/
def Instruction.isDecided : Instruction → Bool
  | .branch condition _ _ => condition.constantBool?.isSome
  | .assign _ _ (some guard) => guard.constantBool? = some false
  | _ => false

/-- Whether folding an instruction list changes it. -/
def Block.folds (block : Block) : Bool :=
  Block.hasKind Instruction.folds block
    || Block.hasKind Instruction.isDecided (Block.updateInstructions Instruction.fold block)

namespace Shader

/-- Whether folding constants changes an instruction list of a shader. -/
def foldsSomething (shader : Shader) : Bool := shader.bodies.any Block.folds

/-! ## Removing -/

def removesInstruction (keepUniforms : Bool) (shader : Shader) : Bool :=
  let targets := shader.deadTargets
  let declarations := shader.deadDeclarations keepUniforms
  if targets.isEmpty && declarations.isEmpty then
    false
  else
    shader.bodies.any (Block.hasKind fun instruction => !survives targets declarations instruction)

def removesSignature (shader : Shader) : Bool :=
  let live := shader.liveCallees
  shader.functions.indexed.any fun function =>
    function.2.signatures.zipIdx.any fun signature => !live.contains ⟨function.1, signature.2⟩

end Shader

/-! ## Passes -/

def Pass.reports : Pass → Shader → Bool
  | foldConstants, shader => shader.foldsSomething
  | removeDeadCode keepUniforms, shader => shader.removesInstruction keepUniforms
  | removeDeadFunctions, shader => shader.removesSignature
  | inspect, _ => false

namespace Shader

/-- Whether one of some passes reports a change when they run one after the other. -/
def passesReport : List Pass → Shader → Bool
  | [], _ => false
  | pass :: passes, shader => pass.reports shader || passesReport passes (pass.run shader)

/-- Whether optimizing a shader reports a change.  A round of passes that reports none is the last
one, so the first round tells. -/
def optimizeReports (level : OptimizationLevel) (shader : Shader) : Bool :=
  shader.passesReport level.passes

end Shader
end StageLink
