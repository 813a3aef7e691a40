import StageLink.Instruction

/-!
# Traversal of instruction lists

Reading an instruction list means going through its nodes: instructions, expressions and places,
each before what it contains.  `Block.nodes` lists them, and `Block.walk` presents them one by one
to a visitor that may pass over the contents of a node or stop altogether.

Changing an instruction list means rewriting all its nodes of one kind.  Instructions are rewritten
before their contents, places and blocks after the places and blocks inside them.
-/

namespace StageLink

/-- A node of an instruction list. -/
inductive Node where
  | instruction (instruction : Instruction)
  | expr (expression : Expr)
  | place (place : Place)

/-- What a visitor wants next. -/
inductive Visit where
  /-- Go on with the contents of this node. -/
  | descend
  /-- Pass over the contents of this node. -/
  | skip
  /-- End the whole walk. -/
  | stop
  deriving DecidableEq

/-! ## Listing -/

mutual

/-- The nodes of a place, the place itself first. -/
def Place.nodes : Place → List Node
  | .whole id => [.place (.whole id)]
  | .element array index ty => .place (.element array index ty) :: (array.nodes ++ index.nodes)
  | .field record name ty => .place (.field record name ty) :: record.nodes

/-- The nodes of an expression, the expression itself first. -/
def Expr.nodes : Expr → List Node
  | .constant value => [.expr (.constant value)]
  | .load place => .expr (.load place) :: place.nodes
  | .unary operator operand ty => .expr (.unary operator operand ty) :: operand.nodes
  | .binary operator left right ty =>
      .expr (.binary operator left right ty) :: (left.nodes ++ right.nodes)
  | .swizzle value components ty => .expr (.swizzle value components ty) :: value.nodes
  | .compose ty components => .expr (.compose ty components) :: Expr.nodesOfAll components
  | .texture sampler coordinate ty =>
      .expr (.texture sampler coordinate ty) :: (sampler.nodes ++ coordinate.nodes)

/-- The nodes of some expressions in order. -/
def Expr.nodesOfAll : List Expr → List Node
  | [] => []
  | expression :: expressions => expression.nodes ++ Expr.nodesOfAll expressions

end

@[simp]
theorem Expr.nodesOfAll_eq_flatMap (expressions : List Expr) :
    Expr.nodesOfAll expressions = expressions.flatMap Expr.nodes := by
  induction expressions with
  | nil => rfl
  | cons expression expressions ih => simp [Expr.nodesOfAll, ih]

/-- The nodes of the operands of an instruction, without those of the blocks inside it. -/
def Instruction.operandNodes : Instruction → List Node
  | .assign target value guard =>
      target.nodes ++ value.nodes ++ guard.toList.flatMap Expr.nodes
  | .call _ arguments result => arguments.flatMap Expr.nodes ++ result.toList.flatMap Place.nodes
  | .branch condition _ _ => condition.nodes
  | .yield value => value.toList.flatMap Expr.nodes
  | _ => []

mutual

/-- The nodes of an instruction, the instruction itself first.  A function declaration contains the
nodes that `inside` gives for the function. -/
def Instruction.nodes (inside : FunctionId → List Node) : Instruction → List Node
  | .declare id => [.instruction (.declare id)]
  | .function id => .instruction (.function id) :: inside id
  | .assign target value guard =>
      .instruction (.assign target value guard)
        :: (Instruction.assign target value guard).operandNodes
  | .call callee arguments result =>
      .instruction (.call callee arguments result)
        :: (Instruction.call callee arguments result).operandNodes
  | .branch condition accept reject =>
      .instruction (.branch condition accept reject)
        :: (condition.nodes ++ Block.nodes inside accept ++ Block.nodes inside reject)
  | .loop body => .instruction (.loop body) :: Block.nodes inside body
  | .leave => [.instruction .leave]
  | .next => [.instruction .next]
  | .yield value => .instruction (.yield value) :: (Instruction.yield value).operandNodes
  | .discard => [.instruction .discard]
  | .emitVertex => [.instruction .emitVertex]
  | .endPrimitive => [.instruction .endPrimitive]

def Block.nodes (inside : FunctionId → List Node) : List Instruction → List Node
  | [] => []
  | instruction :: rest => instruction.nodes inside ++ Block.nodes inside rest

end

/-- The nodes of an instruction list, without those of the functions it declares. -/
def Block.ownNodes (block : Block) : List Node := Block.nodes (fun _ => []) block

/-! ## Steered walks -/

section Walk

variable {m : Type → Type} [Monad m] (visit : Node → m Visit)

/-- Present a node and go on with its contents if the visitor wants them.  The answer is whether to
go on with what follows the node. -/
def enter (node : Node) (contents : m Bool) : m Bool := do
  match ← visit node with
  | .descend => contents
  | .skip => pure true
  | .stop => pure false

/-- Walk on unless the walk has been stopped. -/
def continueWith (walked following : m Bool) : m Bool := do
  if ← walked then following else pure false

mutual

/-- Present the nodes of a place. -/
def Place.walk : Place → m Bool
  | .whole id => enter visit (.place (.whole id)) (pure true)
  | .element array index ty =>
      enter visit (.place (.element array index ty)) (continueWith array.walk index.walk)
  | .field record name ty => enter visit (.place (.field record name ty)) record.walk

/-- Present the nodes of an expression. -/
def Expr.walk : Expr → m Bool
  | .constant value => enter visit (.expr (.constant value)) (pure true)
  | .load place => enter visit (.expr (.load place)) place.walk
  | .unary operator operand ty => enter visit (.expr (.unary operator operand ty)) operand.walk
  | .binary operator left right ty =>
      enter visit (.expr (.binary operator left right ty)) (continueWith left.walk right.walk)
  | .swizzle value components ty => enter visit (.expr (.swizzle value components ty)) value.walk
  | .compose ty components =>
      enter visit (.expr (.compose ty components)) (Expr.walkAll components)
  | .texture sampler coordinate ty =>
      enter visit (.expr (.texture sampler coordinate ty))
        (continueWith sampler.walk coordinate.walk)

/-- Present the nodes of some expressions. -/
def Expr.walkAll : List Expr → m Bool
  | [] => pure true
  | expression :: expressions => continueWith expression.walk (Expr.walkAll expressions)

end

/-- Present the contents of something optional. -/
def walkOption {Part : Type} (walk : Part → m Bool) : Option Part → m Bool
  | none => pure true
  | some part => walk part

mutual

/-- Present the nodes of an instruction, walking declared functions with `inside`.  The answer is
false if the visitor stopped the walk. -/
def Instruction.walk (inside : FunctionId → m Bool) : Instruction → m Bool
  | .declare id => enter visit (.instruction (.declare id)) (pure true)
  | .function id => enter visit (.instruction (.function id)) (inside id)
  | .assign target value guard =>
      enter visit (.instruction (.assign target value guard))
        (continueWith (target.walk visit)
          (continueWith (value.walk visit) (walkOption (Expr.walk visit) guard)))
  | .call callee arguments result =>
      enter visit (.instruction (.call callee arguments result))
        (continueWith (Expr.walkAll visit arguments) (walkOption (Place.walk visit) result))
  | .branch condition accept reject =>
      enter visit (.instruction (.branch condition accept reject))
        (continueWith (condition.walk visit)
          (continueWith (Block.walk inside accept) (Block.walk inside reject)))
  | .loop body => enter visit (.instruction (.loop body)) (Block.walk inside body)
  | .leave => enter visit (.instruction .leave) (pure true)
  | .next => enter visit (.instruction .next) (pure true)
  | .yield value =>
      enter visit (.instruction (.yield value)) (walkOption (Expr.walk visit) value)
  | .discard => enter visit (.instruction .discard) (pure true)
  | .emitVertex => enter visit (.instruction .emitVertex) (pure true)
  | .endPrimitive => enter visit (.instruction .endPrimitive) (pure true)

/-- Present the nodes of an instruction list. -/
def Block.walk (inside : FunctionId → m Bool) : List Instruction → m Bool
  | [] => pure true
  | instruction :: rest => continueWith (instruction.walk inside) (Block.walk inside rest)

end

end Walk

/-! ## Rewriting -/

section Rewrite

variable {m : Type → Type} [Monad m]

mutual

/-- Rewrite an instruction, and then those inside it.  A change concerns the instruction itself: the
blocks inside it are replaced by their own rewritten forms. -/
def Instruction.mapInstructions (change : Instruction → m Instruction) :
    Instruction → m Instruction
  | .branch condition accept reject => do
      let changed ← change (.branch condition accept reject)
      let accept ← Block.mapInstructions change accept
      let reject ← Block.mapInstructions change reject
      return changed.withBlocks accept reject
  | .loop body => do
      let changed ← change (.loop body)
      return changed.withBlocks (← Block.mapInstructions change body) []
  | other => change other

/-- Rewrite the instructions of a list, each before those inside it. -/
def Block.mapInstructions (change : Instruction → m Instruction) :
    List Instruction → m (List Instruction)
  | [] => pure []
  | instruction :: rest => do
      let instruction ← instruction.mapInstructions change
      return instruction :: (← Block.mapInstructions change rest)

end

mutual

/-- Rewrite the places of a place, itself last. -/
def Place.mapPlaces (change : Place → m Place) : Place → m Place
  | .whole id => change (.whole id)
  | .element array index ty => do
      let array ← array.mapPlaces change
      let index ← index.mapPlaces change
      change (.element array index ty)
  | .field record name ty => do
      let record ← record.mapPlaces change
      change (.field record name ty)

/-- Rewrite the places of an expression. -/
def Expr.mapPlaces (change : Place → m Place) : Expr → m Expr
  | .constant value => pure (.constant value)
  | .load place => return .load (← place.mapPlaces change)
  | .unary operator operand ty => return .unary operator (← operand.mapPlaces change) ty
  | .binary operator left right ty => do
      let left ← left.mapPlaces change
      let right ← right.mapPlaces change
      return .binary operator left right ty
  | .swizzle value components ty => return .swizzle (← value.mapPlaces change) components ty
  | .compose ty components => return .compose ty (← Expr.mapPlacesOfAll change components)
  | .texture sampler coordinate ty => do
      let sampler ← sampler.mapPlaces change
      let coordinate ← coordinate.mapPlaces change
      return .texture sampler coordinate ty

/-- Rewrite the places of some expressions in order. -/
def Expr.mapPlacesOfAll (change : Place → m Place) : List Expr → m (List Expr)
  | [] => pure []
  | expression :: expressions => do
      let expression ← expression.mapPlaces change
      return expression :: (← Expr.mapPlacesOfAll change expressions)

end

/-- Rewrite something optional. -/
def mapOption {Part : Type} (change : Part → m Part) : Option Part → m (Option Part)
  | none => pure none
  | some part => return some (← change part)

/-- Rewrite the places in the operands of one instruction, but not in the blocks inside it. -/
def Instruction.mapPlaces (change : Place → m Place) : Instruction → m Instruction
  | .assign target value guard => do
      let target ← target.mapPlaces change
      let value ← value.mapPlaces change
      let guard ← mapOption (Expr.mapPlaces change) guard
      return .assign target value guard
  | .call callee arguments result => do
      let arguments ← Expr.mapPlacesOfAll change arguments
      let result ← mapOption (Place.mapPlaces change) result
      return .call callee arguments result
  | .branch condition accept reject =>
      return .branch (← condition.mapPlaces change) accept reject
  | .yield value => return .yield (← mapOption (Expr.mapPlaces change) value)
  | other => pure other

/-- Rewrite all places of an instruction list, innermost first. -/
def Block.mapPlaces (change : Place → m Place) (block : Block) : m Block :=
  Block.mapInstructions (Instruction.mapPlaces change) block

mutual

/-- Rewrite the blocks inside an instruction, the inner ones first. -/
def Instruction.mapInnerBlocks (change : Block → m Block) : Instruction → m Instruction
  | .branch condition accept reject => do
      let accept ← change (← Block.mapInnerBlocks change accept)
      let reject ← change (← Block.mapInnerBlocks change reject)
      return .branch condition accept reject
  | .loop body => return .loop (← change (← Block.mapInnerBlocks change body))
  | other => pure other

/-- Rewrite the blocks inside the instructions of a list. -/
def Block.mapInnerBlocks (change : Block → m Block) : List Instruction → m (List Instruction)
  | [] => pure []
  | instruction :: rest => do
      let instruction ← instruction.mapInnerBlocks change
      return instruction :: (← Block.mapInnerBlocks change rest)

end

/-- Rewrite an instruction list and all blocks inside it, the inner ones first. -/
def Block.mapBlocks (change : Block → m Block) (block : Block) : m Block := do
  change (← Block.mapInnerBlocks change block)

end Rewrite

/-- Rewrite the instructions of a list without effects. -/
def Block.updateInstructions (change : Instruction → Instruction) (block : Block) : Block :=
  Id.run (Block.mapInstructions (fun instruction => pure (change instruction)) block)

/-- Rewrite an instruction list and all blocks inside it without effects. -/
def Block.updateBlocks (change : Block → Block) (block : Block) : Block :=
  Id.run (Block.mapBlocks (fun inner => pure (change inner)) block)

end StageLink
