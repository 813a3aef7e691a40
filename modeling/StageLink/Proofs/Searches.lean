import StageLink.Walk
import StageLink.Shader

/-!
# Searches

A search is a steered walk that stops at the first node of the kind that is looked for, and passes
over the contents of nodes that cannot hold any.  It walks on to the end exactly if no node is of
that kind, and in between it does what looking at the nodes one by one does:
`Shader.walk_searching`.
-/

namespace StageLink

variable {m : Type → Type} [Monad m] (found : Node → m Bool) (passes : Node → Bool)

/-- Stop at what has been found, and pass over the contents of some nodes. -/
def searching (node : Node) : m Visit := do
  if ← found node then return .stop
  return if passes node then .skip else .descend

def Node.contents (inside : FunctionId → List Node) : Node → List Node
  | .instruction outer => (outer.nodes inside).tail
  | .expr outer => outer.nodes.tail
  | .place outer => outer.nodes.tail

/-- Nothing is found inside the nodes that are passed over. -/
def Quiet (inside : FunctionId → List Node) : Prop :=
  ∀ node, passes node = true → (node.contents inside).anyM found = pure false

variable [LawfulMonad m]

theorem anyM_append {Item : Type} (found : Item → m Bool) (items more : List Item) :
    (items ++ more).anyM found =
      (items.anyM found >>= fun answer => if answer then pure true else more.anyM found) := by
  induction items with
  | nil => simp [List.anyM]
  | cons item items ih =>
      rw [List.cons_append, List.anyM, List.anyM, bind_assoc]
      apply bind_congr
      intro answer
      cases answer with
      | true => simp
      | false => exact ih

variable {found passes}

theorem enter_searching {node : Node} {contents : m Bool} {nodes : List Node}
    (walks : contents = not <$> nodes.anyM found)
    (quiet : passes node = true → nodes.anyM found = pure false) :
    enter (searching found passes) node contents = not <$> (node :: nodes).anyM found := by
  rw [enter, searching, List.anyM, map_bind, bind_assoc]
  apply bind_congr
  intro answer
  cases answer with
  | true => simp
  | false =>
      cases passed : passes node with
      | true => simp [quiet passed]
      | false => simp [walks]

theorem continueWith_searching {walked following : m Bool} {nodes more : List Node}
    (walks : walked = not <$> nodes.anyM found) (walks_on : following = not <$> more.anyM found) :
    continueWith walked following = not <$> (nodes ++ more).anyM found := by
  rw [continueWith, walks, walks_on, anyM_append, map_bind, bind_map_left]
  apply bind_congr
  intro answer
  cases answer <;> simp

variable {inside : FunctionId → List Node}

mutual

theorem Place.walk_searching (quiet : Quiet found passes inside) : (place : Place) →
    place.walk (searching found passes) = not <$> place.nodes.anyM found
  | .whole _ => by
      rw [Place.walk, Place.nodes]
      exact enter_searching (by simp [List.anyM]) (quiet _)
  | .element array index _ => by
      rw [Place.walk, Place.nodes]
      exact enter_searching
        (continueWith_searching (array.walk_searching quiet) (index.walk_searching quiet)) (quiet _)
  | .field record _ _ => by
      rw [Place.walk, Place.nodes]
      exact enter_searching (record.walk_searching quiet) (quiet _)

theorem Expr.walk_searching (quiet : Quiet found passes inside) : (expression : Expr) →
    expression.walk (searching found passes) = not <$> expression.nodes.anyM found
  | .constant _ => by
      rw [Expr.walk, Expr.nodes]
      exact enter_searching (by simp [List.anyM]) (quiet _)
  | .load place => by
      rw [Expr.walk, Expr.nodes]
      exact enter_searching (place.walk_searching quiet) (quiet _)
  | .unary _ operand _ => by
      rw [Expr.walk, Expr.nodes]
      exact enter_searching (operand.walk_searching quiet) (quiet _)
  | .binary _ left right _ => by
      rw [Expr.walk, Expr.nodes]
      exact enter_searching
        (continueWith_searching (left.walk_searching quiet) (right.walk_searching quiet)) (quiet _)
  | .swizzle value _ _ => by
      rw [Expr.walk, Expr.nodes]
      exact enter_searching (value.walk_searching quiet) (quiet _)
  | .compose _ components => by
      rw [Expr.walk, Expr.nodes]
      exact enter_searching (Expr.walkAll_searching quiet components) (quiet _)
  | .texture sampler coordinate _ => by
      rw [Expr.walk, Expr.nodes]
      exact enter_searching
        (continueWith_searching (sampler.walk_searching quiet) (coordinate.walk_searching quiet))
        (quiet _)

theorem Expr.walkAll_searching (quiet : Quiet found passes inside) : (expressions : List Expr) →
    Expr.walkAll (searching found passes) expressions =
      not <$> (Expr.nodesOfAll expressions).anyM found
  | [] => by simp [Expr.walkAll, Expr.nodesOfAll]
  | expression :: expressions => by
      rw [Expr.walkAll, Expr.nodesOfAll]
      exact continueWith_searching (expression.walk_searching quiet)
        (Expr.walkAll_searching quiet expressions)

end

theorem walkOption_searching {Part : Type} {walk : Part → m Bool} {nodes : Part → List Node}
    (walks : ∀ part, walk part = not <$> (nodes part).anyM found) (part : Option Part) :
    walkOption walk part = not <$> (part.toList.flatMap nodes).anyM found := by
  cases part with
  | none => simp [walkOption]
  | some part => simp [walkOption, walks]

variable {walkInside : FunctionId → m Bool}

mutual

theorem Instruction.walk_searching (quiet : Quiet found passes inside)
    (walks : ∀ id, walkInside id = not <$> (inside id).anyM found) : (instruction : Instruction) →
    instruction.walk (searching found passes) walkInside =
      not <$> (instruction.nodes inside).anyM found
  | .assign target value guard => by
      rw [Instruction.walk, Instruction.nodes, Instruction.operandNodes]
      have operands := continueWith_searching (target.walk_searching quiet)
        (continueWith_searching (value.walk_searching quiet)
          (walkOption_searching (fun condition => condition.walk_searching quiet) guard))
      rw [← List.append_assoc] at operands
      exact enter_searching operands (quiet _)
  | .call _ arguments result => by
      rw [Instruction.walk, Instruction.nodes, Instruction.operandNodes]
      have operands := continueWith_searching (Expr.walkAll_searching quiet arguments)
        (walkOption_searching (fun place => place.walk_searching quiet) result)
      rw [Expr.nodesOfAll_eq_flatMap] at operands
      exact enter_searching operands (quiet _)
  | .branch condition accept reject => by
      rw [Instruction.walk, Instruction.nodes]
      have contents := continueWith_searching (condition.walk_searching quiet)
        (continueWith_searching (Block.walk_searching quiet walks accept)
          (Block.walk_searching quiet walks reject))
      rw [← List.append_assoc] at contents
      exact enter_searching contents (quiet _)
  | .loop body => by
      rw [Instruction.walk, Instruction.nodes]
      exact enter_searching (Block.walk_searching quiet walks body) (quiet _)
  | .yield value => by
      rw [Instruction.walk, Instruction.nodes, Instruction.operandNodes]
      exact enter_searching
        (walkOption_searching (fun result => result.walk_searching quiet) value) (quiet _)
  | .function id => by
      rw [Instruction.walk, Instruction.nodes]
      exact enter_searching (walks id) (quiet _)
  | .declare _ | .leave | .next | .discard | .emitVertex | .endPrimitive => by
      rw [Instruction.walk, Instruction.nodes]
      exact enter_searching (by simp) (quiet _)

/-- A search walks on to the end exactly if it finds nothing among the nodes. -/
theorem Block.walk_searching (quiet : Quiet found passes inside)
    (walks : ∀ id, walkInside id = not <$> (inside id).anyM found) : (block : List Instruction) →
    Block.walk (searching found passes) walkInside block =
      not <$> (Block.nodes inside block).anyM found
  | [] => by simp [Block.walk, Block.nodes]
  | instruction :: rest => by
      rw [Block.walk, Block.nodes]
      exact continueWith_searching (instruction.walk_searching quiet walks)
        (Block.walk_searching quiet walks rest)

end

namespace Shader

variable {shader : Shader} {walk : Block → m Bool} {nodes : Block → List Node}

theorem walkBodies_searching (walks : ∀ body, walk body = not <$> (nodes body).anyM found)
    (signatures : List Signature) : walkBodies walk signatures =
      not <$> (signatures.flatMap fun signature => nodes signature.body).anyM found := by
  induction signatures with
  | nil => simp [walkBodies]
  | cons signature signatures ih =>
      rw [walkBodies, List.flatMap_cons]
      exact continueWith_searching (walks signature.body) ih

theorem walkFunction_searching (quiet : ∀ inside, Quiet found passes inside) (depth : Nat)
    (id : FunctionId) : shader.walkFunction (searching found passes) depth id =
      not <$> (shader.insideFunction depth id).anyM found := by
  induction depth generalizing id with
  | zero => simp [walkFunction, insideFunction]
  | succ depth ih =>
      rw [walkFunction, insideFunction]
      exact walkBodies_searching (Block.walk_searching (quiet _) ih) _

/-- A search of a shader walks on to the end exactly if it finds nothing among the nodes. -/
theorem walk_searching (quiet : ∀ inside, Quiet found passes inside) :
    shader.walk (searching found passes) = not <$> shader.nodes.anyM found :=
  Block.walk_searching (quiet _) (walkFunction_searching quiet _) shader.topLevel

end Shader

end StageLink
