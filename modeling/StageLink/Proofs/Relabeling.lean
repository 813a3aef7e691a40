import StageLink.Proofs.Alike

/-!
# Relabeled instruction lists

Relabeling an instruction list exchanges its handles by functions and keeps everything else: shapes,
operators, types, constants and the order.  A rewriting of instructions one by one that exchanges
handles in this way relabels the list as a whole.
-/

namespace StageLink

/-- New handles for the old ones: for variables where they are declared and where they are
mentioned, for functions where they are declared, and for callees. -/
structure Relabeling where
  declares : VariableId → VariableId
  mentions : VariableId → VariableId
  functions : FunctionId → FunctionId
  calls : Callee → Callee

/-! ## Relabeling -/

mutual

def Place.relabel (vars : VariableId → VariableId) : Place → Place
  | .whole id => .whole (vars id)
  | .element array index ty => .element (array.relabel vars) (index.relabel vars) ty
  | .field record name ty => .field (record.relabel vars) name ty

/-- An expression with other variables. -/
def Expr.relabel (vars : VariableId → VariableId) : Expr → Expr
  | .constant value => .constant value
  | .load place => .load (place.relabel vars)
  | .unary operator operand ty => .unary operator (operand.relabel vars) ty
  | .binary operator left right ty => .binary operator (left.relabel vars) (right.relabel vars) ty
  | .swizzle value components ty => .swizzle (value.relabel vars) components ty
  | .compose ty components => .compose ty (Expr.relabelAll vars components)
  | .texture sampler coordinate ty => .texture (sampler.relabel vars) (coordinate.relabel vars) ty

def Expr.relabelAll (vars : VariableId → VariableId) : List Expr → List Expr
  | [] => []
  | expression :: expressions => expression.relabel vars :: Expr.relabelAll vars expressions

end

mutual

/-- An instruction with other handles. -/
def Instruction.relabel (names : Relabeling) : Instruction → Instruction
  | .declare id => .declare (names.declares id)
  | .function id => .function (names.functions id)
  | .assign target value guard =>
      .assign (target.relabel names.mentions) (value.relabel names.mentions)
        (guard.map (Expr.relabel names.mentions))
  | .call callee arguments result =>
      .call (names.calls callee) (Expr.relabelAll names.mentions arguments)
        (result.map (Place.relabel names.mentions))
  | .branch condition accept reject =>
      .branch (condition.relabel names.mentions) (Block.relabel names accept)
        (Block.relabel names reject)
  | .loop body => .loop (Block.relabel names body)
  | .leave => .leave
  | .next => .next
  | .yield value => .yield (value.map (Expr.relabel names.mentions))
  | .discard => .discard
  | .emitVertex => .emitVertex
  | .endPrimitive => .endPrimitive

def Block.relabel (names : Relabeling) : List Instruction → List Instruction
  | [] => []
  | instruction :: rest => instruction.relabel names :: Block.relabel names rest

end

/-- A node with other handles. -/
def Node.relabel (names : Relabeling) : Node → Node
  | .instruction inner => .instruction (inner.relabel names)
  | .expr inner => .expr (inner.relabel names.mentions)
  | .place inner => .place (inner.relabel names.mentions)

@[simp]
theorem Expr.relabelAll_eq_map (vars : VariableId → VariableId) (expressions : List Expr) :
    Expr.relabelAll vars expressions = expressions.map (Expr.relabel vars) := by
  induction expressions with
  | nil => rfl
  | cons expression expressions ih => rw [Expr.relabelAll, ih, List.map_cons]

@[simp]
theorem Block.relabel_eq_map (names : Relabeling) (block : Block) :
    Block.relabel names block = block.map (Instruction.relabel names) := by
  induction block with
  | nil => rfl
  | cons instruction rest ih => rw [Block.relabel, ih, List.map_cons]

/-! ## One after the other -/

/-- Every handle stays. -/
def Relabeling.same : Relabeling where
  declares id := id
  mentions id := id
  functions id := id
  calls callee := callee

/-- New handles for the new handles. -/
def Relabeling.before (first second : Relabeling) : Relabeling where
  declares id := second.declares (first.declares id)
  mentions id := second.mentions (first.mentions id)
  functions id := second.functions (first.functions id)
  calls callee := second.calls (first.calls callee)

mutual

theorem Place.relabel_id : (place : Place) → place.relabel (fun id => id) = place
  | .whole id => rfl
  | .element array index ty => by rw [Place.relabel, array.relabel_id, index.relabel_id]
  | .field record name ty => by rw [Place.relabel, record.relabel_id]

theorem Expr.relabel_id : (expression : Expr) → expression.relabel (fun id => id) = expression
  | .constant value => rfl
  | .load place => by rw [Expr.relabel, place.relabel_id]
  | .unary operator operand ty => by rw [Expr.relabel, operand.relabel_id]
  | .binary operator left right ty => by rw [Expr.relabel, left.relabel_id, right.relabel_id]
  | .swizzle value components ty => by rw [Expr.relabel, value.relabel_id]
  | .compose ty components => by rw [Expr.relabel, Expr.relabelAll_id components]
  | .texture sampler coordinate ty => by
      rw [Expr.relabel, sampler.relabel_id, coordinate.relabel_id]

theorem Expr.relabelAll_id : (expressions : List Expr) →
    Expr.relabelAll (fun id => id) expressions = expressions
  | [] => rfl
  | expression :: expressions => by
      rw [Expr.relabelAll, expression.relabel_id, Expr.relabelAll_id expressions]

end

mutual

theorem Instruction.relabel_same : (instruction : Instruction) →
    instruction.relabel .same = instruction
  | .assign target value guard => by
      have guards : Expr.relabel Relabeling.same.mentions = id := funext Expr.relabel_id
      rw [Instruction.relabel, guards, Option.map_id]
      exact congrArg (Instruction.assign · value guard) target.relabel_id
  | .call callee arguments result => by
      have places : Place.relabel Relabeling.same.mentions = id := funext Place.relabel_id
      rw [Instruction.relabel, places, Option.map_id]
      exact congrArg (Instruction.call callee · result) (Expr.relabelAll_id arguments)
  | .branch condition accept reject => by
      rw [Instruction.relabel, Block.relabel_same accept, Block.relabel_same reject]
      exact congrArg (Instruction.branch · accept reject) condition.relabel_id
  | .loop body => by rw [Instruction.relabel, Block.relabel_same body]
  | .yield value => by
      have values : Expr.relabel Relabeling.same.mentions = id := funext Expr.relabel_id
      rw [Instruction.relabel, values, Option.map_id]
      rfl
  | .declare _ | .function _ | .leave | .next | .discard | .emitVertex | .endPrimitive => rfl

/-- A list of which every handle stays is the list itself. -/
theorem Block.relabel_same : (block : List Instruction) → Block.relabel .same block = block
  | [] => rfl
  | instruction :: rest => by rw [Block.relabel, instruction.relabel_same, Block.relabel_same rest]

end

section Composition

section Places

variable (first second : VariableId → VariableId)

mutual

theorem Place.relabel_relabel : (place : Place) →
    (place.relabel first).relabel second = place.relabel fun id => second (first id)
  | .whole id => rfl
  | .element array index ty => by
      simp only [Place.relabel, array.relabel_relabel, index.relabel_relabel]
  | .field record name ty => by simp only [Place.relabel, record.relabel_relabel]

theorem Expr.relabel_relabel : (expression : Expr) →
    (expression.relabel first).relabel second = expression.relabel fun id => second (first id)
  | .constant value => rfl
  | .load place => by simp only [Expr.relabel, place.relabel_relabel]
  | .unary operator operand ty => by simp only [Expr.relabel, operand.relabel_relabel]
  | .binary operator left right ty => by
      simp only [Expr.relabel, left.relabel_relabel, right.relabel_relabel]
  | .swizzle value components ty => by simp only [Expr.relabel, value.relabel_relabel]
  | .compose ty components => by
      rw [Expr.relabel, Expr.relabel, Expr.relabelAll_relabelAll components, Expr.relabel]
  | .texture sampler coordinate ty => by
      simp only [Expr.relabel, sampler.relabel_relabel, coordinate.relabel_relabel]

theorem Expr.relabelAll_relabelAll : (expressions : List Expr) →
    Expr.relabelAll second (Expr.relabelAll first expressions) =
      Expr.relabelAll (fun id => second (first id)) expressions
  | [] => rfl
  | expression :: expressions => by
      rw [Expr.relabelAll, Expr.relabelAll, expression.relabel_relabel,
        Expr.relabelAll_relabelAll expressions, Expr.relabelAll]

end

end Places

variable (first second : Relabeling)

mutual

theorem Instruction.relabel_relabel : (instruction : Instruction) →
    (instruction.relabel first).relabel second = instruction.relabel (first.before second)
  | .assign target value guard => by
      simp [Instruction.relabel, Relabeling.before, Place.relabel_relabel, Expr.relabel_relabel,
        Function.comp_def]
  | .call callee arguments result => by
      simp [Instruction.relabel, Relabeling.before, Place.relabel_relabel, Expr.relabel_relabel,
        Function.comp_def]
  | .branch condition accept reject => by
      rw [Instruction.relabel, Instruction.relabel, Expr.relabel_relabel,
        Block.relabel_relabel accept, Block.relabel_relabel reject]
      rfl
  | .loop body => by
      rw [Instruction.relabel, Instruction.relabel, Block.relabel_relabel body, Instruction.relabel]
  | .yield value => by
      simp [Instruction.relabel, Relabeling.before, Expr.relabel_relabel, Function.comp_def]
  | .declare _ | .function _ | .leave | .next | .discard | .emitVertex | .endPrimitive => rfl

/-- Two exchanges of handles are one. -/
theorem Block.relabel_relabel : (block : List Instruction) →
    Block.relabel second (Block.relabel first block) = Block.relabel (first.before second) block
  | [] => rfl
  | instruction :: rest => by
      rw [Block.relabel, Block.relabel, instruction.relabel_relabel, Block.relabel_relabel rest,
        Block.relabel]

end

end Composition

/-! ## Nodes -/

mutual

theorem Place.nodes_relabel (names : Relabeling) : (place : Place) →
    (place.relabel names.mentions).nodes = place.nodes.map (Node.relabel names)
  | .whole id => rfl
  | .element array index ty => by
      simp only [Place.relabel, Place.nodes, List.map_cons, List.map_append, Node.relabel,
        Place.nodes_relabel names array, Expr.nodes_relabel names index]
  | .field record name ty => by
      simp only [Place.relabel, Place.nodes, List.map_cons, Node.relabel,
        Place.nodes_relabel names record]

theorem Expr.nodes_relabel (names : Relabeling) : (expression : Expr) →
    (expression.relabel names.mentions).nodes = expression.nodes.map (Node.relabel names)
  | .constant value => rfl
  | .load place => by
      simp only [Expr.relabel, Expr.nodes, List.map_cons, Node.relabel,
        Place.nodes_relabel names place]
  | .unary operator operand ty => by
      simp only [Expr.relabel, Expr.nodes, List.map_cons, Node.relabel,
        Expr.nodes_relabel names operand]
  | .binary operator left right ty => by
      simp only [Expr.relabel, Expr.nodes, List.map_cons, List.map_append, Node.relabel,
        Expr.nodes_relabel names left, Expr.nodes_relabel names right]
  | .swizzle value components ty => by
      simp only [Expr.relabel, Expr.nodes, List.map_cons, Node.relabel,
        Expr.nodes_relabel names value]
  | .compose ty components => by
      rw [Expr.relabel, Expr.nodes, Expr.nodesOfAll_relabelAll names components, Expr.nodes,
        List.map_cons, Node.relabel, Expr.relabel]
  | .texture sampler coordinate ty => by
      simp only [Expr.relabel, Expr.nodes, List.map_cons, List.map_append, Node.relabel,
        Place.nodes_relabel names sampler, Expr.nodes_relabel names coordinate]

theorem Expr.nodesOfAll_relabelAll (names : Relabeling) : (expressions : List Expr) →
    Expr.nodesOfAll (Expr.relabelAll names.mentions expressions) =
      (Expr.nodesOfAll expressions).map (Node.relabel names)
  | [] => rfl
  | expression :: expressions => by
      rw [Expr.relabelAll, Expr.nodesOfAll, Expr.nodesOfAll, List.map_append,
        Expr.nodes_relabel names expression, Expr.nodesOfAll_relabelAll names expressions]

end

theorem nodes_relabel_toList (names : Relabeling) {Part : Type} (nodes : Part → List Node)
    (relabel : Part → Part)
    (each : ∀ part, nodes (relabel part) = (nodes part).map (Node.relabel names))
    (part : Option Part) :
    (part.map relabel).toList.flatMap nodes =
      (part.toList.flatMap nodes).map (Node.relabel names) := by
  cases part with
  | none => rfl
  | some inner => simp [each]

theorem Instruction.operandNodes_relabel (names : Relabeling) (instruction : Instruction) :
    (instruction.relabel names).operandNodes =
      instruction.operandNodes.map (Node.relabel names) := by
  cases instruction with
  | assign target value guard =>
      simp only [Instruction.relabel, operandNodes, List.map_append, Place.nodes_relabel,
        Expr.nodes_relabel,
        nodes_relabel_toList names Expr.nodes _ (Expr.nodes_relabel names)]
  | call callee arguments result =>
      have nodes := Expr.nodesOfAll_relabelAll names arguments
      rw [Expr.nodesOfAll_eq_flatMap, Expr.nodesOfAll_eq_flatMap] at nodes
      simp only [Instruction.relabel, operandNodes, List.map_append, nodes,
        nodes_relabel_toList names Place.nodes _ (Place.nodes_relabel names)]
  | branch condition accept reject => exact Expr.nodes_relabel names condition
  | yield value => exact nodes_relabel_toList names Expr.nodes _ (Expr.nodes_relabel names) value
  | _ => rfl

mutual

theorem Instruction.nodes_relabel (names : Relabeling) {inside inside' : FunctionId → List Node} :
    (instruction : Instruction) →
    (∀ id, Node.instruction (.function id) ∈ instruction.nodes (fun _ => []) →
      inside' (names.functions id) = (inside id).map (Node.relabel names)) →
    (instruction.relabel names).nodes inside' = (instruction.nodes inside).map (Node.relabel names)
  | .function id, inner => by
      rw [Instruction.relabel, Instruction.nodes, inner id (List.mem_cons_self ..)]
      rfl
  | .branch condition accept reject, inner => by
      have accept_nodes := Block.nodes_relabel names accept fun id listed =>
        inner id (by simp [Instruction.nodes, listed])
      have reject_nodes := Block.nodes_relabel names reject fun id listed =>
        inner id (by simp [Instruction.nodes, listed])
      rw [Instruction.relabel, Instruction.nodes, Expr.nodes_relabel, accept_nodes, reject_nodes,
        Instruction.nodes, List.map_cons, List.map_append, List.map_append]
      rfl
  | .loop body, inner => by
      have body_nodes := Block.nodes_relabel names body fun id listed =>
        inner id (by simp [Instruction.nodes, listed])
      rw [Instruction.relabel, Instruction.nodes, body_nodes]
      rfl
  | .assign target value guard, _ =>
      congrArg (List.cons _) (Instruction.operandNodes_relabel names (.assign target value guard))
  | .call callee arguments result, _ =>
      congrArg (List.cons _)
        (Instruction.operandNodes_relabel names (.call callee arguments result))
  | .yield value, _ =>
      congrArg (List.cons _) (Instruction.operandNodes_relabel names (.yield value))
  | .declare _, _ | .leave, _ | .next, _ | .discard, _ | .emitVertex, _ | .endPrimitive, _ => rfl

theorem Block.nodes_relabel (names : Relabeling) {inside inside' : FunctionId → List Node} :
    (block : List Instruction) →
    (∀ id, Node.instruction (.function id) ∈ Block.nodes (fun _ => []) block →
      inside' (names.functions id) = (inside id).map (Node.relabel names)) →
    Block.nodes inside' (Block.relabel names block) =
      (Block.nodes inside block).map (Node.relabel names)
  | [], _ => rfl
  | instruction :: rest, inner => by
      rw [Block.relabel, Block.nodes, Block.nodes, List.map_append,
        instruction.nodes_relabel names fun id listed => inner id (by simp [Block.nodes, listed]),
        Block.nodes_relabel names rest fun id listed => inner id (by simp [Block.nodes, listed])]

end

theorem Block.ownNodes_relabel (names : Relabeling) (block : Block) :
    Block.ownNodes (Block.relabel names block) = block.ownNodes.map (Node.relabel names) :=
  Block.nodes_relabel names block fun _ _ => rfl

/-! ## Rewriting -/

section Traversal

variable {m : Type → Type} [Monad m] (ensuring : Ensuring m)
  {change : Place → m Place} {vars : VariableId → VariableId}

/-- A change of places that exchanges the variables among some nodes, and leaves all other
places. -/
structure Exchanges (change : Place → m Place) (vars : VariableId → VariableId)
    (nodes : List Node) : Prop where
  wholes : ∀ id, Node.place (.whole id) ∈ nodes →
    ensuring.ensures (change (.whole id)) (· = .whole (vars id))
  parts : ∀ place, place.isPart = true → ensuring.ensures (change place) (· = place)

theorem Exchanges.mono {nodes fewer : List Node} (exchanges : Exchanges ensuring change vars nodes)
    (among : ∀ node ∈ fewer, node ∈ nodes) : Exchanges ensuring change vars fewer :=
  ⟨fun id listed => exchanges.wholes id (among _ listed), exchanges.parts⟩

mutual

theorem Place.mapPlaces_relabel : (place : Place) → Exchanges ensuring change vars place.nodes →
    ensuring.ensures (place.mapPlaces change) (· = place.relabel vars)
  | .whole id, exchanges => by
      rw [Place.mapPlaces]
      exact exchanges.wholes id (List.mem_cons_self ..)
  | .element array index ty, exchanges => by
      rw [Place.mapPlaces]
      refine ensuring.bind (Place.mapPlaces_relabel array
        (exchanges.mono ensuring fun node listed => by simp [Place.nodes, listed])) fun _ => ?_
      refine ensuring.bind (Expr.mapPlaces_relabel index
        (exchanges.mono ensuring fun node listed => by simp [Place.nodes, listed])) fun _ => ?_
      refine ensuring.weaken (fun _ same second first => ?_) (exchanges.parts _ rfl)
      rw [same, first, second, Place.relabel]
  | .field record name ty, exchanges => by
      rw [Place.mapPlaces]
      refine ensuring.bind (Place.mapPlaces_relabel record
        (exchanges.mono ensuring fun node listed => by simp [Place.nodes, listed])) fun _ => ?_
      refine ensuring.weaken (fun _ same inner => ?_) (exchanges.parts _ rfl)
      rw [same, inner, Place.relabel]

theorem Expr.mapPlaces_relabel : (expression : Expr) →
    Exchanges ensuring change vars expression.nodes →
    ensuring.ensures (expression.mapPlaces change) (· = expression.relabel vars)
  | .constant value, _ => ensuring.pure rfl
  | .load place, exchanges => by
      rw [Expr.mapPlaces]
      exact ensuring.bind (Place.mapPlaces_relabel place
        (exchanges.mono ensuring fun node listed => by simp [Expr.nodes, listed]))
        fun _ => ensuring.pure fun inner => by rw [inner, Expr.relabel]
  | .unary operator operand ty, exchanges => by
      rw [Expr.mapPlaces]
      exact ensuring.bind (Expr.mapPlaces_relabel operand
        (exchanges.mono ensuring fun node listed => by simp [Expr.nodes, listed]))
        fun _ => ensuring.pure fun inner => by rw [inner, Expr.relabel]
  | .binary operator left right ty, exchanges => by
      rw [Expr.mapPlaces]
      refine ensuring.bind (Expr.mapPlaces_relabel left
        (exchanges.mono ensuring fun node listed => by simp [Expr.nodes, listed])) fun _ => ?_
      exact ensuring.bind (Expr.mapPlaces_relabel right
        (exchanges.mono ensuring fun node listed => by simp [Expr.nodes, listed]))
        fun _ => ensuring.pure fun second first => by rw [first, second, Expr.relabel]
  | .swizzle value components ty, exchanges => by
      rw [Expr.mapPlaces]
      exact ensuring.bind (Expr.mapPlaces_relabel value
        (exchanges.mono ensuring fun node listed => by simp [Expr.nodes, listed]))
        fun _ => ensuring.pure fun inner => by rw [inner, Expr.relabel]
  | .compose ty components, exchanges => by
      rw [Expr.mapPlaces]
      exact ensuring.bind (Expr.mapPlacesOfAll_relabel components
        (exchanges.mono ensuring fun node listed => by
          rw [Expr.nodes]
          exact List.mem_cons_of_mem _ listed))
        fun _ => ensuring.pure fun inner => by rw [inner, Expr.relabel]
  | .texture sampler coordinate ty, exchanges => by
      rw [Expr.mapPlaces]
      refine ensuring.bind (Place.mapPlaces_relabel sampler
        (exchanges.mono ensuring fun node listed => by simp [Expr.nodes, listed])) fun _ => ?_
      exact ensuring.bind (Expr.mapPlaces_relabel coordinate
        (exchanges.mono ensuring fun node listed => by simp [Expr.nodes, listed]))
        fun _ => ensuring.pure fun second first => by rw [first, second, Expr.relabel]

theorem Expr.mapPlacesOfAll_relabel : (expressions : List Expr) →
    Exchanges ensuring change vars (Expr.nodesOfAll expressions) →
    ensuring.ensures (Expr.mapPlacesOfAll change expressions) (· = Expr.relabelAll vars expressions)
  | [], _ => ensuring.pure rfl
  | expression :: expressions, exchanges => by
      rw [Expr.mapPlacesOfAll]
      refine ensuring.bind (Expr.mapPlaces_relabel expression
        (exchanges.mono ensuring fun node listed => by
          rw [Expr.nodesOfAll]
          exact List.mem_append_left _ listed)) fun _ => ?_
      exact ensuring.bind (Expr.mapPlacesOfAll_relabel expressions
        (exchanges.mono ensuring fun node listed => by
          rw [Expr.nodesOfAll]
          exact List.mem_append_right _ listed))
        fun _ => ensuring.pure fun rest first => by rw [first, rest, Expr.relabelAll]

end

theorem mapOption_relabel {Part : Type} {change : Part → m Part} {relabel : Part → Part}
    {part : Option Part}
    (each : ∀ inner ∈ part, ensuring.ensures (change inner) (· = relabel inner)) :
    ensuring.ensures (mapOption change part) (· = part.map relabel) := by
  cases part with
  | none => exact ensuring.pure rfl
  | some inner =>
      exact ensuring.bind (each inner rfl) fun _ => ensuring.pure fun same => congrArg some same

variable {names : Relabeling}

/-- Changing the places in the operands of an instruction relabels it apart from the blocks inside
it, if its own handles stay. -/
theorem Instruction.mapPlaces_relabel (instruction : Instruction)
    (exchanges : Exchanges ensuring change names.mentions instruction.operandNodes)
    (declared : ∀ id, instruction = .declare id → names.declares id = id)
    (function : ∀ id, instruction = .function id → names.functions id = id)
    (called : ∀ callee arguments result, instruction = .call callee arguments result →
      names.calls callee = callee) :
    ensuring.ensures (instruction.mapPlaces change)
      (fun changed => changed.bare = instruction.bare.relabel names) := by
  cases instruction with
  | declare id => exact ensuring.pure (congrArg Instruction.declare (declared id rfl).symm)
  | function id => exact ensuring.pure (congrArg Instruction.function (function id rfl).symm)
  | assign target value guard =>
      refine ensuring.bind (Place.mapPlaces_relabel ensuring target
        (exchanges.mono ensuring fun node listed => by simp [operandNodes, listed])) fun _ => ?_
      refine ensuring.bind (Expr.mapPlaces_relabel ensuring value
        (exchanges.mono ensuring fun node listed => by simp [operandNodes, listed])) fun _ => ?_
      refine ensuring.bind (mapOption_relabel ensuring fun inner here =>
        Expr.mapPlaces_relabel ensuring inner (exchanges.mono ensuring fun node listed => ?_))
        fun _ => ensuring.pure fun third second first => by rw [first, second, third]; rfl
      obtain rfl : guard = some inner := here
      simp [operandNodes, listed]
  | call callee arguments result =>
      refine ensuring.bind (Expr.mapPlacesOfAll_relabel ensuring arguments
        (exchanges.mono ensuring fun node listed => ?_)) fun _ => ?_
      · rw [Expr.nodesOfAll_eq_flatMap] at listed
        exact List.mem_append_left _ listed
      refine ensuring.bind (mapOption_relabel ensuring fun inner here =>
        Place.mapPlaces_relabel ensuring inner (exchanges.mono ensuring fun node listed => ?_))
        fun _ => ensuring.pure fun second first => ?_
      · obtain rfl : result = some inner := here
        exact List.mem_append_right _ (by simpa using listed)
      · rw [first, second]
        exact congrArg (Instruction.call · _ _) (called callee arguments result rfl).symm
  | branch condition accept reject =>
      exact ensuring.bind (Expr.mapPlaces_relabel ensuring condition exchanges)
        fun _ => ensuring.pure fun first => by rw [first]; rfl
  | loop body => exact ensuring.pure rfl
  | yield value =>
      refine ensuring.bind (mapOption_relabel ensuring fun inner here =>
        Expr.mapPlaces_relabel ensuring inner (exchanges.mono ensuring fun node listed => ?_))
        fun _ => ensuring.pure fun first => by rw [first]; rfl
      obtain rfl : value = some inner := here
      simp [operandNodes, listed]
  | leave | next | discard | emitVertex | endPrimitive => exact ensuring.pure rfl

/-- An instruction without blocks is relabeled as a whole. -/
theorem Instruction.eq_relabel_of_bare {instruction changed : Instruction}
    (same : changed.bare = instruction.bare.relabel names)
    (no_blocks : ∀ first second, instruction.withBlocks first second = instruction) :
    changed = instruction.relabel names := by
  have alone : instruction.bare = instruction := no_blocks [] []
  rw [alone] at same
  obtain ⟨no_branch, no_loop⟩ := blockless no_blocks
  cases instruction with
  | branch condition accept reject => exact absurd rfl (no_branch condition accept reject)
  | loop body => exact absurd rfl (no_loop body)
  | _ =>
      cases changed with
      | branch _ _ _ => cases same
      | loop _ => cases same
      | _ => exact same

theorem Instruction.withBlocks_of_branch {condition : Expr} {accept reject first second : Block}
    {changed : Instruction}
    (same : changed.bare = (Instruction.branch condition accept reject).bare.relabel names) :
    changed.withBlocks first second =
      .branch (condition.relabel names.mentions) first second := by
  cases changed with
  | branch condition' accept' reject' =>
      have inner : condition' = condition.relabel names.mentions := (Instruction.branch.inj same).1
      rw [inner]
      rfl
  | _ => cases same

theorem Instruction.withBlocks_of_loop {body first second : Block} {changed : Instruction}
    (same : changed.bare = (Instruction.loop body).bare.relabel names) :
    changed.withBlocks first second = .loop first := by
  cases changed with
  | loop body' => rfl
  | _ => cases same

variable {rewrite : Instruction → m Instruction}

mutual

/-- If every instruction is relabeled apart from its blocks, then so is the whole. -/
theorem Instruction.mapInstructions_relabel : (instruction : Instruction) →
    (∀ inner, Node.instruction inner ∈ instruction.nodes (fun _ => []) →
      ensuring.ensures (rewrite inner) (fun changed => changed.bare = inner.bare.relabel names)) →
    ensuring.ensures (instruction.mapInstructions rewrite) (· = instruction.relabel names)
  | .branch condition accept reject, each => by
      rw [Instruction.mapInstructions]
      refine ensuring.bind (each _ (by simp [Instruction.nodes])) fun _ => ?_
      refine ensuring.bind (Block.mapInstructions_relabel accept fun inner listed =>
        each inner (by simp [Instruction.nodes, listed])) fun _ => ?_
      exact ensuring.bind (Block.mapInstructions_relabel reject fun inner listed =>
        each inner (by simp [Instruction.nodes, listed]))
        fun _ => ensuring.pure fun third second first => by
          rw [second, third, Instruction.withBlocks_of_branch first, Instruction.relabel]
  | .loop body, each => by
      rw [Instruction.mapInstructions]
      refine ensuring.bind (each _ (by simp [Instruction.nodes])) fun _ => ?_
      exact ensuring.bind (Block.mapInstructions_relabel body fun inner listed =>
        each inner (by simp [Instruction.nodes, listed]))
        fun _ => ensuring.pure fun second first => by
          rw [second, Instruction.withBlocks_of_loop first, Instruction.relabel]
  | .declare _, each | .function _, each | .assign _ _ _, each | .call _ _ _, each
  | .leave, each | .next, each | .yield _, each | .discard, each | .emitVertex, each
  | .endPrimitive, each => by
      rw [Instruction.mapInstructions]
      · exact ensuring.weaken (fun _ same => Instruction.eq_relabel_of_bare same fun _ _ => rfl)
          (each _ (by simp [Instruction.nodes]))
      all_goals simp

theorem Block.mapInstructions_relabel : (block : List Instruction) →
    (∀ inner, Node.instruction inner ∈ Block.nodes (fun _ => []) block →
      ensuring.ensures (rewrite inner) (fun changed => changed.bare = inner.bare.relabel names)) →
    ensuring.ensures (Block.mapInstructions rewrite block) (· = Block.relabel names block)
  | [], _ => ensuring.pure rfl
  | instruction :: rest, each => by
      rw [Block.mapInstructions]
      refine ensuring.bind (Instruction.mapInstructions_relabel instruction fun inner listed =>
        each inner (by simp [Block.nodes, listed])) fun _ => ?_
      exact ensuring.bind (Block.mapInstructions_relabel rest fun inner listed =>
        each inner (by simp [Block.nodes, listed]))
        fun _ => ensuring.pure fun second first => by rw [first, second, Block.relabel]

end

end Traversal
end StageLink
