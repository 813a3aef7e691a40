import StageLink.Proofs.Renumbering
import StageLink.Shader.Listing

/-!
# Listings of relabeled shaders

A listing shows variables and functions by name, and types, constants and shapes as they are.  So it
does not tell apart two shaders of which one is the other relabeled, if the handles point to the
same declarations; and compaction leaves the listing unchanged.
-/

namespace StageLink

/-! ## Places and expressions -/

section Texts

variable {before after : Arena Variable} {vars : VariableId → VariableId}

/-! The text of places and expressions, form by form.  These hold by definition; the equations that
`simp` would make of the definition take far longer to check. -/

theorem Place.text_whole (id : VariableId) :
    (Place.whole id).text before = s!"(var_ref {variableText before id})" := rfl

theorem Place.text_element (array : Place) (index : Expr) (ty : Ty) :
    (Place.element array index ty).text before =
      s!"(array_ref {array.text before} {index.text before})" := rfl

theorem Place.text_field (record : Place) (name : String) (ty : Ty) :
    (Place.field record name ty).text before = s!"(record_ref {record.text before} {name})" := rfl

theorem Expr.text_load (place : Place) : (Expr.load place).text before = place.text before := rfl

theorem Expr.text_unary (operator : UnaryOperator) (operand : Expr) (ty : Ty) :
    (Expr.unary operator operand ty).text before =
      s!"(expression {ty.text} {operator.text} {operand.text before})" := rfl

theorem Expr.text_binary (operator : BinaryOperator) (left right : Expr) (ty : Ty) :
    (Expr.binary operator left right ty).text before =
      s!"(expression {ty.text} {operator.text} {left.text before} {right.text before})" := rfl

theorem Expr.text_swizzle (value : Expr) (components : List Nat) (ty : Ty) :
    (Expr.swizzle value components ty).text before =
      s!"(swiz {String.ofList (components.map swizzleLetter)} {value.text before})" := rfl

theorem Expr.text_compose (ty : Ty) (components : List Expr) :
    (Expr.compose ty components).text before =
      s!"(compose {ty.text} {Constant.spaced (Expr.textsOfAll before components)})" := rfl

theorem Expr.text_texture (sampler : Place) (coordinate : Expr) (ty : Ty) :
    (Expr.texture sampler coordinate ty).text before =
      s!"(tex {ty.text} {sampler.text before} {coordinate.text before})" := rfl

/-- The variables in some places are shown by the same names. -/
def SameNames (before after : Arena Variable) (vars : VariableId → VariableId) (nodes : List Node) :
    Prop :=
  ∀ id, Node.place (.whole id) ∈ nodes → variableText after (vars id) = variableText before id

theorem SameNames.mono {nodes fewer : List Node} (same : SameNames before after vars nodes)
    (among : ∀ node ∈ fewer, node ∈ nodes) : SameNames before after vars fewer :=
  fun id listed => same id (among _ listed)

mutual

theorem Place.text_relabel : (place : Place) → SameNames before after vars place.nodes →
    (place.relabel vars).text after = place.text before
  | .whole id, same => by
      have named := same id (List.mem_cons_self ..)
      rw [Place.relabel, Place.text_whole, named, Place.text_whole]
  | .element array index ty, same => by
      have array_text := array.text_relabel
        (same.mono fun node listed => by simp [Place.nodes, listed])
      have index_text := index.text_relabel
        (same.mono fun node listed => by simp [Place.nodes, listed])
      rw [Place.relabel, Place.text_element, array_text, index_text, Place.text_element]
  | .field record name ty, same => by
      have record_text := record.text_relabel
        (same.mono fun node listed => by simp [Place.nodes, listed])
      rw [Place.relabel, Place.text_field, record_text, Place.text_field]

theorem Expr.text_relabel : (expression : Expr) → SameNames before after vars expression.nodes →
    (expression.relabel vars).text after = expression.text before
  | .constant value, _ => rfl
  | .load place, same => by
      have place_text := place.text_relabel
        (same.mono fun node listed => by simp [Expr.nodes, listed])
      rw [Expr.relabel, Expr.text_load, place_text, Expr.text_load]
  | .unary operator operand ty, same => by
      have operand_text := operand.text_relabel
        (same.mono fun node listed => by simp [Expr.nodes, listed])
      rw [Expr.relabel, Expr.text_unary, operand_text, Expr.text_unary]
  | .binary operator left right ty, same => by
      have left_text := left.text_relabel
        (same.mono fun node listed => by simp [Expr.nodes, listed])
      have right_text := right.text_relabel
        (same.mono fun node listed => by simp [Expr.nodes, listed])
      rw [Expr.relabel, Expr.text_binary, left_text, right_text, Expr.text_binary]
  | .swizzle value components ty, same => by
      have value_text := value.text_relabel
        (same.mono fun node listed => by simp [Expr.nodes, listed])
      rw [Expr.relabel, Expr.text_swizzle, value_text, Expr.text_swizzle]
  | .compose ty components, same => by
      have texts := Expr.textsOfAll_relabelAll components (same.mono fun node listed => by
        rw [Expr.nodes]
        exact List.mem_cons_of_mem _ listed)
      rw [Expr.relabel, Expr.text_compose, texts, Expr.text_compose]
  | .texture sampler coordinate ty, same => by
      have sampler_text := sampler.text_relabel
        (same.mono fun node listed => by simp [Expr.nodes, listed])
      have coordinate_text := coordinate.text_relabel
        (same.mono fun node listed => by simp [Expr.nodes, listed])
      rw [Expr.relabel, Expr.text_texture, sampler_text, coordinate_text, Expr.text_texture]

theorem Expr.textsOfAll_relabelAll : (expressions : List Expr) →
    SameNames before after vars (Expr.nodesOfAll expressions) →
    Expr.textsOfAll after (Expr.relabelAll vars expressions) = Expr.textsOfAll before expressions
  | [], _ => rfl
  | expression :: expressions, same => by
      have first := expression.text_relabel (same.mono fun node listed => by
        rw [Expr.nodesOfAll]
        exact List.mem_append_left _ listed)
      have others := Expr.textsOfAll_relabelAll expressions (same.mono fun node listed => by
        rw [Expr.nodesOfAll]
        exact List.mem_append_right _ listed)
      simp only [Expr.relabelAll, Expr.textsOfAll, first, others]

end

end Texts

/-! ## Instructions -/

section Lines

variable {before after : Shader} {names : Relabeling}

/-- What a listing shows of the handles in some nodes is the same for the new handles. -/
structure Relabeling.Shows (names : Relabeling) (before after : Shader)
    (nodes : List Node) : Prop where
  declares : ∀ id, Node.instruction (.declare id) ∈ nodes → ∃ declared,
    before.vars.get? id = some declared ∧ after.vars.get? (names.declares id) = some declared
  mentions : SameNames before.vars after.vars names.mentions nodes
  functions : ∀ id, Node.instruction (.function id) ∈ nodes → ∃ function changed,
    before.functions.get? id = some function ∧
      after.functions.get? (names.functions id) = some changed ∧ changed.name = function.name
  calls : ∀ callee arguments result, Node.instruction (.call callee arguments result) ∈ nodes →
    (after.functions.get? (names.calls callee).function).map (·.name) =
      (before.functions.get? callee.function).map (·.name)

theorem Relabeling.Shows.mono {nodes fewer : List Node} (shows_all : names.Shows before after nodes)
    (among : ∀ node ∈ fewer, node ∈ nodes) : names.Shows before after fewer where
  declares id listed := shows_all.declares id (among _ listed)
  mentions := shows_all.mentions.mono among
  functions id listed := shows_all.functions id (among _ listed)
  calls callee arguments result listed := shows_all.calls callee arguments result (among _ listed)

/-- The lines of functions are the same for the new handles, at every depth. -/
def SameInside (names : Relabeling) (inside inside' : Nat → FunctionId → List String)
    (nodes : List Node) : Prop :=
  ∀ id, Node.instruction (.function id) ∈ nodes →
    ∀ depth, inside' depth (names.functions id) = inside depth id

theorem SameInside.mono {inside inside' : Nat → FunctionId → List String} {nodes fewer : List Node}
    (same : SameInside names inside inside' nodes) (among : ∀ node ∈ fewer, node ∈ nodes) :
    SameInside names inside inside' fewer :=
  fun id listed => same id (among _ listed)

variable {inside inside' : Nat → FunctionId → List String}

theorem isEmpty_relabel (block : Block) : (Block.relabel names block).isEmpty = block.isEmpty := by
  cases block <;> rfl

mutual

theorem Instruction.lines_relabel : (instruction : Instruction) → (depth : Nat) →
    names.Shows before after (instruction.nodes fun _ => []) →
    SameInside names inside inside' (instruction.nodes fun _ => []) →
    (instruction.relabel names).lines after inside' depth = instruction.lines before inside depth
  | .declare id, depth, shows_all, _ => by
      obtain ⟨declared, found, found_now⟩ := shows_all.declares id (List.mem_cons_self ..)
      simp only [Instruction.relabel, Instruction.lines, found, found_now]
  | .function id, depth, shows_all, same => by
      obtain ⟨function, changed, found, found_now, named⟩ :=
        shows_all.functions id (List.mem_cons_self ..)
      simp only [Instruction.relabel, Instruction.lines, found, found_now, named,
        same id (List.mem_cons_self ..)]
  | .assign target value guard, depth, shows_all, _ => by
      have in_target := target.text_relabel (shows_all.mentions.mono fun node listed => by
        simp [Instruction.nodes, Instruction.operandNodes, listed])
      have in_value := value.text_relabel (shows_all.mentions.mono fun node listed => by
        simp [Instruction.nodes, Instruction.operandNodes, listed])
      cases guard with
      | none =>
          simp only [Instruction.relabel, Instruction.lines, Option.map_none, in_target, in_value]
      | some condition =>
          have in_guard := condition.text_relabel (shows_all.mentions.mono fun node listed => by
            simp [Instruction.nodes, Instruction.operandNodes, listed])
          simp only [Instruction.relabel, Instruction.lines, Option.map_some, in_target, in_value,
            in_guard]
  | .call callee arguments result, depth, shows_all, _ => by
      have called := shows_all.calls callee arguments result (List.mem_cons_self ..)
      have in_arguments := Expr.textsOfAll_relabelAll arguments
        (shows_all.mentions.mono fun node listed => by
          rw [Expr.nodesOfAll_eq_flatMap] at listed
          exact List.mem_cons_of_mem _ (List.mem_append_left _ listed))
      cases result with
      | none =>
          simp only [Instruction.relabel, Instruction.lines, Option.map_none, called, in_arguments]
      | some place =>
          have in_result := place.text_relabel (shows_all.mentions.mono fun node listed => by
            simp [Instruction.nodes, Instruction.operandNodes, listed])
          simp only [Instruction.relabel, Instruction.lines, Option.map_some, called, in_arguments,
            in_result]
  | .branch condition accept reject, depth, shows_all, same => by
      have in_condition := condition.text_relabel (shows_all.mentions.mono fun node listed => by
        simp [Instruction.nodes, listed])
      have accepted := Block.lines_relabel accept (depth + 1)
        (shows_all.mono fun node listed => by simp [Instruction.nodes, listed])
        (same.mono fun node listed => by simp [Instruction.nodes, listed])
      have rejected := Block.lines_relabel reject (depth + 1)
        (shows_all.mono fun node listed => by simp [Instruction.nodes, listed])
        (same.mono fun node listed => by simp [Instruction.nodes, listed])
      simp only [Instruction.relabel, Instruction.lines, in_condition, accepted, rejected,
        isEmpty_relabel]
  | .loop body, depth, shows_all, same => by
      have inner := Block.lines_relabel body (depth + 1)
        (shows_all.mono fun node listed => by simp [Instruction.nodes, listed])
        (same.mono fun node listed => by simp [Instruction.nodes, listed])
      simp only [Instruction.relabel, Instruction.lines, inner]
  | .yield none, _, _, _ => rfl
  | .yield (some value), depth, shows_all, _ => by
      have in_value := value.text_relabel (shows_all.mentions.mono fun node listed => by
        simp [Instruction.nodes, Instruction.operandNodes, listed])
      simp only [Instruction.relabel, Option.map_some, Instruction.lines, in_value]
  | .leave, _, _, _ | .next, _, _, _ | .discard, _, _, _ | .emitVertex, _, _, _
  | .endPrimitive, _, _, _ => rfl

/-- A relabeled list has the lines of the list, if its handles are shown as they were. -/
theorem Block.lines_relabel : (block : List Instruction) → (depth : Nat) →
    names.Shows before after (Block.nodes (fun _ => []) block) →
    SameInside names inside inside' (Block.nodes (fun _ => []) block) →
    Block.lines after inside' depth (Block.relabel names block) =
      Block.lines before inside depth block
  | [], _, _, _ => rfl
  | instruction :: rest, depth, shows_all, same => by
      have first := instruction.lines_relabel depth
        (shows_all.mono fun node listed => by simp [Block.nodes, listed])
        (same.mono fun node listed => by simp [Block.nodes, listed])
      have others := Block.lines_relabel rest depth
        (shows_all.mono fun node listed => by simp [Block.nodes, listed])
        (same.mono fun node listed => by simp [Block.nodes, listed])
      rw [Block.relabel, Block.lines, Block.lines, first, others]

end

end Lines

/-! ## Compaction -/

namespace Shader

/-- The lines of a signature, with functions declared inside one another to a given nesting. -/
def signatureLines (shader : Shader) (nesting depth : Nat) (signature : Signature) : List String :=
  [indentation (depth + 1) ++ shader.signatureText signature]
    ++ Block.lines shader (shader.functionLines nesting) (depth + 2) signature.body
    ++ [indentation (depth + 1) ++ ")"]

theorem functionLines_succ (shader : Shader) (nesting depth : Nat) (id : FunctionId) :
    shader.functionLines (nesting + 1) depth id =
      (shader.signaturesOf id).flatMap (shader.signatureLines nesting depth) := rfl

/-- The lines of the signature that a callee stands for, if there is one. -/
def calleeLines (shader : Shader) (callee : Callee) : Option (List String) :=
  (shader.signaturesOf callee.function)[callee.signature]?.map
    (shader.signatureLines shader.functions.size 0)

theorem exists_nesting {shader : Shader} {id : FunctionId} (inside : id < shader.functions.size) :
    ∃ nesting, shader.functions.size = nesting + 1 :=
  Nat.exists_eq_succ_of_ne_zero (Nat.ne_of_gt (Nat.zero_lt_of_lt inside))

namespace Closed

variable {shader : Shader} {id : FunctionId} {signature : Signature}

theorem shows_compacted (closed : shader.Closed) :
    shader.moves.Shows shader shader.compacted shader.nodes where
  declares id listed := by
    have is_declared := mem_declaredIn.mpr listed
    have used : id ∈ shader.inUse := List.mem_append_left _ (List.mem_append_left _ is_declared)
    obtain ⟨declared, found⟩ := Arena.exists_get? (closed.bound used)
    exact ⟨declared, found, (closed.vars_moved used).trans found⟩
  mentions id listed := by
    have placed := mem_dereferenced.mpr listed
    have used : id ∈ shader.inUse := List.mem_append_left _ (List.mem_append_right _ placed)
    obtain ⟨declared, found⟩ := Arena.exists_get? (closed.bound used)
    simp only [variableText, closed.vars_moved used, found]
  functions id listed := by
    rcases (mem_nodes closed.on_top).mp listed with own | ⟨other, was_declared,
      signature, there, inner⟩
    · have is_declared := closed.on_top.declared own
      obtain ⟨function, found⟩ := Arena.exists_get? (closed.functions id is_declared)
      have moved := closed.functions_moved is_declared
      rw [found] at moved
      exact ⟨function, _, found, moved, rfl⟩
    · exact absurd inner (closed.on_top.bodies other was_declared signature there id)
  calls callee arguments result listed := by
    have is_declared := (closed.holds.calls callee arguments result listed).1
    have moved : shader.compacted.functions.get? (shader.moves.calls callee).function = _ :=
      closed.functions_moved is_declared
    rw [moved, Option.map_map]
    rfl

theorem signatureText_compacted (closed : shader.Closed)
    (is_declared : id ∈ shader.declaredFunctions) (listed : signature ∈ shader.signaturesOf id) :
    shader.compacted.signatureText (signature.relabel shader.moves) =
      shader.signatureText signature := by
  have parameters : (signature.parameters.map shader.moves.mentions).filterMap
      shader.compacted.vars.get? = signature.parameters.filterMap shader.vars.get? := by
    rw [List.filterMap_map]
    refine List.filterMap_congr fun parameter inside => closed.vars_moved ?_
    exact List.mem_append_right _ (List.mem_flatMap.mpr
      ⟨id, is_declared, List.mem_flatMap.mpr ⟨signature, listed, inside⟩⟩)
  unfold signatureText
  rw [Signature.relabel, parameters]

/-- A body holds no functions, so that its lines do not depend on how deep functions may be
nested. -/
theorem signatureLines_compacted (closed : shader.Closed)
    (is_declared : id ∈ shader.declaredFunctions) (listed : signature ∈ shader.signaturesOf id)
    (nesting nesting' depth : Nat) :
    shader.compacted.signatureLines nesting' depth (signature.relabel shader.moves) =
      shader.signatureLines nesting depth signature := by
  have body : Block.lines shader.compacted (shader.compacted.functionLines nesting') (depth + 2)
      (Block.relabel shader.moves signature.body) =
        Block.lines shader (shader.functionLines nesting) (depth + 2) signature.body := by
    refine Block.lines_relabel signature.body _
      (closed.shows_compacted.mono (nodes_of_body is_declared listed)) fun other inner => ?_
    exact absurd inner (closed.on_top.bodies id is_declared signature listed other)
  rw [signatureLines, signatureLines, closed.signatureText_compacted is_declared listed]
  exact congrArg
    (fun lines => [indentation (depth + 1) ++ shader.signatureText signature] ++ lines ++
      [indentation (depth + 1) ++ ")"]) body

theorem functionLines_compacted (closed : shader.Closed)
    (is_declared : id ∈ shader.declaredFunctions) (depth : Nat) :
    shader.compacted.functionLines shader.compacted.functions.size depth
      (shader.moves.functions id) =
      shader.functionLines shader.functions.size depth id := by
  have inside := closed.functions id is_declared
  obtain ⟨function, found⟩ := Arena.exists_get? inside
  have moved := closed.functions_moved is_declared
  rw [found] at moved
  obtain ⟨nesting, size⟩ := exists_nesting inside
  obtain ⟨nesting', size'⟩ := exists_nesting (Arena.lt_of_get? moved)
  rw [size, size', functionLines_succ, functionLines_succ, closed.signatures_moved is_declared,
    List.flatMap_map]
  exact List.flatMap_congr fun signature listed =>
    closed.signatureLines_compacted is_declared listed nesting nesting' depth

/-- Compaction leaves the listing unchanged. -/
theorem listing_compacted (closed : shader.Closed) : shader.compacted.listing = shader.listing := by
  have topLevel : Block.lines shader.compacted
      (shader.compacted.functionLines shader.compacted.functions.size) 0 shader.compacted.topLevel =
        Block.lines shader (shader.functionLines shader.functions.size) 0 shader.topLevel :=
    Block.lines_relabel shader.topLevel 0
      (closed.shows_compacted.mono (Block.nodes_of_own shader.topLevel)) fun id listed depth =>
        closed.functionLines_compacted (closed.on_top.declared listed) depth
  rw [listing, topLevel, listing]
  rfl

end Closed
end Shader
end StageLink
