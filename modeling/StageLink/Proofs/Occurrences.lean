import StageLink.Proofs.Alike
import StageLink.Optimize.DeadFunctions
import StageLink.Shader.Problems

/-!
# Occurrences of handles

The handles that an instruction list holds occur in a fixed order: a variable is declared or
mentioned, or a signature is called.  Instruction lists that are alike have corresponding
occurrences.
-/

namespace StageLink

/-- A place where a node holds a handle. -/
inductive Occurrence where
  | declares (id : VariableId)
  | mentions (id : VariableId)
  | calls (callee : Callee)

/-- What a node itself holds. -/
def Node.occurrence? : Node → Option Occurrence
  | .instruction (.declare id) => some (.declares id)
  | .instruction (.call callee _ _) => some (.calls callee)
  | .place (.whole id) => some (.mentions id)
  | _ => none

def Occurrence.declared? : Occurrence → Option VariableId
  | declares id => some id
  | _ => none

/-- What some nodes hold, in order. -/
def occurrences (nodes : List Node) : List Occurrence := nodes.filterMap Node.occurrence?

@[simp]
theorem occurrences_nil : occurrences [] = [] := rfl

@[simp]
theorem occurrences_append (nodes more : List Node) :
    occurrences (nodes ++ more) = occurrences nodes ++ occurrences more :=
  List.filterMap_append

theorem occurrences_cons (node : Node) (nodes : List Node) :
    occurrences (node :: nodes) = node.occurrence?.toList ++ occurrences nodes := by
  cases held : node.occurrence? <;> simp [occurrences, held]

theorem declaredIn_eq_filterMap (nodes : List Node) :
    Shader.declaredIn nodes = (occurrences nodes).filterMap Occurrence.declared? := by
  rw [Shader.declaredIn, occurrences, List.filterMap_filterMap]
  refine List.filterMap_congr fun node _ => ?_
  cases node with
  | instruction instruction => cases instruction <;> rfl
  | expr expression => rfl
  | place place => cases place <;> rfl

/-- The node holds the occurrence itself. -/
def Occurrence.HeldBy : Occurrence → Node → Prop
  | declares id, node => node = .instruction (.declare id)
  | mentions id, node => node = .place (.whole id)
  | calls callee, node => ∃ arguments result, node = .instruction (.call callee arguments result)

theorem Node.occurrence?_eq_some {node : Node} {occurrence : Occurrence} :
    node.occurrence? = some occurrence ↔ occurrence.HeldBy node := by
  constructor
  · intro held
    unfold Node.occurrence? at held
    split at held <;> cases held
    · rfl
    · exact ⟨_, _, rfl⟩
    · rfl
  · intro held
    cases occurrence with
    | declares id | mentions id => rw [show node = _ from held, Node.occurrence?]
    | calls callee =>
        obtain ⟨arguments, result, rfl⟩ := held
        rfl

theorem mem_occurrences {nodes : List Node} {occurrence : Occurrence} :
    occurrence ∈ occurrences nodes ↔ ∃ node ∈ nodes, occurrence.HeldBy node := by
  simp only [occurrences, List.mem_filterMap, Node.occurrence?_eq_some]

theorem declares_mem {nodes : List Node} {id : VariableId} :
    Occurrence.declares id ∈ occurrences nodes ↔ Node.instruction (.declare id) ∈ nodes := by
  simp [mem_occurrences, Occurrence.HeldBy]

theorem mentions_mem {nodes : List Node} {id : VariableId} :
    Occurrence.mentions id ∈ occurrences nodes ↔ Node.place (.whole id) ∈ nodes := by
  simp [mem_occurrences, Occurrence.HeldBy]

theorem calls_mem {nodes : List Node} {callee : Callee} :
    Occurrence.calls callee ∈ occurrences nodes ↔
      ∃ arguments result, Node.instruction (.call callee arguments result) ∈ nodes := by
  rw [mem_occurrences]
  constructor
  · rintro ⟨_, listed, arguments, result, rfl⟩
    exact ⟨arguments, result, listed⟩
  · rintro ⟨arguments, result, listed⟩
    exact ⟨_, listed, arguments, result, rfl⟩

/-! ## Declarations -/

@[simp]
theorem declaredIn_nil : Shader.declaredIn [] = [] := rfl

@[simp]
theorem declaredIn_append (nodes more : List Node) :
    Shader.declaredIn (nodes ++ more) = Shader.declaredIn nodes ++ Shader.declaredIn more :=
  List.filterMap_append

@[simp]
theorem mem_declaredIn {nodes : List Node} {id : VariableId} :
    id ∈ Shader.declaredIn nodes ↔ Node.instruction (.declare id) ∈ nodes := by
  rw [declaredIn_eq_filterMap, List.mem_filterMap, ← declares_mem]
  constructor
  · rintro ⟨occurrence, listed, declared⟩
    cases occurrence <;> simp [Occurrence.declared?] at declared
    exact declared ▸ listed
  · intro listed
    exact ⟨_, listed, rfl⟩

mutual

theorem Place.no_instruction : (place : Place) → ∀ instruction,
    Node.instruction instruction ∉ place.nodes
  | .whole _, _ => by simp [Place.nodes]
  | .element array index _, instruction => by
      simp [Place.nodes, array.no_instruction, index.no_instruction]
  | .field record _ _, instruction => by simp [Place.nodes, record.no_instruction]

theorem Expr.no_instruction : (expression : Expr) → ∀ instruction,
    Node.instruction instruction ∉ expression.nodes
  | .constant _, _ => by simp [Expr.nodes]
  | .load place, _ => by simp [Expr.nodes, place.no_instruction]
  | .unary _ operand _, _ => by simp [Expr.nodes, operand.no_instruction]
  | .binary _ left right _, _ => by
      simp [Expr.nodes, left.no_instruction, right.no_instruction]
  | .swizzle value _ _, _ => by simp [Expr.nodes, value.no_instruction]
  | .compose _ components, instruction => by
      rw [Expr.nodes, List.mem_cons]
      rintro (same | listed)
      · cases same
      · exact Expr.noneOfAll components instruction listed
  | .texture sampler coordinate _, _ => by
      simp [Expr.nodes, sampler.no_instruction, coordinate.no_instruction]

theorem Expr.noneOfAll : (expressions : List Expr) → ∀ instruction,
    Node.instruction instruction ∉ Expr.nodesOfAll expressions
  | [], _ => by simp
  | expression :: expressions, instruction => by
      rw [Expr.nodesOfAll, List.mem_append, not_or]
      exact ⟨expression.no_instruction instruction, Expr.noneOfAll expressions instruction⟩

end

/-- Operands declare nothing. -/
theorem Instruction.operands_no_instruction (instruction inner : Instruction) :
    Node.instruction inner ∉ instruction.operandNodes := by
  cases instruction with
  | assign target value guard =>
      simp [operandNodes, target.no_instruction, value.no_instruction, Expr.no_instruction]
  | call callee arguments result =>
      simp [operandNodes, Expr.no_instruction, Place.no_instruction]
  | branch condition accept reject => exact condition.no_instruction inner
  | yield value => simp [operandNodes, Expr.no_instruction]
  | _ => simp [operandNodes]

@[simp]
theorem declaredIn_operands (instruction : Instruction) :
    Shader.declaredIn instruction.operandNodes = [] := by
  refine List.eq_nil_iff_forall_not_mem.mpr fun id listed => ?_
  exact instruction.operands_no_instruction _ (mem_declaredIn.mp listed)

@[simp]
theorem declaredIn_expr (expression : Expr) : Shader.declaredIn expression.nodes = [] := by
  refine List.eq_nil_iff_forall_not_mem.mpr fun id listed => ?_
  exact expression.no_instruction _ (mem_declaredIn.mp listed)

theorem declaredIn_cons_other {instruction : Instruction}
    (no_declaration : ∀ id, instruction ≠ .declare id) (nodes : List Node) :
    Shader.declaredIn (.instruction instruction :: nodes) = Shader.declaredIn nodes := by
  cases instruction with
  | declare id => exact absurd rfl (no_declaration id)
  | _ => rfl

theorem declaredIn_branch (condition : Expr) (accept reject : Block)
    (inside : FunctionId → List Node) :
    Shader.declaredIn ((Instruction.branch condition accept reject).nodes inside) =
      Shader.declaredIn (Block.nodes inside accept) ++
        Shader.declaredIn (Block.nodes inside reject) := by
  simp [Instruction.nodes, declaredIn_cons_other]

theorem declaredIn_loop (body : Block) (inside : FunctionId → List Node) :
    Shader.declaredIn ((Instruction.loop body).nodes inside) =
      Shader.declaredIn (Block.nodes inside body) := by
  simp [Instruction.nodes, declaredIn_cons_other]

/-- An instruction without the blocks inside it declares nothing unless it is a declaration. -/
theorem declaredIn_bare {instruction : Instruction}
    (no_declaration : ∀ id, instruction ≠ .declare id) :
    Shader.declaredIn (instruction.bare.nodes fun _ => []) = [] := by
  cases instruction with
  | declare id => exact absurd rfl (no_declaration id)
  | branch condition accept reject => exact declaredIn_branch condition [] [] _
  | loop body => exact declaredIn_loop [] _
  | _ =>
      simp [Instruction.bare, Instruction.withBlocks, Instruction.nodes, declaredIn_cons_other]

theorem mem_bare_of_mem_operands {instruction : Instruction} {node : Node}
    (listed : node ∈ instruction.operandNodes) :
    node ∈ instruction.bare.nodes fun _ => [] := by
  cases instruction with
  | assign _ _ _ | call _ _ _ | yield _ => exact List.mem_cons_of_mem _ listed
  | branch condition accept reject =>
      simpa [Instruction.bare, Instruction.withBlocks, Instruction.nodes, Block.nodes]
        using .inr listed
  | _ => cases listed

/-! ## Lists that are alike -/

/-- Nodes of one kind that are alike. -/
inductive Node.Alike (renames : Renaming) : Node → Node → Prop
  | instruction {instruction other} : Instruction.Alike renames instruction other →
      Node.Alike renames (.instruction instruction) (.instruction other)
  | expr {expression other} : Expr.Alike renames.mentions expression other →
      Node.Alike renames (.expr expression) (.expr other)
  | place {place other} : Place.Alike renames.mentions place other →
      Node.Alike renames (.place place) (.place other)

abbrev AlikeInOrder (renames : Renaming) : List Node → List Node → Prop :=
  List.Forall₂ (Node.Alike renames)

section Correspondence

variable {renames : Renaming}

mutual

theorem Place.Alike.nodes : {place other : Place} → Place.Alike renames.mentions place other →
    AlikeInOrder renames place.nodes other.nodes
  | _, _, .whole related => .cons (.place (.whole related)) .nil
  | _, _, .element array index =>
      .cons (.place (.element array index)) (List.rel_append array.nodes index.nodes)
  | _, _, .field record => .cons (.place (.field record)) record.nodes

theorem Expr.Alike.nodes : {expression other : Expr} →
    Expr.Alike renames.mentions expression other →
    AlikeInOrder renames expression.nodes other.nodes
  | _, _, .constant => .cons (.expr .constant) .nil
  | _, _, .load place => .cons (.expr (.load place)) place.nodes
  | _, _, .unary operand => .cons (.expr (.unary operand)) operand.nodes
  | _, _, .binary left right =>
      .cons (.expr (.binary left right)) (List.rel_append left.nodes right.nodes)
  | _, _, .swizzle value => .cons (.expr (.swizzle value)) value.nodes
  | _, _, .compose components => .cons (.expr (.compose components)) components.nodes
  | _, _, .texture sampler coordinate =>
      .cons (.expr (.texture sampler coordinate)) (List.rel_append sampler.nodes coordinate.nodes)

theorem Expr.AllAlike.nodes : {expressions others : List Expr} →
    Expr.AllAlike renames.mentions expressions others →
    AlikeInOrder renames (Expr.nodesOfAll expressions) (Expr.nodesOfAll others)
  | _, _, .nil => .nil
  | _, _, .cons first rest => List.rel_append first.nodes rest.nodes

end

theorem BothAlike.nodes {Part : Type} {alike : Part → Part → Prop} {nodes : Part → List Node}
    (each : ∀ part other, alike part other → AlikeInOrder renames (nodes part) (nodes other))
    {part other : Option Part} (both : BothAlike alike part other) :
    AlikeInOrder renames (part.toList.flatMap nodes) (other.toList.flatMap nodes) := by
  cases both with
  | some related => simpa using each _ _ related
  | none => exact .nil

variable {inside inside' : FunctionId → List Node}

mutual

theorem Instruction.Alike.nodes (inner : ∀ id other, renames.functions id other →
      AlikeInOrder renames (inside id) (inside' other)) : {instruction other : Instruction} →
    Instruction.Alike renames instruction other →
    AlikeInOrder renames (instruction.nodes inside) (other.nodes inside')
  | _, _, .declare related => .cons (.instruction (.declare related)) .nil
  | _, _, .function related =>
      .cons (.instruction (.function related)) (inner _ _ related)
  | _, _, .assign target value guard =>
      .cons (.instruction (.assign target value guard))
        (List.rel_append (List.rel_append target.nodes value.nodes)
          (BothAlike.nodes (fun _ _ related => related.nodes) guard))
  | _, _, .call called arguments result => by
      have operands := arguments.nodes
      rw [Expr.nodesOfAll_eq_flatMap, Expr.nodesOfAll_eq_flatMap] at operands
      exact .cons (.instruction (.call called arguments result))
        (List.rel_append operands (BothAlike.nodes (fun _ _ related => related.nodes) result))
  | _, _, .branch condition accept reject =>
      .cons (.instruction (.branch condition accept reject))
        (List.rel_append (List.rel_append condition.nodes (accept.nodes inner))
          (reject.nodes inner))
  | _, _, .loop body => .cons (.instruction (.loop body)) (body.nodes inner)
  | _, _, .leave => .cons (.instruction .leave) .nil
  | _, _, .next => .cons (.instruction .next) .nil
  | _, _, .yield value =>
      .cons (.instruction (.yield value))
        (BothAlike.nodes (fun _ _ related => related.nodes) value)
  | _, _, .discard => .cons (.instruction .discard) .nil
  | _, _, .emitVertex => .cons (.instruction .emitVertex) .nil
  | _, _, .endPrimitive => .cons (.instruction .endPrimitive) .nil

/-- Instruction lists that are alike have nodes that are alike in the same order, if the functions
declared in them have. -/
theorem Block.Alike.nodes (inner : ∀ id other, renames.functions id other →
      AlikeInOrder renames (inside id) (inside' other)) : {block other : List Instruction} →
    Block.Alike renames block other →
    AlikeInOrder renames (Block.nodes inside block) (Block.nodes inside' other)
  | _, _, .nil => .nil
  | _, _, .cons first rest => List.rel_append (first.nodes inner) (rest.nodes inner)

end

theorem Block.Alike.ownNodes {block other : Block} (alike : Block.Alike renames block other) :
    AlikeInOrder renames block.ownNodes other.ownNodes :=
  alike.nodes fun _ _ _ => .nil

end Correspondence

/-! ## Declared before mentioned -/

/-- Every variable is declared before it is mentioned, unless it is known or free. -/
def DeclaredFirst (free : VariableId → Prop) : List VariableId → List Occurrence → Prop
  | _, [] => True
  | known, .declares id :: rest => DeclaredFirst free (id :: known) rest
  | known, .mentions id :: rest => (id ∈ known ∨ free id) ∧ DeclaredFirst free known rest
  | known, .calls _ :: rest => DeclaredFirst free known rest

instance decidableDeclaredFirst {free : VariableId → Prop} [DecidablePred free] :
    (known : List VariableId) → (items : List Occurrence) → Decidable
    (DeclaredFirst free known items)
  | _, [] => .isTrue trivial
  | known, .declares id :: rest => decidableDeclaredFirst (id :: known) rest
  | known, .mentions id :: rest =>
      have : Decidable (DeclaredFirst free known rest) := decidableDeclaredFirst known rest
      inferInstanceAs (Decidable ((id ∈ known ∨ free id) ∧ DeclaredFirst free known rest))
  | known, .calls _ :: rest => decidableDeclaredFirst known rest

theorem declaredFirst_append {free : VariableId → Prop} {known : List VariableId}
    {first rest : List Occurrence} :
    DeclaredFirst free known (first ++ rest) ↔ DeclaredFirst free known first ∧
      DeclaredFirst free ((first.filterMap Occurrence.declared?).reverse ++ known) rest := by
  induction first generalizing known with
  | nil => simp [DeclaredFirst]
  | cons occurrence first ih =>
      cases occurrence with
      | declares id =>
          rw [List.cons_append, DeclaredFirst, DeclaredFirst, ih]
          simp [Occurrence.declared?]
      | mentions id =>
          rw [List.cons_append, DeclaredFirst, DeclaredFirst, ih, and_assoc]
          rfl
      | calls callee =>
          rw [List.cons_append, DeclaredFirst, DeclaredFirst, ih]
          rfl

/-- Without declarations, every variable mentioned is known or free. -/
theorem DeclaredFirst.mentioned {free : VariableId → Prop} {known : List VariableId}
    {items : List Occurrence} (first : DeclaredFirst free known items)
    (none_declared : ∀ id, Occurrence.declares id ∉ items) {id : VariableId}
    (listed : Occurrence.mentions id ∈ items) : id ∈ known ∨ free id := by
  induction items with
  | nil => cases listed
  | cons occurrence items ih =>
      have others := fun id inside => none_declared id (List.mem_cons_of_mem occurrence inside)
      cases occurrence with
      | declares other => exact absurd (List.mem_cons_self ..) (none_declared other)
      | mentions other =>
          rcases List.mem_cons.mp listed with same | later
          · cases same
            exact first.1
          · exact ih first.2 others later
      | calls callee => exact ih first others (by simpa using listed)

/-- If everything is known or free, nothing needs a declaration. -/
theorem declaredFirst_of_free {free : VariableId → Prop} {known : List VariableId}
    (all : ∀ id, id ∈ known ∨ free id) (items : List Occurrence) :
    DeclaredFirst free known items := by
  induction items generalizing known with
  | nil => trivial
  | cons occurrence items ih =>
      cases occurrence with
      | declares id =>
          exact ih fun other => (all other).imp (List.mem_cons_of_mem id) fun free => free
      | mentions id => exact ⟨all id, ih all⟩
      | calls callee => exact ih all

end StageLink
