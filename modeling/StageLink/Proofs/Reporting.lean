import StageLink.Optimize.Report
import StageLink.Proofs.Pruning
import StageLink.Proofs.Weights

/-!
# Reports are exact

What a pass reports is exactly what it does: without a report everything has stayed as it was, and
with one the shader has become lighter.  This is so for every step of a pass, from the root of an
expression to the bodies of a shader, and steps whose reports are exact can be taken inside of
something, side by side and one after the other.
-/

namespace StageLink

/-- A report of a change is exact: what it says is unchanged is the same, and what it says has
changed weighs less. -/
structure Exact {Item : Type} (weigh : Item → Nat) (report : Bool)
    (before after : Item) : Prop where
  same : report = false → after = before
  lighter : report = true → weigh after < weigh before

namespace Exact

variable {Item Part Other : Type} {weigh : Item → Nat} {weighPart : Part → Nat}
  {weighOther : Other → Nat} {report second : Bool} {before halfway after : Item}

theorem refl (item : Item) : Exact weigh false item item := ⟨fun _ => rfl, by simp⟩

theorem le (exact_report : Exact weigh report before after) : weigh after ≤ weigh before := by
  cases report with
  | false => rw [exact_report.same rfl]
  | true => exact Nat.le_of_lt (exact_report.lighter rfl)

theorem report_eq (exact_report : Exact weigh report before after) :
    report = decide (weigh after < weigh before) := by
  cases report with
  | false => simp [exact_report.same rfl]
  | true => simp [exact_report.lighter rfl]

theorem same_iff (exact_report : Exact weigh report before after) :
    report = false ↔ after = before := by
  refine ⟨exact_report.same, fun same => ?_⟩
  rw [exact_report.report_eq, same]
  simp

/-- One step after the other. -/
theorem trans (first : Exact weigh report before halfway)
    (next : Exact weigh second halfway after) :
    Exact weigh (report || second) before after := by
  refine ⟨fun neither => ?_, fun one => ?_⟩
  · obtain ⟨none_first, none_next⟩ := Bool.or_eq_false_iff.mp neither
    rw [next.same none_next, first.same none_first]
  · rcases Bool.or_eq_true_iff.mp one with in_first | in_next
    · exact Nat.lt_of_le_of_lt next.le (first.lighter in_first)
    · exact Nat.lt_of_lt_of_le (next.lighter in_next) first.le

/-- A step inside of something that adds a certain weight. -/
theorem inside {part changed : Part} (whole : Part → Item) (extra : Nat)
    (adds : ∀ part, weigh (whole part) = weighPart part + extra)
    (exact_report : Exact weighPart report part changed) :
    Exact weigh report (whole part) (whole changed) := by
  refine ⟨fun no_report => by rw [exact_report.same no_report], fun reported => ?_⟩
  rw [adds, adds]
  exact Nat.add_lt_add_right (exact_report.lighter reported) extra

/-- Two steps side by side. -/
theorem both {part changed : Part} {other renewed : Other} (whole : Part → Other → Item)
    (extra : Nat)
    (adds : ∀ part other, weigh (whole part other) = weighPart part + weighOther other + extra)
    (first : Exact weighPart report part changed) (next : Exact weighOther second other renewed) :
    Exact weigh (report || second) (whole part other) (whole changed renewed) := by
  have first_inside : Exact weigh report (whole part other) (whole changed other) :=
    inside (whole · other) (weighOther other + extra)
      (fun part => by rw [adds, Nat.add_assoc]) first
  have next_inside : Exact weigh second (whole changed other) (whole changed renewed) :=
    inside (whole changed) (weighPart changed + extra) (fun other => by rw [adds]; omega) next
  exact first_inside.trans next_inside

end Exact

/-! ## Expressions -/

def Place.size (place : Place) : Nat := place.nodes.length

def Expr.size (expression : Expr) : Nat := expression.nodes.length

/-- The number of nodes of some expressions. -/
def Expr.sizeOfAll (expressions : List Expr) : Nat := (Expr.nodesOfAll expressions).length

def Expr.guardSize (guard : Option Expr) : Nat := (guard.toList.flatMap Expr.nodes).length

theorem Expr.size_pos (expression : Expr) : 0 < expression.size := by
  cases expression <;> simp [size, nodes]

/-- Only operators have values, so what is replaced has more than one node. -/
theorem Expr.exact_reduce (expression : Expr) :
    Exact size expression.value?.isSome expression expression.reduce := by
  cases value : expression.value? with
  | none =>
      rw [reduce_of_none value]
      exact .refl expression
  | some found =>
      rw [reduce_of_value value]
      refine ⟨by simp, fun _ => ?_⟩
      cases expression with
      | unary _ operand _ => exact Nat.succ_lt_succ operand.size_pos
      | binary _ left right _ =>
          have nonempty : 0 < (left.nodes ++ right.nodes).length := by
            rw [List.length_append]
            exact Nat.add_pos_left left.size_pos _
          exact Nat.succ_lt_succ nonempty
      | swizzle inner _ _ => exact Nat.succ_lt_succ inner.size_pos
      | _ => cases value

mutual

theorem Place.exact_fold : (place : Place) → Exact Place.size place.folds place place.fold
  | .whole id => Exact.refl (Place.whole id)
  | .element array index ty =>
      .both (Place.element · · ty) 1 (fun _ _ => congrArg (· + 1) List.length_append)
        array.exact_fold index.exact_fold
  | .field record name ty => .inside (Place.field · name ty) 1 (fun _ => rfl) record.exact_fold

/-- Folding an expression reports exactly whether it replaces an operator. -/
theorem Expr.exact_fold : (expression : Expr) →
    Exact Expr.size expression.folds expression expression.fold
  | .constant value => .refl (Expr.constant value)
  | .load place => .inside Expr.load 1 (fun _ => rfl) place.exact_fold
  | .unary operator operand ty =>
      .trans (.inside (Expr.unary operator · ty) 1 (fun _ => rfl) operand.exact_fold)
        (Expr.exact_reduce _)
  | .binary operator left right ty =>
      .trans (.both (Expr.binary operator · · ty) 1 (fun _ _ => congrArg (· + 1) List.length_append)
        left.exact_fold right.exact_fold) (Expr.exact_reduce _)
  | .swizzle value positions ty =>
      .trans (.inside (Expr.swizzle · positions ty) 1 (fun _ => rfl) value.exact_fold)
        (Expr.exact_reduce _)
  | .compose ty components =>
      .inside (Expr.compose ty) 1 (fun _ => rfl) (Expr.exact_foldAll components)
  | .texture sampler coordinate ty =>
      .inside (Expr.texture sampler · ty) (sampler.size + 1)
        (fun _ => by simp [Expr.size, Place.size, Expr.nodes]; omega) coordinate.exact_fold

theorem Expr.exact_foldAll : (expressions : List Expr) →
    Exact Expr.sizeOfAll (Expr.someFolds expressions) expressions (Expr.foldAll expressions)
  | [] => .refl []
  | expression :: expressions =>
      .both List.cons 0 (fun _ _ => List.length_append) expression.exact_fold
        (Expr.exact_foldAll expressions)

end

theorem Expr.exact_foldGuard (guard : Option Expr) :
    Exact guardSize (Expr.foldsGuard guard) guard (Expr.foldGuard guard) := by
  cases guard with
  | none => exact .refl none
  | some condition =>
      by_cases always : condition.fold.constantBool? = some true
      · have nonempty := condition.size_pos
        refine ⟨by simp [foldsGuard, always], fun _ => ?_⟩
        simpa [foldGuard, always, guardSize, size] using nonempty
      · have inside : Exact guardSize condition.folds (some condition) (some condition.fold) :=
          .inside some 0 (fun _ => by simp [guardSize, size]) condition.exact_fold
        simpa [foldGuard, foldsGuard, always] using inside

/-! ## Instruction lists -/

/-- The number of nodes of an instruction with the blocks inside it. -/
def Instruction.size (instruction : Instruction) : Nat := (instruction.nodes fun _ => []).length

/-- The number of nodes of an instruction list. -/
def Block.size (block : Block) : Nat := (Block.ownNodes block).length

@[simp]
theorem any_of_operands {nodes : List Node} (kind : Instruction → Bool)
    (operands : ∀ instruction, Node.instruction instruction ∉ nodes) :
    nodes.any (Node.isInstruction kind) = false := by
  refine List.any_eq_false.mpr fun node listed => ?_
  cases node with
  | instruction instruction => exact absurd listed (operands instruction)
  | _ => simp [Node.isInstruction]

theorem Instruction.hasKind_plain (kind : Instruction → Bool) {instruction : Instruction}
    (plain : (instruction.nodes fun _ => []) = .instruction instruction ::
      instruction.operandNodes) :
    instruction.hasKind kind = kind instruction := by
  rw [hasKind, plain, List.any_cons, any_of_operands kind instruction.operands_no_instruction,
    Bool.or_false]
  rfl

theorem Instruction.hasKind_branch (kind : Instruction → Bool) (condition : Expr)
    (accept reject : Block) :
    (Instruction.branch condition accept reject).hasKind kind =
      (kind (.branch condition accept reject) || (accept.hasKind kind || reject.hasKind kind)) := by
  simp [hasKind, nodes, Block.hasKind, Block.ownNodes, Node.isInstruction,
    any_of_operands kind condition.no_instruction]

theorem Instruction.hasKind_loop (kind : Instruction → Bool) (body : Block) :
    (Instruction.loop body).hasKind kind = (kind (.loop body) || body.hasKind kind) := by
  simp [hasKind, nodes, Block.hasKind, Block.ownNodes, Node.isInstruction]

@[simp]
theorem Block.hasKind_nil (kind : Instruction → Bool) : Block.hasKind kind [] = false := rfl

theorem Block.hasKind_cons (kind : Instruction → Bool) (instruction : Instruction) (rest : Block) :
    Block.hasKind kind (instruction :: rest) = (instruction.hasKind kind ||
      Block.hasKind kind rest) := by
  simp [hasKind, Instruction.hasKind, ownNodes_cons]

theorem Instruction.size_pos (instruction : Instruction) : 0 < instruction.size := by
  cases instruction <;> simp [size, nodes]

@[simp]
theorem Block.size_nil : Block.size [] = 0 := rfl

@[simp]
theorem Block.size_cons (instruction : Instruction) (rest : Block) :
    Block.size (instruction :: rest) = instruction.size + Block.size rest := by
  rw [size, ownNodes_cons, List.length_append]
  rfl

theorem Instruction.size_assign (target : Place) (value : Expr) (guard : Option Expr) :
    (Instruction.assign target value guard).size =
      target.size + value.size + Expr.guardSize guard + 1 := by
  simp [size, nodes, operandNodes, Place.size, Expr.size, Expr.guardSize, Nat.add_assoc]

theorem Instruction.size_call (callee : Callee) (arguments : List Expr) (result : Option Place) :
    (Instruction.call callee arguments result).size =
      Expr.sizeOfAll arguments + (result.toList.flatMap Place.nodes).length + 1 := by
  simp [size, nodes, operandNodes, Expr.sizeOfAll]

theorem Instruction.size_branch (condition : Expr) (accept reject : Block) :
    (Instruction.branch condition accept reject).size =
      accept.size + reject.size + (condition.size + 1) := by
  simp only [size, nodes, Expr.size, Block.size, Block.ownNodes, List.length_cons,
    List.length_append]
  omega

theorem Place.exact_foldResult (result : Option Place) :
    Exact (fun result => (result.toList.flatMap Place.nodes).length) (result.any Place.folds) result
      (result.map Place.fold) := by
  cases result with
  | none => exact .refl none
  | some place => exact .inside some 0 (fun _ => by simp [size]) place.exact_fold

/-- Folding the operands of an instruction reports exactly whether it changes one. -/
theorem Instruction.exact_fold (instruction : Instruction) :
    Exact size instruction.folds instruction instruction.fold := by
  cases instruction with
  | assign target value guard =>
      have first : Exact size target.folds (assign target value guard)
        (assign target.fold value guard) :=
        .inside (assign · value guard) (value.size + Expr.guardSize guard + 1)
          (fun _ => by rw [size_assign]; omega) target.exact_fold
      rw [folds, Bool.or_assoc]
      exact first.trans (.both (assign target.fold) (target.fold.size + 1)
        (fun _ _ => by rw [size_assign]; omega) value.exact_fold (Expr.exact_foldGuard guard))
  | call callee arguments result =>
      exact .both (call callee) 1 (size_call callee) (Expr.exact_foldAll arguments)
        (Place.exact_foldResult result)
  | branch condition accept reject =>
      exact .inside (branch · accept reject) (Block.size accept + Block.size reject + 1)
        (fun _ => by rw [size_branch]; omega) condition.exact_fold
  | yield value =>
      cases value with
      | none => exact .refl (yield none)
      | some result =>
          exact .inside (yield ∘ some) 1 (fun _ => by simp [size, nodes, operandNodes, Expr.size])
            result.exact_fold
  | _ => exact .refl _

mutual

/-- So does folding the operands of all instructions inside it, too. -/
theorem Instruction.exact_mapFold : (instruction : Instruction) →
    Exact Instruction.size (instruction.hasKind Instruction.folds) instruction
      (Id.run (instruction.mapInstructions fun inner => pure inner.fold))
  | .branch condition accept reject => by
      rw [Instruction.hasKind_branch]
      exact (Instruction.exact_fold (.branch condition accept reject)).trans
        (.both (Instruction.branch condition.fold) (condition.fold.size + 1)
          (Instruction.size_branch condition.fold) (Block.exact_mapFold accept)
          (Block.exact_mapFold reject))
  | .loop body => by
      rw [Instruction.hasKind_loop]
      exact .inside Instruction.loop 1 (fun _ => rfl) (Block.exact_mapFold body)
  | .assign _ _ _ | .call _ _ _ | .yield _ | .declare _ | .function _ | .leave | .next | .discard
  | .emitVertex | .endPrimitive => by
      rw [Instruction.hasKind_plain _ rfl]
      exact Instruction.exact_fold _

theorem Block.exact_mapFold : (block : List Instruction) →
    Exact Block.size (Block.hasKind Instruction.folds block) block
      (Block.updateInstructions Instruction.fold block)
  | [] => .refl []
  | instruction :: rest => by
      rw [Block.hasKind_cons]
      exact .both List.cons 0 Block.size_cons (Instruction.exact_mapFold instruction)
        (Block.exact_mapFold rest)

end

/-! ## Rules -/

section Rules

variable {kind : Instruction → Bool} {rule : Instruction → List Instruction}

/-- A rule that may replace an instruction reports exactly whether it does, and does not look into
the blocks of the instruction to tell. -/
structure ExactRule (kind : Instruction → Bool) (rule : Instruction → List Instruction) : Prop where
  applies : ∀ instruction, Exact Block.size (kind instruction) [instruction] (rule instruction)
  bare : ∀ instruction, kind instruction.bare = kind instruction

theorem ExactRule.applies_again (exact_rule : ExactRule kind rule)
    {instruction changed : Instruction} (same : changed.bare = instruction.bare) :
    Exact Block.size (kind instruction) [changed] (rule changed) := by
  rw [← exact_rule.bare instruction, ← same, exact_rule.bare changed]
  exact exact_rule.applies changed

theorem Block.exact_singleton {report : Bool} {instruction changed : Instruction}
    (exact_report : Exact Instruction.size report instruction changed) :
    Exact Block.size report [instruction] [changed] :=
  .inside (fun inner => [inner]) 0 (fun inner => by rw [Block.size_cons]; rfl) exact_report

/-- Two lists one after the other. -/
theorem Block.exact_append {report second : Bool} {block left rest rest_left : Block}
    (first : Exact Block.size report block left) (next : Exact Block.size second rest rest_left) :
    Exact Block.size (report || second) (block ++ rest) (left ++ rest_left) :=
  .both List.append 0 (fun _ _ => by
    simp [Block.size, Block.ownNodes_append]) first next

mutual

theorem Instruction.exact_mapInnerBlocks (exact_rule : ExactRule kind rule) :
    (instruction : Instruction) → Exact Block.size (instruction.hasKind kind) [instruction]
      (rule (Id.run (instruction.mapInnerBlocks fun inner => pure (inner.flatMap rule))))
  | .branch condition accept reject => by
      rw [Instruction.hasKind_branch, Bool.or_comm]
      have inner : Exact Instruction.size (Block.hasKind kind accept || Block.hasKind kind reject)
          (.branch condition accept reject)
          (.branch condition (Block.updateBlocks (List.flatMap rule) accept)
            (Block.updateBlocks (List.flatMap rule) reject)) :=
        .both (Instruction.branch condition) (condition.size + 1)
          (Instruction.size_branch condition)
          (Block.exact_updateBlocks exact_rule accept) (Block.exact_updateBlocks exact_rule reject)
      exact (Block.exact_singleton inner).trans (exact_rule.applies_again rfl)
  | .loop body => by
      rw [Instruction.hasKind_loop, Bool.or_comm]
      have inner : Exact Instruction.size (Block.hasKind kind body) (.loop body)
          (.loop (Block.updateBlocks (List.flatMap rule) body)) :=
        .inside Instruction.loop 1 (fun _ => rfl) (Block.exact_updateBlocks exact_rule body)
      exact (Block.exact_singleton inner).trans (exact_rule.applies_again rfl)
  | .assign _ _ _ | .call _ _ _ | .yield _ | .declare _ | .function _ | .leave | .next | .discard
  | .emitVertex | .endPrimitive => by
      rw [Instruction.hasKind_plain _ rfl]
      exact exact_rule.applies _

/-- Applying a rule inside a list and then to the list itself reports exactly whether it has
applied. -/
theorem Block.exact_updateBlocks (exact_rule : ExactRule kind rule) :
    (block : List Instruction) → Exact Block.size (Block.hasKind kind block) block
      (Block.updateBlocks (List.flatMap rule) block)
  | [] => .refl []
  | instruction :: rest => by
      rw [Block.hasKind_cons]
      exact Block.exact_append (Instruction.exact_mapInnerBlocks exact_rule instruction)
        (Block.exact_updateBlocks exact_rule rest)

end

end Rules

/-- A rule that keeps instructions or drops them reports exactly what it drops. -/
theorem exactRule_filter {keeps : Instruction → Bool}
    (bare : ∀ instruction, keeps instruction.bare = keeps instruction) :
    ExactRule (fun instruction => !keeps instruction)
      fun instruction => if keeps instruction then [instruction] else [] where
  bare instruction := by rw [bare]
  applies instruction := by
    cases kept : keeps instruction with
    | true => exact .refl [instruction]
    | false =>
        refine ⟨by simp, fun _ => ?_⟩
        simpa using instruction.size_pos

/-- Resolving replaces an instruction by less exactly if its condition is constant. -/
theorem Instruction.exactRule_resolve : ExactRule Instruction.isDecided Instruction.resolve where
  bare instruction := by
    cases instruction with
    | assign target value guard => cases guard <;> rfl
    | _ => rfl
  applies instruction := by
    cases instruction with
    | branch condition accept reject =>
        cases decided : condition.constantBool? with
        | none => simpa [isDecided, resolve, decided] using Exact.refl _
        | some taken =>
            refine ⟨by simp [isDecided, decided], fun _ => ?_⟩
            have whole := size_branch condition accept reject
            cases taken <;> simp [resolve, decided] <;> omega
    | assign target value guard =>
        cases guard with
        | none => exact .refl _
        | some guard =>
            by_cases never : guard.constantBool? = some false
            · refine ⟨by simp [isDecided, never], fun _ => ?_⟩
              simpa [resolve, never] using
                (assign target value (some guard)).size_pos
            · simpa [isDecided, resolve, never] using Exact.refl _
    | _ => exact .refl _

/-- Folding a list reports exactly whether it changes it. -/
theorem Block.exact_fold (block : Block) : Exact Block.size block.folds block block.fold :=
  (Block.exact_mapFold block).trans
    (Block.exact_updateBlocks Instruction.exactRule_resolve _)

/-! ## Shaders -/

namespace Shader

variable {shader : Shader}

/-- A pass over all bodies reports exactly whether it changes one if it does so for each. -/
theorem exact_updateBodies {reports : Block → Bool} {change : Block → Block}
    (each : ∀ block, Exact Block.size (reports block) block (change block)) (shader : Shader) :
    Exact weight (shader.bodies.any reports) shader (shader.updateBodies change) := by
  refine ⟨fun none_reported => ?_, fun some_reported => ?_⟩
  · exact updateBodies_self fun body listed =>
      (each body).same (by simpa using List.any_eq_false.mp none_reported body listed)
  · obtain ⟨body, listed, reported⟩ := List.any_eq_true.mp some_reported
    have signatures : (shader.updateBodies change).functions.entries.map (·.signatures.length) =
        shader.functions.entries.map (·.signatures.length) := by
      simp [updateBodies, Arena.map]
    rw [weight, weight, bodies_updateBodies, signatures, List.map_map]
    exact Nat.add_lt_add_right (total_map_lt (fun other _ => (each other).le) listed
      ((each body).lighter reported)) _

theorem exact_foldConstants (shader : Shader) :
    Exact weight shader.foldsSomething shader shader.foldConstants :=
  exact_updateBodies Block.exact_fold shader

/-! ## Removing dead code -/

theorem survives_bare (targets declarations : List VariableId) (instruction : Instruction) :
    survives targets declarations instruction.bare = survives targets declarations instruction := by
  cases instruction <;> rfl

theorem exact_prune (targets declarations : List VariableId) (block : Block) :
    Exact Block.size
      (block.hasKind fun instruction => !survives targets declarations instruction) block
      (block.prune targets declarations) := by
  rw [Block.prune, Block.filter_eq_flatMap]
  exact Block.exact_updateBlocks (exactRule_filter (survives_bare targets declarations)) block

/-- An instruction that does not survive is in some body. -/
theorem hasKind_of_node {kind : Instruction → Bool} {instruction : Instruction}
    (listed : Node.instruction instruction ∈ shader.nodes) (of_kind : kind instruction = true) :
    shader.bodies.any (Block.hasKind kind) = true := by
  obtain ⟨body, in_bodies, inside⟩ := exists_body listed
  exact List.any_eq_true.mpr ⟨body, in_bodies, List.any_eq_true.mpr ⟨_, inside, of_kind⟩⟩

theorem hasKind_of_dead {keepUniforms : Bool}
    (dead :
      (shader.deadTargets.isEmpty && (shader.deadDeclarations keepUniforms).isEmpty) = false) :
    shader.bodies.any (Block.hasKind fun instruction =>
      !survives shader.deadTargets (shader.deadDeclarations keepUniforms) instruction) = true := by
  rcases Bool.and_eq_false_iff.mp dead with some_target | some_declaration
  · obtain ⟨id, listed⟩ := List.exists_mem_of_ne_nil _ (List.isEmpty_eq_false_iff.mp some_target)
    obtain ⟨_, -, -, assigned, -⟩ := mem_deadTargets.mp listed
    obtain ⟨node, there, assigns⟩ := List.any_eq_true.mp assigned
    cases node with
    | instruction instruction =>
        refine hasKind_of_node there ?_
        cases instruction with
        | assign target value guard =>
            have root : target.root = id := by simpa [Node.assignsTo] using assigns
            simpa [survives, root] using listed
        | _ => cases assigns
    | _ => cases assigns
  · obtain ⟨id, listed⟩ :=
      List.exists_mem_of_ne_nil _ (List.isEmpty_eq_false_iff.mp some_declaration)
    obtain ⟨_, -, unread, -, -⟩ := mem_deadDeclarations.mp listed
    obtain ⟨node, there, declares⟩ := List.any_eq_true.mp (Bool.and_eq_true_iff.mp unread).1
    cases node with
    | instruction instruction =>
        refine hasKind_of_node there ?_
        cases instruction with
        | declare found =>
            have same : found = id := by simpa [Node.declares] using declares
            simpa [survives, same] using listed
        | _ => cases declares
    | _ => cases declares

/-- Removing dead code reports exactly whether anything is dead. -/
theorem removesInstruction_iff {keepUniforms : Bool} :
    shader.removesInstruction keepUniforms = false ↔
      shader.deadTargets = [] ∧ shader.deadDeclarations keepUniforms = [] := by
  unfold removesInstruction
  dsimp only
  split
  · next nothing => simpa using nothing
  · next something =>
      have dead := Bool.eq_false_iff.mpr something
      rw [hasKind_of_dead dead]
      simpa using something

theorem exact_removeDeadCode (keepUniforms : Bool) (shader : Shader) :
    Exact weight (shader.removesInstruction keepUniforms) shader
      (shader.removeDeadCode keepUniforms) := by
  let unbound : Shader := { shader with
    symbols := shader.unbindVariables shader.symbols (shader.deadDeclarations keepUniforms) }
  have pruned := exact_updateBodies
    (exact_prune shader.deadTargets (shader.deadDeclarations keepUniforms)) unbound
  refine ⟨fun nothing => ?_, fun something => pruned.lighter ?_⟩
  · obtain ⟨no_target, no_declaration⟩ := removesInstruction_iff.mp nothing
    have same : unbound = shader := by
      simp only [unbound, no_declaration, unbindVariables]
    refine (pruned.same (List.any_eq_false.mpr fun body _ removed => ?_)).trans same
    obtain ⟨node, -, dropped⟩ := List.any_eq_true.mp removed
    rw [no_target, no_declaration] at dropped
    cases node with
    | instruction instruction => cases instruction <;> cases dropped
    | _ => cases dropped
  · refine hasKind_of_dead (Bool.eq_false_iff.mpr fun nothing => ?_)
    simp [removesInstruction, nothing] at something

/-! ## Removing dead functions -/

theorem removesSignature_iff : shader.removesSignature = true ↔
    ∃ one signature, shader.At one signature ∧ one ∉ shader.liveCallees := by
  simp only [removesSignature, List.any_eq_true, Bool.not_eq_true', List.contains_eq_mem,
    decide_eq_false_iff_not]
  constructor
  · rintro ⟨⟨id, function⟩, indexed, ⟨signature, position⟩, listed, dead⟩
    refine ⟨⟨id, position⟩, signature, ?_, dead⟩
    rw [At, signaturesOf_eq (Arena.mem_indexed.mp indexed)]
    exact List.mem_zipIdx_iff_getElem?.mp listed
  · rintro ⟨one, signature, there, dead⟩
    obtain ⟨function, found, held⟩ := there.function
    exact ⟨(one.function, function), Arena.mem_indexed.mpr found, (signature, one.signature),
      List.mem_zipIdx_iff_getElem?.mpr held, dead⟩

theorem allLive_iff : shader.AllLive ↔ shader.removesSignature = false := by
  rw [← Bool.not_eq_true, removesSignature_iff]
  constructor
  · rintro all_live ⟨one, signature, there, dead⟩
    exact dead (all_live there)
  · intro none_dead one signature there
    by_contra dead
    exact none_dead ⟨one, signature, there, dead⟩

theorem exact_removeDeadFunctions (shader : Shader) :
    Exact weight shader.removesSignature shader shader.removeDeadFunctions := by
  refine ⟨fun nothing => AllLive.removeDeadFunctions (allLive_iff.mpr nothing), fun something => ?_⟩
  obtain ⟨_, _, there, dead⟩ := removesSignature_iff.mp something
  exact weight_removeDeadFunctions_lt there dead

/-! ## Passes -/

/-- What a pass reports is exactly what it does. -/
theorem exact_run (pass : Pass) (shader : Shader) :
    Exact weight (pass.reports shader) shader (pass.run shader) := by
  cases pass with
  | foldConstants => exact exact_foldConstants shader
  | removeDeadCode keepUniforms => exact exact_removeDeadCode keepUniforms shader
  | removeDeadFunctions => exact exact_removeDeadFunctions shader
  | inspect => exact .refl shader

/-- What several passes report together is exact, too. -/
theorem exact_runPasses (passes : List Pass) :
    ∀ shader : Shader,
      Exact weight (shader.passesReport passes) shader (shader.runPasses passes) := by
  induction passes with
  | nil => exact fun shader => .refl shader
  | cons pass passes ih => exact fun shader => (exact_run pass shader).trans (ih _)

theorem weight_optimizeRounds_le (passes : List Pass) (rounds : Nat) :
    ∀ shader : Shader, (shader.optimizeRounds passes rounds).weight ≤ shader.weight := by
  induction rounds with
  | zero => exact fun shader => Nat.le_refl _
  | succ rounds ih =>
      intro shader
      have once := (exact_runPasses passes shader).le
      rw [optimizeRounds]
      split
      · exact Nat.le_trans (ih _) once
      · exact once

/-- Another round follows whenever the passes have reported a change. -/
theorem optimizeRounds_succ (passes : List Pass) (rounds : Nat) (shader : Shader) :
    shader.optimizeRounds passes (rounds + 1) =
      if shader.passesReport passes then (shader.runPasses passes).optimizeRounds passes rounds
      else shader.runPasses passes := by
  rw [optimizeRounds, (exact_runPasses passes shader).report_eq]
  simp only [decide_eq_true_eq]

theorem exact_optimize (level : OptimizationLevel) (shader : Shader) :
    Exact weight (shader.optimizeReports level) shader (shader.optimize level) := by
  have once := exact_runPasses level.passes shader
  rw [optimize, optimizeRounds_succ, optimizeReports]
  cases report : shader.passesReport level.passes with
  | false =>
      rw [report] at once
      exact once
  | true =>
      have later := weight_optimizeRounds_le level.passes 9 (shader.runPasses level.passes)
      exact ⟨by simp, fun _ => Nat.lt_of_le_of_lt later (once.lighter report)⟩

end Shader
end StageLink
