import StageLink.Proofs.DeadFunctions
import StageLink.Proofs.Renumbering
import StageLink.Proofs.Scopes

/-!
# Handles that point somewhere

A shader is confined if all its handles point into its arenas: those in its instruction lists,
whether or not anything leads to these lists, and the parameters of its signatures.  Nothing that is
done to an executable once it has been merged lets a handle leave: revising variables and retyping
keep the handles there are, and passes only drop some of them.
-/

namespace StageLink

/-! ## Instruction lists -/

namespace Block

variable {varCount functionCount : Nat} {block left more : Block}

/-- Larger arenas hold the same handles. -/
theorem Within.mono (within : Within varCount functionCount block) {vars functions : Nat}
    (more_vars : varCount ≤ vars) (more_functions : functionCount ≤ functions) :
    Within vars functions block where
  declares id listed := Nat.lt_of_lt_of_le (within.declares id listed) more_vars
  mentions id listed := Nat.lt_of_lt_of_le (within.mentions id listed) more_vars
  functions id listed := Nat.lt_of_lt_of_le (within.functions id listed) more_functions
  calls callee arguments result listed :=
    Nat.lt_of_lt_of_le (within.calls callee arguments result listed) more_functions

theorem Within.of_subset (within : Within varCount functionCount block)
    (fewer : left.ownNodes ⊆ block.ownNodes) : Within varCount functionCount left where
  declares id listed := within.declares id (fewer listed)
  mentions id listed := within.mentions id (fewer listed)
  functions id listed := within.functions id (fewer listed)
  calls callee arguments result listed := within.calls callee arguments result (fewer listed)

theorem Within.append (within : Within varCount functionCount block)
    (more_within : Within varCount functionCount more) :
    Within varCount functionCount (block ++ more) := by
  constructor
  all_goals
    intros
    rename_i listed
    rw [ownNodes_append, List.mem_append] at listed
    rcases listed with here | there
  · exact within.declares _ here
  · exact more_within.declares _ there
  · exact within.mentions _ here
  · exact more_within.mentions _ there
  · exact within.functions _ here
  · exact more_within.functions _ there
  · exact within.calls _ _ _ here
  · exact more_within.calls _ _ _ there

theorem within_nil : Within varCount functionCount [] :=
  ⟨fun _ listed => (by cases listed), fun _ listed => (by cases listed),
    fun _ listed => (by cases listed),
    fun _ _ _ listed => (by cases listed)⟩

/-- The second list holds no handle that leads farther than those of the first. -/
def NoFarther (block left : Block) : Prop :=
  ∀ varCount functionCount, Within varCount functionCount block → Within varCount functionCount left

theorem Shrinks.noFarther {may : Simplification} (shrinks : Block.Shrinks may block left)
    (stays : ∀ callee other, may.calls callee other → other.function = callee.function) :
    NoFarther block left := by
  intro varCount functionCount within
  refine ⟨fun id listed => ?_, fun id listed => ?_, fun id listed => ?_,
    fun callee arguments result listed => ?_⟩
  · exact within.declares id
      (mem_declaredIn.mp (shrinks.declaredIn_sublist.subset (mem_declaredIn.mpr listed)))
  · exact within.mentions id
      (mem_touches_whole.mp (shrinks.noMore.touches _ (mem_touches_whole.mpr listed)))
  · exact within.functions id (shrinks.tracesBack.functions id listed)
  · obtain ⟨original, was, moved⟩ := shrinks.tracesBack.calls callee (Shader.mem_callees listed)
    obtain ⟨arguments', result', there⟩ := Shader.mem_callees_iff.mp was
    rw [stays original callee moved]
    exact within.calls original arguments' result' there

/-- A list that is alike holds handles that are related to those of the other. -/
theorem Alike.within {renames : Renaming} (alike : Block.Alike renames block left)
    (declares : ∀ id other, Node.instruction (.declare id) ∈ block.ownNodes →
      renames.declares id other → other < varCount)
    (mentions : ∀ id other, Node.place (.whole id) ∈ block.ownNodes →
      renames.mentions id other → other < varCount)
    (functions : ∀ id other, Node.instruction (.function id) ∈ block.ownNodes →
      renames.functions id other → other < functionCount)
    (calls : ∀ callee other, callee ∈ Shader.callees block.ownNodes →
      renames.calls callee other → other.function < functionCount) :
    Within varCount functionCount left := by
  have origin : ∀ node ∈ left.ownNodes, ∃ original ∈ block.ownNodes,
    Node.Alike renames original node :=
    fun node listed => exists_of_forall₂ alike.ownNodes listed
  refine ⟨fun id listed => ?_, fun id listed => ?_, fun id listed => ?_,
    fun callee arguments result listed => ?_⟩
  · obtain ⟨original, there, same⟩ :=
      exists_of_forall₂ alike.ownNodes.declaredIn (mem_declaredIn.mpr listed)
    exact declares original id (mem_declaredIn.mp there) same
  · obtain ⟨original, there, related⟩ := origin _ listed
    cases related with
    | place related =>
        cases related with
        | whole same => exact mentions _ id there same
  · obtain ⟨original, there, related⟩ := origin _ listed
    cases related with
    | instruction related =>
        cases related with
        | function same => exact functions _ id there same
  · obtain ⟨original, there, same⟩ := exists_of_forall₂ alike.callees (Shader.mem_callees listed)
    exact calls original callee there same

theorem Alike.noFarther (alike : Block.Alike Shader.unchanged block left) :
    NoFarther block left := by
  intro varCount functionCount within
  refine alike.within ?_ ?_ ?_ ?_
  · rintro id _ listed rfl
    exact within.declares id listed
  · rintro id _ listed rfl
    exact within.mentions id listed
  · rintro id _ listed rfl
    exact within.functions id listed
  · rintro callee _ listed rfl
    obtain ⟨arguments, result, there⟩ := Shader.mem_callees_iff.mp listed
    exact within.calls callee arguments result there

theorem noFarther_fold (block : Block) : NoFarther block block.fold := by
  obtain ⟨halfway, first, second⟩ := Shader.shrinks_fold block
  have same : ∀ callee other, folding.calls callee other → other.function = callee.function := by
    rintro callee _ rfl
    rfl
  exact fun _ _ within => second.noFarther same _ _ (first.noFarther same _ _ within)

theorem noFarther_survives (targets dead : List VariableId) (block : Block) :
    NoFarther block (Block.updateBlocks (List.filter (Shader.survives targets dead)) block) := by
  refine (shrinks_survives targets dead block).noFarther ?_
  rintro callee _ rfl
  rfl

theorem noFarther_moveCall (shader : Shader) (live : List Callee) (block : Block) :
    NoFarther block (Block.updateInstructions (shader.moveCall live) block) := by
  refine (shrinks_moveCall shader live block).noFarther ?_
  rintro callee _ rfl
  unfold Shader.movedCallee
  dsimp only
  split <;> rfl

end Block

/-! ## Retyping -/

section Retyping

variable {vars : Arena Variable}

/-- The variables that some nodes mention exist. -/
def Mentioned (vars : Arena Variable) (nodes : List Node) : Prop :=
  ∀ id, Node.place (.whole id) ∈ nodes → id < vars.size

theorem Mentioned.mono {nodes fewer : List Node} (mentioned : Mentioned vars nodes)
    (among : ∀ node ∈ fewer, node ∈ nodes) : Mentioned vars fewer :=
  fun id listed => mentioned id (among _ listed)

theorem Place.exists_ty {place : Place} (inside : place.root < vars.size) :
    ∃ ty, place.ty vars = .ok ty := by
  cases place with
  | whole id =>
      obtain ⟨declared, found⟩ := Arena.exists_get? inside
      have found : vars.get? id = some declared := found
      exact ⟨declared.ty, by rw [Place.ty, found]⟩
  | element _ _ ty => exact ⟨ty, rfl⟩
  | field _ _ ty => exact ⟨ty, rfl⟩

mutual

-- an element is retyped by the place it indexes, which has been retyped and lies in the same
-- variable
theorem Place.exists_retyped : (place : Place) → Mentioned vars place.nodes →
    ∃ retyped, place.mapPlaces (ArraySize.retypePlace vars) = .ok retyped ∧ retyped.root < vars.size
  | .whole id, mentioned => ⟨.whole id, rfl, mentioned id (List.mem_singleton.mpr rfl)⟩
  | .element array index ty, mentioned => by
      obtain ⟨array', retypes, inside⟩ := array.exists_retyped (mentioned.mono fun node listed => by
        simp [Place.nodes, listed])
      obtain ⟨index', retypes_index⟩ := index.exists_retyped (mentioned.mono fun node listed => by
        simp [Place.nodes, listed])
      obtain ⟨arrayType, typed⟩ := Place.exists_ty inside
      refine ⟨.element array' index' (arrayType.element?.getD ty), ?_, inside⟩
      rw [Place.mapPlaces, retypes, Checked.ok_bind, retypes_index, Checked.ok_bind,
        ArraySize.retypePlace, typed]
      rfl
  | .field record name ty, mentioned => by
      obtain ⟨record', retypes, inside⟩ := record.exists_retyped
        (mentioned.mono fun node listed => by simp [Place.nodes, listed])
      refine ⟨.field record' name ty, ?_, inside⟩
      rw [Place.mapPlaces, retypes]
      rfl

theorem Expr.exists_retyped : (expression : Expr) → Mentioned vars expression.nodes →
    ∃ retyped, expression.mapPlaces (ArraySize.retypePlace vars) = .ok retyped
  | .constant value, _ => ⟨.constant value, rfl⟩
  | .load place, mentioned => by
      obtain ⟨place', retypes, -⟩ := place.exists_retyped (mentioned.mono fun node listed => by
        simp [Expr.nodes, listed])
      exact ⟨.load place', by rw [Expr.mapPlaces, retypes]; rfl⟩
  | .unary operator operand ty, mentioned => by
      obtain ⟨operand', retypes⟩ := operand.exists_retyped (mentioned.mono fun node listed => by
        simp [Expr.nodes, listed])
      exact ⟨.unary operator operand' ty, by rw [Expr.mapPlaces, retypes]; rfl⟩
  | .binary operator left right ty, mentioned => by
      obtain ⟨left', retypes⟩ := left.exists_retyped (mentioned.mono fun node listed => by
        simp [Expr.nodes, listed])
      obtain ⟨right', retypes_right⟩ := right.exists_retyped (mentioned.mono fun node listed => by
        simp [Expr.nodes, listed])
      refine ⟨.binary operator left' right' ty, ?_⟩
      rw [Expr.mapPlaces, retypes, Checked.ok_bind, retypes_right]
      rfl
  | .swizzle value components ty, mentioned => by
      obtain ⟨value', retypes⟩ := value.exists_retyped (mentioned.mono fun node listed => by
        simp [Expr.nodes, listed])
      exact ⟨.swizzle value' components ty, by rw [Expr.mapPlaces, retypes]; rfl⟩
  | .compose ty components, mentioned => by
      obtain ⟨components', retypes⟩ := Expr.exists_retypedOfAll components
        (mentioned.mono fun node listed => by
          rw [Expr.nodes]
          exact List.mem_cons_of_mem _ listed)
      exact ⟨.compose ty components', by rw [Expr.mapPlaces, retypes]; rfl⟩
  | .texture sampler coordinate ty, mentioned => by
      obtain ⟨sampler', retypes, -⟩ := sampler.exists_retyped (mentioned.mono fun node listed => by
        simp [Expr.nodes, listed])
      obtain ⟨coordinate', retypes_coordinate⟩ := coordinate.exists_retyped
        (mentioned.mono fun node listed => by simp [Expr.nodes, listed])
      refine ⟨.texture sampler' coordinate' ty, ?_⟩
      rw [Expr.mapPlaces, retypes, Checked.ok_bind, retypes_coordinate]
      rfl

theorem Expr.exists_retypedOfAll : (expressions : List Expr) →
    Mentioned vars (Expr.nodesOfAll expressions) →
    ∃ retyped, Expr.mapPlacesOfAll (ArraySize.retypePlace vars) expressions = .ok retyped
  | [], _ => ⟨[], rfl⟩
  | expression :: expressions, mentioned => by
      obtain ⟨first, retypes⟩ := expression.exists_retyped (mentioned.mono fun node listed => by
        rw [Expr.nodesOfAll]
        exact List.mem_append_left _ listed)
      obtain ⟨rest, retypes_rest⟩ := Expr.exists_retypedOfAll expressions
        (mentioned.mono fun node listed => by
          rw [Expr.nodesOfAll]
          exact List.mem_append_right _ listed)
      refine ⟨first :: rest, ?_⟩
      rw [Expr.mapPlacesOfAll, retypes, Checked.ok_bind, retypes_rest]
      rfl

end

theorem exists_mapOption {Part : Type} {change : Part → Checked Part} {part : Option Part}
    (each : ∀ inner ∈ part, ∃ changed, change inner = .ok changed) :
    ∃ changed, mapOption change part = .ok changed := by
  cases part with
  | none => exact ⟨none, rfl⟩
  | some inner =>
      obtain ⟨changed, changes⟩ := each inner rfl
      exact ⟨some changed, by rw [mapOption, changes]; rfl⟩

theorem Instruction.exists_retyped (instruction : Instruction)
    (mentioned : Mentioned vars instruction.operandNodes) :
    ∃ retyped, instruction.mapPlaces (ArraySize.retypePlace vars) = .ok retyped := by
  cases instruction with
  | assign target value guard =>
      obtain ⟨target', retypes, -⟩ := target.exists_retyped (mentioned.mono fun node listed => by
        simp [operandNodes, listed])
      obtain ⟨value', retypes_value⟩ := value.exists_retyped (mentioned.mono fun node listed => by
        simp [operandNodes, listed])
      obtain ⟨guard', retypes_guard⟩ :
          ∃ retyped, mapOption (Expr.mapPlaces (ArraySize.retypePlace vars)) guard =
            .ok retyped := by
        refine exists_mapOption fun inner here => inner.exists_retyped
          (mentioned.mono fun node listed => ?_)
        obtain rfl : guard = some inner := here
        simp [operandNodes, listed]
      refine ⟨.assign target' value' guard', ?_⟩
      rw [Instruction.mapPlaces, retypes, Checked.ok_bind, retypes_value,
        Checked.ok_bind, retypes_guard]
      rfl
  | call callee arguments result =>
      obtain ⟨arguments', retypes⟩ := Expr.exists_retypedOfAll arguments
        (mentioned.mono fun node listed => by
          rw [Expr.nodesOfAll_eq_flatMap] at listed
          exact List.mem_append_left _ listed)
      obtain ⟨result', retypes_result⟩ :
          ∃ retyped, mapOption (Place.mapPlaces (ArraySize.retypePlace vars)) result =
            .ok retyped := by
        refine exists_mapOption fun inner here => ?_
        obtain rfl : result = some inner := here
        obtain ⟨retyped, retypes, -⟩ :=
          Place.exists_retyped inner (mentioned.mono fun node listed =>
            List.mem_append_right _ (by simpa using listed))
        exact ⟨retyped, retypes⟩
      refine ⟨.call callee arguments' result', ?_⟩
      rw [Instruction.mapPlaces, retypes, Checked.ok_bind, retypes_result]
      rfl
  | branch condition accept reject =>
      obtain ⟨condition', retypes⟩ := condition.exists_retyped mentioned
      exact ⟨.branch condition' accept reject, by rw [Instruction.mapPlaces, retypes]; rfl⟩
  | yield value =>
      obtain ⟨value', retypes⟩ :
          ∃ retyped, mapOption (Expr.mapPlaces (ArraySize.retypePlace vars)) value =
            .ok retyped := by
        refine exists_mapOption fun inner here => inner.exists_retyped
          (mentioned.mono fun node listed => ?_)
        obtain rfl : value = some inner := here
        simp [operandNodes, listed]
      exact ⟨.yield value', by rw [Instruction.mapPlaces, retypes]; rfl⟩
  | _ => exact ⟨_, rfl⟩

/-- An instruction list that mentions variables of the arena can be retyped. -/
theorem Block.exists_retyped {block : Block} (mentioned : Mentioned vars block.ownNodes) :
    ∃ retyped, Block.mapPlaces (ArraySize.retypePlace vars) block = .ok retyped := by
  have alike : Checked.giving.ensures (Block.mapPlaces (ArraySize.retypePlace vars) block)
      (Block.Alike CloneM.anyhow block) := by
    refine Block.mapInstructions_alike Checked.giving block fun inner listed => ?_
    obtain ⟨retyped, retypes⟩ :=
      inner.exists_retyped (mentioned.mono (Block.operands_of_mem block listed))
    refine ⟨retyped, retypes, ?_⟩
    exact Instruction.mapPlaces_alike Checked.ensuring inner
      (Shader.faithful_retypePlace (fun _ => trivial) _)
      (fun _ _ => trivial) (fun _ _ => trivial) (fun _ _ _ _ => trivial) retyped retypes
  obtain ⟨retyped, retypes, -⟩ := alike
  exact ⟨retyped, retypes⟩

end Retyping

namespace Shader

/-! ## Shaders -/

/-- All handles of the shader point into its arenas. -/
structure Confined (shader : Shader) : Prop where
  bodies : ∀ body ∈ shader.bodies, Block.Within shader.vars.size shader.functions.size body
  parameters : ∀ id, ∀ signature ∈ shader.signaturesOf id,
    ∀ parameter ∈ signature.parameters, parameter < shader.vars.size

/-- Whether the handles of a node are positions in arenas of the given sizes. -/
def handlesWithin (varCount functionCount : Nat) : Node → Bool
  | .instruction (.declare id) => id < varCount
  | .instruction (.function id) => id < functionCount
  | .instruction (.call callee _ _) => callee.function < functionCount
  | .place (.whole id) => id < varCount
  | _ => true

theorem within_iff {varCount functionCount : Nat} {block : Block} :
    Block.Within varCount functionCount block ↔
      ∀ node ∈ block.ownNodes, handlesWithin varCount functionCount node = true := by
  constructor
  · intro within node listed
    unfold handlesWithin
    split
    · exact decide_eq_true (within.declares _ listed)
    · exact decide_eq_true (within.functions _ listed)
    · exact decide_eq_true (within.calls _ _ _ listed)
    · exact decide_eq_true (within.mentions _ listed)
    · rfl
  · intro each
    exact ⟨fun id listed => of_decide_eq_true (each _ listed),
      fun id listed => of_decide_eq_true (each _ listed),
      fun id listed => of_decide_eq_true (each _ listed),
      fun callee arguments result listed => of_decide_eq_true (each _ listed)⟩

instance (varCount functionCount : Nat) (block : Block) :
    Decidable (Block.Within varCount functionCount block) :=
  decidable_of_iff _ within_iff.symm

theorem confined_iff {shader : Shader} : shader.Confined ↔
    (∀ body ∈ shader.bodies, Block.Within shader.vars.size shader.functions.size body) ∧
      ∀ function ∈ shader.functions.entries, ∀ signature ∈ function.signatures,
        ∀ parameter ∈ signature.parameters, parameter < shader.vars.size := by
  constructor
  · refine fun confined => ⟨confined.bodies, fun function listed => ?_⟩
    obtain ⟨id, found⟩ := Arena.exists_get?_of_mem listed
    rw [← signaturesOf_eq found]
    exact confined.parameters id
  · rintro ⟨bodies, parameters⟩
    refine ⟨bodies, fun id signature listed => ?_⟩
    cases found : shader.functions.get? id with
    | none =>
        rw [signaturesOf, found] at listed
        cases listed
    | some function =>
        rw [signaturesOf_eq found] at listed
        exact parameters function (Arena.mem_of_get? found) signature listed

instance (shader : Shader) : Decidable shader.Confined := decidable_of_iff _ confined_iff.symm

namespace Confined

variable {shader : Shader}

theorem topLevel (confined : shader.Confined) :
    Block.Within shader.vars.size shader.functions.size shader.topLevel :=
  confined.bodies _ (mem_bodies.mpr (.inl rfl))

theorem body (confined : shader.Confined) {id : FunctionId} {signature : Signature}
    (listed : signature ∈ shader.signaturesOf id) :
    Block.Within shader.vars.size shader.functions.size signature.body :=
  confined.bodies _ (mem_bodies.mpr (.inr ⟨id, signature, listed, rfl⟩))

theorem globals (confined : shader.Confined) : ∀ id ∈ shader.globals, id < shader.vars.size :=
  fun id global => confined.topLevel.declares id
    (Block.mem_ownNodes.mpr ⟨_, mem_globals.mp global, List.mem_singleton.mpr rfl⟩)

theorem declaredFunctions (confined : shader.Confined) :
    ∀ id ∈ shader.declaredFunctions, id < shader.functions.size :=
  fun id is_declared => confined.topLevel.functions id
    (Block.mem_ownNodes.mpr ⟨_, mem_declaredFunctions.mp is_declared, List.mem_singleton.mpr rfl⟩)

/-- Whatever the shader declares and mentions exists. -/
theorem declares (confined : shader.Confined) {id : VariableId}
    (listed : Node.instruction (.declare id) ∈ shader.nodes) : id < shader.vars.size := by
  obtain ⟨body, in_bodies, own⟩ := exists_body listed
  exact (confined.bodies body in_bodies).declares id own

theorem mentions (confined : shader.Confined) {id : VariableId}
    (listed : Node.place (.whole id) ∈ shader.nodes) : id < shader.vars.size := by
  obtain ⟨body, in_bodies, own⟩ := exists_body listed
  exact (confined.bodies body in_bodies).mentions id own

/-- A confined shader can be compacted. -/
theorem bounded (confined : shader.Confined) : shader.Bounded where
  topLevel := confined.topLevel
  bodies _ _ _ listed := confined.body listed
  parameters id _ := confined.parameters id

end Confined

/-! ## What keeps handles in -/

/-- The second shader has as many variables and functions, and its instruction lists and parameters
have come from those of the first. -/
structure Reworks (leaves : Block → Block → Prop) (before after : Shader) : Prop where
  vars : after.vars.size = before.vars.size
  functions : after.functions.size = before.functions.size
  bodies : ∀ body ∈ after.bodies, ∃ original ∈ before.bodies, leaves original body
  parameters : ∀ id, ∀ signature ∈ after.signaturesOf id, ∃ original ∈ before.signaturesOf id,
    signature.parameters = original.parameters

variable {before after shader result : Shader}

theorem Confined.reworks (confined : before.Confined)
    (reworks : Reworks Block.NoFarther before after) :
    after.Confined where
  bodies body listed := by
    obtain ⟨original, was, no_farther⟩ := reworks.bodies body listed
    rw [reworks.vars, reworks.functions]
    exact no_farther _ _ (confined.bodies original was)
  parameters id signature listed parameter inside := by
    obtain ⟨original, was, same⟩ := reworks.parameters id signature listed
    rw [reworks.vars]
    exact confined.parameters id original was parameter (same ▸ inside)

/-- Revising variables leaves all handles as they are. -/
theorem Confined.revised {relation : Variable → Variable → Prop} (confined : before.Confined)
    (revised : Revised relation before after) : after.Confined := by
  have same := revised.same
  have size := revised.size
  generalize after.vars = vars at same size
  subst same
  have size : vars.size = before.vars.size := size
  refine ⟨fun body listed => ?_, fun id signature listed parameter inside => ?_⟩
  · exact (confined.bodies body listed).mono (Nat.le_of_eq size.symm) (Nat.le_refl _)
  · exact Nat.lt_of_lt_of_eq (confined.parameters id signature listed parameter inside) size.symm

/-- A change of all instruction lists one by one. -/
theorem reworks_updateBodies {leaves : Block → Block → Prop} {change : Block → Block}
    (each : ∀ block, leaves block (change block)) :
    Reworks leaves shader (shader.updateBodies change) where
  vars := rfl
  functions := by simp [updateBodies]
  bodies body listed := by
    rw [bodies_updateBodies] at listed
    obtain ⟨original, was, rfl⟩ := List.mem_map.mp listed
    exact ⟨original, was, each original⟩
  parameters id signature listed := by
    rw [signaturesOf_updateBodies] at listed
    obtain ⟨original, was, rfl⟩ := List.mem_map.mp listed
    exact ⟨original, was, rfl⟩

theorem Confined.foldConstants (confined : shader.Confined) : shader.foldConstants.Confined :=
  confined.reworks (reworks_updateBodies Block.noFarther_fold)

theorem Confined.removeDeadCode (confined : shader.Confined) (keepUniforms : Bool) :
    (shader.removeDeadCode keepUniforms).Confined := by
  have unbound : Confined { shader with
      symbols := shader.unbindVariables shader.symbols (shader.deadDeclarations keepUniforms) } :=
    ⟨confined.bodies, confined.parameters⟩
  exact unbound.reworks (reworks_updateBodies (Block.noFarther_survives _ _))

theorem reworks_removeDeadFunctions :
    Reworks Block.NoFarther shader shader.removeDeadFunctions where
  vars := rfl
  functions := by simp [removeDeadFunctions, updateBodies, Arena.indexed, Arena.map, Arena.size]
  bodies body listed := by
    rcases mem_bodies.mp listed with rfl | ⟨id, signature, inside, rfl⟩
    · refine ⟨shader.topLevel, mem_bodies.mpr (.inl rfl), fun _ _ within => ?_⟩
      exact Block.noFarther_moveCall _ _ _ _ _
        (within.of_subset (Block.ownNodes_sublist List.filter_sublist).subset)
    · rw [signaturesOf_removeDeadFunctions] at inside
      obtain ⟨pair, kept, rfl⟩ := List.mem_map.mp inside
      have was : pair.1 ∈ shader.signaturesOf id :=
        List.fst_mem_of_mem_zipIdx (List.mem_filter.mp kept).1
      exact ⟨pair.1.body, mem_bodies.mpr (.inr ⟨id, pair.1, was, rfl⟩),
        Block.noFarther_moveCall _ _ _⟩
  parameters id signature listed := by
    rw [signaturesOf_removeDeadFunctions] at listed
    obtain ⟨pair, kept, rfl⟩ := List.mem_map.mp listed
    exact ⟨pair.1, List.fst_mem_of_mem_zipIdx (List.mem_filter.mp kept).1, rfl⟩

theorem Confined.run (confined : shader.Confined) (pass : Pass) : (pass.run shader).Confined := by
  cases pass with
  | foldConstants => exact confined.foldConstants
  | removeDeadCode keepUniforms => exact confined.removeDeadCode keepUniforms
  | removeDeadFunctions => exact confined.reworks reworks_removeDeadFunctions
  | inspect => exact confined

theorem Confined.removeAllDeadCode (confined : shader.Confined) :
    shader.removeAllDeadCode.Confined :=
  exhaust_keeps (fun _ still => still.removeDeadCode false) shader confined

theorem Confined.optimizeFully (confined : shader.Confined) : shader.optimizeFully.Confined :=
  exhaust_keeps (fun _ still => optimize_keeps (fun pass _ _ again => again.run pass) _ still)
    shader confined

/-- A pass over all instruction lists goes through if it does on each of them. -/
theorem exists_mapBodies {step : Block → Checked Block}
    (each : ∀ body ∈ shader.bodies, ∃ changed, step body = .ok changed) :
    ∃ result, shader.mapBodies step = .ok result := by
  let change (body : Block) : Block := (step body).toOption.getD body
  refine ⟨shader.updateBodies change, mapBodies_eq_updateBodies fun body listed => ?_⟩
  obtain ⟨changed, changes⟩ := each body listed
  simp only [change, changes]
  rfl

theorem Confined.exists_retypeElements (confined : shader.Confined) :
    ∃ result, ArraySize.retypeElements shader = .ok result :=
  exists_mapBodies fun body listed => Block.exists_retyped (confined.bodies body listed).mentions

/-- Retyping goes through all instruction lists and leaves them alike. -/
theorem reworks_retypeElements (runs : ArraySize.retypeElements shader = .ok result) :
    Reworks (Block.Alike unchanged) shader result := by
  obtain ⟨same, top, functions⟩ := mapBodies_eq_ok runs
  have derives := signaturesOf_retypeElements runs
  refine ⟨by
    rw [same], functions.length_eq.symm, fun body listed => ?_, fun id signature listed => ?_⟩
  · rcases mem_bodies.mp listed with rfl | ⟨id, signature, inside, rfl⟩
    · exact ⟨shader.topLevel, mem_bodies.mpr (.inl rfl), retypeBlock_alike top⟩
    · obtain ⟨original, was, -, alike⟩ := exists_of_forall₂ (derives id) inside
      exact ⟨original.body, mem_bodies.mpr (.inr ⟨id, original, was, rfl⟩), alike⟩
  · obtain ⟨original, was, same, -⟩ := exists_of_forall₂ (derives id) listed
    exact ⟨original, was, by rw [same]⟩

/-- So it keeps handles in. -/
theorem Confined.retyped (confined : shader.Confined)
    (runs : ArraySize.retypeElements shader = .ok result) : result.Confined := by
  have reworks := reworks_retypeElements runs
  refine confined.reworks ⟨reworks.vars, reworks.functions, fun body listed => ?_,
    reworks.parameters⟩
  obtain ⟨original, was, alike⟩ := reworks.bodies body listed
  exact ⟨original, was, alike.noFarther⟩

end Shader
end StageLink
