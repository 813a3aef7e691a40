import StageLink.Optimize.Pass
import StageLink.Proofs.Recasting
import StageLink.Proofs.Relabeling

/-!
# Removing dead functions

The signatures that are called, and the main one, move up over those that are removed, and calls
follow them.  So the calls between the signatures that are left are those that have been there, and
none of them loses its definition.
-/

namespace StageLink

section Lists

variable {Item : Type} {items : List Item} {keep : Nat → Bool}

/-- The items at the positions chosen, counted from a position, each with its own. -/
def keptAt (keep : Nat → Bool) (start : Nat) (items : List Item) : List (Item × Nat) :=
  (items.zipIdx start).filter fun pair => keep pair.2

/-- An item that is kept comes after those kept before it. -/
theorem getElem?_keptAt {position : Nat} {item : Item} (there : items[position]? = some item)
    (kept : keep position = true) :
    (keptAt keep 0 items)[(keptAt keep 0 (items.take position)).length]? =
    some (item, position) := by
  obtain ⟨inside, rfl⟩ := List.getElem?_eq_some_iff.mp there
  have parts : keptAt keep 0 items = keptAt keep 0 (items.take position) ++
      (items[position], position) :: keptAt keep (position + 1) (items.drop (position + 1)) := by
    have whole : items = items.take position ++ items[position] :: items.drop (position + 1) := by
      rw [List.getElem_cons_drop, List.take_append_drop]
    have length : (items.take position).length = position := by
      rw [List.length_take]
      omega
    conv_lhs => rw [whole]
    simp only [keptAt, List.zipIdx_append, List.filter_append, List.zipIdx_cons,
      length, Nat.zero_add,
      List.filter_cons, kept, if_true]
  rw [parts, List.getElem?_append_right (Nat.le_refl _), Nat.sub_self]
  rfl

theorem keptAt_position {position : Nat} {item : Item} {place : Nat}
    (there : (keptAt keep 0 items)[place]? = some (item, position)) :
    items[position]? = some item ∧ keep position = true ∧
      (keptAt keep 0 (items.take position)).length = place := by
  obtain ⟨listed, kept⟩ := List.mem_filter.mp (List.mem_of_getElem? there)
  have found : items[position]? = some item := List.mem_zipIdx_iff_getElem?.mp listed
  refine ⟨found, kept, ?_⟩
  have positions : ((keptAt keep 0 items).map Prod.snd).Nodup := by
    refine ((List.filter_sublist (p := fun pair : Item × Nat => keep pair.2)).map Prod.snd).nodup ?_
    rw [List.zipIdx_map_snd]
    exact List.nodup_range'
  have distinct := positions.of_map
  have again := getElem?_keptAt found kept
  have inside := (List.getElem?_eq_some_iff.mp again).1
  exact (List.getElem?_inj inside distinct).mp (again.trans there.symm)

theorem keptAt_all
    (all : ∀ position < items.length, keep position = true) :
    keptAt keep 0 items = items.zipIdx := by
  refine List.filter_eq_self.mpr fun pair listed => all pair.2 ?_
  exact (List.getElem?_eq_some_iff.mp (List.mem_zipIdx_iff_getElem?.mp listed)).1

section Searching

variable {test : Item → Bool} {start : Nat}

theorem findIdx?_keptAt {position : Nat} (first : items.findIdx? test = some position)
    (kept : keep (start + position) = true) :
    (keptAt keep start items).findIdx? (fun pair => test pair.1) =
      some (keptAt keep start (items.take position)).length := by
  induction items generalizing start position with
  | nil => cases first
  | cons item items ih =>
      rw [List.findIdx?_cons] at first
      by_cases passes : test item = true
      · rw [if_pos passes] at first
        obtain rfl := Option.some.inj first
        rw [Nat.add_zero] at kept
        simp only [keptAt, List.zipIdx_cons, List.filter_cons, kept, if_true,
          List.findIdx?_cons, passes,
          List.take_zero]
        rfl
      · rw [if_neg passes] at first
        obtain ⟨later, found, rfl⟩ := Option.map_eq_some_iff.mp first
        have rest := @ih (start + 1) _ found (by rwa [Nat.add_assoc, Nat.add_comm 1])
        simp only [keptAt, List.zipIdx_cons, List.take_succ_cons, List.filter_cons] at rest ⊢
        by_cases here : keep start = true
        · rw [if_pos here, if_pos here, List.findIdx?_cons, if_neg passes, rest]
          rfl
        · rw [if_neg here, if_neg here, rest]

theorem findIdx?_keptAt_eq_none (none_passes : items.findIdx? test = none) :
    (keptAt keep start items).findIdx? (fun pair => test pair.1) = none := by
  rw [List.findIdx?_eq_none_iff] at none_passes ⊢
  intro pair listed
  exact none_passes pair.1 (List.fst_mem_of_mem_zipIdx (List.mem_filter.mp listed).1)

end Searching

end Lists

mutual

/-- Rewriting instructions to themselves changes nothing. -/
theorem Instruction.mapInstructions_self : (instruction : Instruction) →
    Id.run (instruction.mapInstructions fun inner => pure inner) = instruction
  | .branch condition accept reject => by
      have first := Block.mapInstructions_self accept
      have second := Block.mapInstructions_self reject
      simp only [Instruction.mapInstructions, Instruction.withBlocks, Id.run_bind, Id.run_pure] at *
      rw [first, second]
  | .loop body => by
      have inner := Block.mapInstructions_self body
      simp only [Instruction.mapInstructions, Instruction.withBlocks, Id.run_bind, Id.run_pure] at *
      rw [inner]
  | .declare _ | .function _ | .assign .. | .call .. | .leave | .next | .yield _ | .discard
  | .emitVertex | .endPrimitive => rfl

theorem Block.mapInstructions_self : (block : List Instruction) →
    Id.run (Block.mapInstructions (fun inner => pure inner) block) = block
  | [] => rfl
  | instruction :: rest => by
      have first := Instruction.mapInstructions_self instruction
      have later := Block.mapInstructions_self rest
      simp only [Block.mapInstructions, Id.run_bind, Id.run_pure] at *
      rw [first, later]

end

/-- What holds of the result of an operation without effects. -/
def purely : Ensuring Id where
  ensures operation post := post operation.run
  pure holds := holds
  bind first next := next _ first
  weaken implies holds := implies _ holds

/-- Other callees and nothing else. -/
def Relabeling.ofCalls (moved : Callee → Callee) : Relabeling :=
  { Relabeling.same with calls := moved }

namespace Shader

variable {shader : Shader}

def moved (shader : Shader) : Callee → Callee := shader.movedCallee shader.liveCallees

/-- Letting all calls follow their callees exchanges callees and nothing else. -/
theorem updateInstructions_moveCall (block : Block) :
    Block.updateInstructions (shader.moveCall shader.liveCallees) block =
      Block.relabel (.ofCalls shader.moved) block := by
  refine Block.mapInstructions_relabel purely block fun inner _ => ?_
  have same := inner.bare.relabel_same
  cases inner with
  | call callee arguments result =>
      exact (Instruction.call (shader.moved callee) arguments result).relabel_same.symm
  | _ => exact same.symm

def staysAt (shader : Shader) (id : FunctionId) (position : Nat) : Bool :=
  shader.liveCallees.contains ⟨id, position⟩

theorem liveSignatures_eq (id : FunctionId) (signatures : List Signature) :
    liveSignatures shader.liveCallees id signatures = keptAt (shader.staysAt id) 0 signatures := rfl

theorem staysAt_iff {one : Callee} :
    shader.staysAt one.function one.signature = true ↔ one ∈ shader.liveCallees :=
  List.contains_iff_mem

def follow (shader : Shader) (signature : Signature) : Signature :=
  { signature with body :=
    Block.updateInstructions (shader.moveCall shader.liveCallees) signature.body }

theorem function_removeDeadFunctions (id : FunctionId) :
    shader.removeDeadFunctions.functions.get? id = (shader.functions.get? id).map fun function =>
      { function with signatures :=
          (keptAt (shader.staysAt id) 0 function.signatures).map fun pair =>
            shader.follow pair.1 } := by
  have indexed : shader.functions.indexed[id]? =
      (shader.functions.get? id).map fun function => (id, function) := by
    simp only [Arena.indexed, Arena.get?, List.getElem?_map, List.getElem?_zipIdx, Option.map_map]
    simp
    rfl
  simp only [removeDeadFunctions, updateBodies, Arena.get?_map]
  simp only [Arena.get?, List.getElem?_map, Option.map_map] at indexed ⊢
  rw [indexed]
  cases shader.functions.entries[id]? with
  | none => rfl
  | some function => simp [liveSignatures_eq, follow]

theorem signaturesOf_removeDeadFunctions (id : FunctionId) :
    shader.removeDeadFunctions.signaturesOf id =
      (keptAt (shader.staysAt id) 0 (shader.signaturesOf id)).map fun pair =>
      shader.follow pair.1 := by
  simp only [signaturesOf, function_removeDeadFunctions]
  cases shader.functions.get? id <;> rfl

theorem isNamed_removeDeadFunctions :
    ∀ name, shader.removeDeadFunctions.isNamed name = shader.isNamed name := by
  refine isNamed_of_names fun id => ?_
  rw [function_removeDeadFunctions]
  cases shader.functions.get? id <;> rfl

/-! ## Moving up -/

/-- A signature stays, and its callee becomes another. -/
def Follows (shader : Shader) (one other : Callee) : Prop :=
  one ∈ shader.liveCallees ∧ (∃ signature, shader.At one signature) ∧
    other = shader.movedCallee shader.liveCallees one

theorem movedCallee_eq {one : Callee} {signature : Signature} (live : one ∈ shader.liveCallees)
    (there : shader.At one signature) : shader.movedCallee shader.liveCallees one =
      ⟨one.function, (keptAt (shader.staysAt one.function) 0
        ((shader.signaturesOf one.function).take one.signature)).length⟩ := by
  have inside := (List.getElem?_eq_some_iff.mp there).1
  simp [movedCallee, live, inside, liveSignatures_eq]

theorem keptAt_of_live {one : Callee} {signature : Signature} (live : one ∈ shader.liveCallees)
    (there : shader.At one signature) :
    (keptAt (shader.staysAt one.function) 0 (shader.signaturesOf one.function))[(keptAt
      (shader.staysAt one.function) 0
        ((shader.signaturesOf one.function).take one.signature)).length]? =
      some (signature, one.signature) :=
  getElem?_keptAt there (staysAt_iff.mpr live)

theorem Follows.function {one other : Callee} (follows : shader.Follows one other) :
    other.function = one.function := by
  obtain ⟨live, ⟨signature, there⟩, rfl⟩ := follows
  rw [movedCallee_eq live there]

/-- The signatures that are left are those that are live. -/
theorem at_removeDeadFunctions {other : Callee} {carried : Signature} :
    shader.removeDeadFunctions.At other carried ↔ ∃ one signature, shader.Follows one other ∧
      shader.At one signature ∧ carried = shader.follow signature := by
  rw [At, signaturesOf_removeDeadFunctions]
  constructor
  · intro there
    rw [List.getElem?_map] at there
    obtain ⟨⟨signature, position⟩, found, rfl⟩ := Option.map_eq_some_iff.mp there
    obtain ⟨was, kept, place⟩ := keptAt_position found
    have at_one : shader.At ⟨other.function, position⟩ signature := was
    have live : ⟨other.function, position⟩ ∈ shader.liveCallees := staysAt_iff.mp kept
    refine ⟨⟨other.function, position⟩, signature, ⟨live, ⟨signature, at_one⟩, ?_⟩, at_one, rfl⟩
    rw [movedCallee_eq live at_one, place]
  · rintro ⟨one, signature, ⟨live, -, rfl⟩, there, rfl⟩
    rw [movedCallee_eq live there, List.getElem?_map, keptAt_of_live live there]
    rfl

theorem Follows.injective {one two other : Callee} (first : shader.Follows one other)
    (second : shader.Follows two other) : one = two := by
  have same_function : one.function = two.function := first.function.symm.trans second.function
  obtain ⟨live, ⟨signature, there⟩, rfl⟩ := first
  obtain ⟨live_too, ⟨signature_too, there_too⟩, same⟩ := second
  rw [movedCallee_eq live there, movedCallee_eq live_too there_too, same_function] at same
  obtain ⟨function, position⟩ := one
  obtain ⟨function', position'⟩ := two
  obtain rfl : function = function' := same_function
  have here := keptAt_of_live live there
  rw [(Callee.mk.inj same).2, keptAt_of_live live_too there_too] at here
  exact congrArg (Callee.mk function) (Prod.mk.inj (Option.some.inj here)).2.symm

/-! ## Declarations -/

theorem topLevel_removeDeadFunctions (flat : shader.topLevel.Flat) :
    shader.removeDeadFunctions.topLevel =
      shader.topLevel.filter (keepsFunction (shader.emptiedFunctions shader.liveCallees)) := by
  have left : Block.Flat (shader.topLevel.filter
      (keepsFunction (shader.emptiedFunctions shader.liveCallees))) :=
    flat.sublist List.filter_sublist
  simp only [removeDeadFunctions, updateBodies]
  exact Block.updateInstructions_flat_self left fun instruction declares => by
    cases instruction <;> simp_all [Instruction.isDeclaration, moveCall]

theorem topLevel_removeDeadFunctions_eq : shader.removeDeadFunctions.topLevel =
    Block.relabel (.ofCalls shader.moved) (shader.topLevel.filter
      (keepsFunction (shader.emptiedFunctions shader.liveCallees))) :=
  updateInstructions_moveCall _

theorem declaredFunctions_removeDeadFunctions :
    shader.removeDeadFunctions.declaredFunctions = shader.declaredFunctions.filter fun id =>
      !(shader.emptiedFunctions shader.liveCallees).contains id := by
  rw [declaredFunctions, topLevel_removeDeadFunctions_eq, Block.relabel_eq_map, declaredFunctions]
  simp only [List.filterMap_map, List.filterMap_filter, List.filter_filterMap]
  refine List.filterMap_congr fun instruction _ => ?_
  cases instruction <;>
    simp [keepsFunction, Option.filter, Instruction.relabel, Relabeling.ofCalls, Relabeling.same]

theorem not_emptied {one : Callee} {signature : Signature} (live : one ∈ shader.liveCallees)
    (there : shader.At one signature) :
    one.function ∉ shader.emptiedFunctions shader.liveCallees := by
  intro emptied
  obtain ⟨⟨id, function⟩, listed, same⟩ := List.mem_map.mp emptied
  obtain ⟨in_arena, empty⟩ := List.mem_filter.mp listed
  obtain rfl : id = one.function := same
  have found := Arena.mem_indexed.mp in_arena
  have here := keptAt_of_live live there
  rw [Bool.and_eq_true, List.isEmpty_iff, liveSignatures_eq] at empty
  rw [signaturesOf_eq found, empty.2] at here
  cases here

theorem unbindFunctions_vars (shader : Shader) (ids : List FunctionId) :
    ∀ symbols : SymbolTable, (shader.unbindFunctions symbols ids).vars = symbols.vars := by
  induction ids with
  | nil => exact fun _ => rfl
  | cons id ids ih =>
      intro symbols
      rw [unbindFunctions]
      split
      · split
        · exact ih _
        · exact ih _
      · exact ih _

/-- The names of variables are not touched. -/
theorem vars_removeDeadFunctions (shader : Shader) :
    shader.removeDeadFunctions.symbols.vars = shader.symbols.vars :=
  shader.unbindFunctions_vars _ _

/-- A name whose function is not among those emptied stays bound. -/
theorem unbindFunctions_keeps {name : String} {id : FunctionId} (ids : List FunctionId)
    (not_listed : id ∉ ids) : ∀ {symbols : SymbolTable}, symbols.functions.get? name = some id →
      (shader.unbindFunctions symbols ids).functions.get? name = some id := by
  induction ids with
  | nil => exact fun bound => bound
  | cons first ids ih =>
      obtain ⟨other, later⟩ := not_or.mp (fun listed => not_listed (List.mem_cons.mpr listed))
      intro symbols bound
      rw [unbindFunctions]
      split
      · next function found =>
          split
          · next first_bound => exact ih later (NameTable.get?_erase_of_ne bound first_bound other)
          · exact ih later bound
      · exact ih later bound

theorem liveCallees_of_main {main : Callee} (has : shader.HasMain main) :
    main ∈ shader.liveCallees := by
  rw [liveCallees, has.mainSignature?]
  exact List.mem_append_left _ (List.mem_singleton.mpr rfl)

theorem SelfContained.live_of_invokes (contained : shader.SelfContained) {caller callee : Callee}
    (invokes : shader.Invokes caller callee) : callee ∈ shader.liveCallees :=
  List.mem_append_right _ (contained.mem_callees.mpr ⟨caller, invokes⟩)

theorem SelfContained.carries_removeDeadFunctions (contained : shader.SelfContained) :
    Carries shader.Follows shader shader.removeDeadFunctions where
  injective := Follows.injective
  there := by
    intro one other signature follows is_declared there
    have moved := at_removeDeadFunctions.mpr ⟨one, signature, follows, there, rfl⟩
    refine ⟨?_, shader.follow signature, moved, rfl⟩
    rw [declaredFunctions_removeDeadFunctions, follows.function]
    refine List.mem_filter.mpr ⟨is_declared, ?_⟩
    simpa using not_emptied follows.1 there
  back := by
    intro other carried is_declared there
    obtain ⟨one, signature, follows, was, rfl⟩ := at_removeDeadFunctions.mp there
    rw [declaredFunctions_removeDeadFunctions, follows.function] at is_declared
    have was_declared := (List.mem_filter.mp is_declared).1
    have shrinks := Block.shrinks_moveCall shader shader.liveCallees signature.body
    refine ⟨one, signature, follows, was_declared, was, rfl, shrinks.functionFree, ?_⟩
    intro callee called
    obtain ⟨original, called_before, moved⟩ := shrinks.tracesBack.calls callee called
    have invokes : shader.Invokes one original := ⟨was_declared, signature, was, called_before⟩
    obtain ⟨-, target, target_there, -⟩ := contained.settled invokes
    exact ⟨original, called_before, contained.live_of_invokes invokes,
      ⟨target, target_there⟩, moved⟩

theorem findIdx?_isEntry_removeDeadFunctions (id : FunctionId) :
    (shader.removeDeadFunctions.signaturesOf id).findIdx? isEntry =
      (keptAt (shader.staysAt id) 0 (shader.signaturesOf id)).findIdx? fun pair =>
      isEntry pair.1 := by
  rw [signaturesOf_removeDeadFunctions, List.findIdx?_map]
  rfl

theorem HasMain.removeDeadFunctions {main : Callee} (has : shader.HasMain main) :
    shader.removeDeadFunctions.HasMain (shader.moved main) := by
  have live := liveCallees_of_main has
  obtain ⟨signature, there, is_entry⟩ := has.exists_at
  have stays := not_emptied live there
  rw [moved, movedCallee_eq live there]
  refine ⟨shader.unbindFunctions_keeps _ stays has.bound, ?_, ?_⟩
  · obtain ⟨before, ends⟩ := List.getLast?_eq_some_iff.mp has.last
    rw [lastNamed, declaredFunctions_removeDeadFunctions, isNamed_removeDeadFunctions,
      List.filter_comm, ends, List.filter_append, List.filter_cons_of_pos (by simpa using stays),
      List.filter_nil, List.getLast?_append]
    rfl
  · have kept : shader.staysAt main.function (0 + main.signature) = true := by
      rw [Nat.zero_add]
      exact staysAt_iff.mpr live
    rw [findIdx?_isEntry_removeDeadFunctions]
    exact findIdx?_keptAt has.entry kept

theorem HasMain.follows {main : Callee} (has : shader.HasMain main) :
    shader.Follows main (shader.moved main) := by
  obtain ⟨entry, there, -⟩ := has.exists_at
  exact ⟨liveCallees_of_main has, ⟨entry, there⟩, rfl⟩

theorem SelfContained.removeDeadFunctions (contained : shader.SelfContained) :
    shader.removeDeadFunctions.SelfContained := by
  obtain ⟨main, has⟩ := contained.main
  refine contained.carries_removeDeadFunctions.selfContained contained ?_
    ⟨_, has.removeDeadFunctions⟩
  rw [topLevel_removeDeadFunctions contained.flat]
  exact contained.flat.sublist List.filter_sublist

/-! ## Where nothing is dead -/

/-- Nothing is dead. -/
def AllLive (shader : Shader) : Prop :=
  ∀ {callee signature}, shader.At callee signature → callee ∈ shader.liveCallees

namespace AllLive

theorem staysAt (all_live : shader.AllLive) (id : FunctionId) :
    ∀ position < (shader.signaturesOf id).length, shader.staysAt id position = true :=
  fun position inside => staysAt_iff.mpr
    (@all_live ⟨id, position⟩ _ (List.getElem?_eq_getElem inside))

theorem movedCallee (all_live : shader.AllLive) (callee : Callee) :
    shader.movedCallee shader.liveCallees callee = callee := by
  unfold Shader.movedCallee
  split
  · next conditions =>
      simp only [Bool.and_eq_true, decide_eq_true_eq] at conditions
      have before : ((shader.signaturesOf callee.function).take callee.signature).length =
          callee.signature := by
        rw [List.length_take]
        omega
      dsimp only
      rw [liveSignatures_eq, keptAt_all fun position inside =>
        all_live.staysAt _ position (by omega),
        List.length_zipIdx, before]
  · rfl

theorem updateInstructions (all_live : shader.AllLive) (block : Block) :
    Block.updateInstructions (shader.moveCall shader.liveCallees) block = block := by
  have same : shader.moveCall shader.liveCallees = fun instruction => instruction := by
    funext instruction
    cases instruction <;> simp only [moveCall, all_live.movedCallee]
  rw [same]
  exact Block.mapInstructions_self block

theorem liveSignatures (all_live : shader.AllLive) {id : FunctionId} {function : Function}
    (found : shader.functions.get? id = some function) :
    Shader.liveSignatures shader.liveCallees id function.signatures =
      function.signatures.zipIdx := by
  have stays := all_live.staysAt id
  rw [signaturesOf_eq found] at stays
  rw [liveSignatures_eq, keptAt_all stays]

/-- Removing dead functions changes nothing where nothing is dead. -/
theorem removeDeadFunctions (all_live : shader.AllLive) : shader.removeDeadFunctions = shader := by
  have emptied : shader.emptiedFunctions shader.liveCallees = [] := by
    rw [emptiedFunctions, List.map_eq_nil_iff]
    refine List.filter_eq_nil_iff.mpr fun pair listed => ?_
    rw [all_live.liveSignatures (Arena.mem_indexed.mp listed)]
    cases pair.2.signatures <;> simp
  have functions : shader.functions.indexed.map (fun pair =>
      { pair.2 with signatures :=
          (Shader.liveSignatures shader.liveCallees pair.1 pair.2.signatures).map (·.1) }) =
      shader.functions.entries := by
    have same : ∀ pair ∈ shader.functions.indexed, ({ pair.2 with signatures :=
          (Shader.liveSignatures shader.liveCallees pair.1 pair.2.signatures).map (·.1) } :
            Function) =
        pair.2 := by
      intro pair listed
      rw [all_live.liveSignatures (Arena.mem_indexed.mp listed)]
      simp
    rw [List.map_congr_left same, Arena.indexed, List.map_map]
    exact List.zipIdx_map_fst 0 _
  have kept : shader.topLevel.filter (keepsFunction []) = shader.topLevel :=
    List.filter_eq_self.mpr fun instruction _ => by cases instruction <;> rfl
  simp only [Shader.removeDeadFunctions, emptied, functions, kept, unbindFunctions, updateBodies,
    all_live.updateInstructions, Arena.map, List.map_id']

end AllLive

end Shader
end StageLink
