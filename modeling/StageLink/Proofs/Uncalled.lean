import StageLink.Proofs.DeadFunctions
import StageLink.Proofs.Renumbered

/-!
# Calls among what is left

Removing dead functions keeps the meaning of every call.  The signatures that something needs move
up over those that nothing needs, and all calls are renumbered in one way, so that a call has the
same target as before, whose own calls are renumbered in that way too.  What else changes are the
declarations and the names of the functions that have lost all their signatures.
-/

namespace StageLink

def Signature.moveCalls (moved : Callee → Callee) (signature : Signature) : Signature :=
  { signature with body := Block.relabel (.ofCalls moved) signature.body }

theorem Block.callees_relabel (names : Relabeling) (block : Block) :
    Shader.callees (Block.ownNodes (Block.relabel names block)) =
      (Shader.callees block.ownNodes).map names.calls := by
  rw [Block.ownNodes_relabel, Shader.callees, Shader.callees, List.filterMap_map,
    List.map_filterMap]
  refine List.filterMap_congr fun node _ => ?_
  cases node with
  | instruction instruction => cases instruction <;> rfl
  | _ => rfl

namespace Shader

variable {shader before after : Shader}

/-! ## What is needed -/

def IsCalled (shader : Shader) (callee : Callee) : Prop :=
  callee ∈ callees shader.topLevel.ownNodes ∨ ∃ id ∈ shader.declaredFunctions,
    ∃ signature ∈ shader.signaturesOf id, callee ∈ callees signature.body.ownNodes

/-- The main signature is needed, and so is what is called. -/
def IsNeeded (shader : Shader) (callee : Callee) : Prop :=
  shader.mainSignature? = some callee ∨ shader.IsCalled callee

theorem mem_liveCallees (on_top : shader.FunctionsOnTop) {callee : Callee} :
    callee ∈ shader.liveCallees ↔ shader.IsNeeded callee := by
  rw [liveCallees, List.mem_append, Option.mem_toList, mem_callees_nodes on_top]
  rfl

/-- A function had signatures, and has none any more. -/
def Emptied (before after : Shader) (id : FunctionId) : Prop :=
  before.signaturesOf id ≠ [] ∧ after.signaturesOf id = []

open Classical in
/-- A shader has lost the signatures that it did not need, and its calls have moved. -/
structure ShedsUncalled (moved : Callee → Callee) (before after : Shader) : Prop where
  /-- Only functions, the top-level list and the names of functions change. -/
  same : after = { before with
    functions := after.functions
    topLevel := after.topLevel
    symbols := { before.symbols with functions := after.symbols.functions } }
  names : ∀ id, (after.functions.get? id).map (·.name) = (before.functions.get? id).map (·.name)
  /-- The signatures that are needed are left, in their order and with their calls moved. -/
  signatures : ∀ id, after.signaturesOf id =
    ((before.signaturesOf id).zipIdx.filter fun pair => before.IsNeeded ⟨id, pair.2⟩).map
      fun pair => pair.1.moveCalls moved
  /-- What is needed exists, and is what it has been where it has moved. -/
  targets : ∀ callee, before.IsNeeded callee → ∃ signature, before.At callee signature ∧
    after.At (moved callee) (signature.moveCalls moved)
  apart : ∀ one other, before.IsNeeded one → before.IsNeeded other →
    moved one = moved other → one = other
  /-- The top-level list loses the declarations of emptied functions, and its calls move. -/
  topLevel : after.topLevel = Block.relabel (.ofCalls moved)
    (before.topLevel.filter fun instruction =>
      ∀ id, instruction = .function id → ¬ Emptied before after id)
  /-- The calls that are left are those that have been there. -/
  calls : ∀ callee, after.IsCalled callee → ∃ original, before.IsCalled original ∧
    moved original = callee
  main : after.mainSignature? = before.mainSignature?.map moved
  /-- The functions that are no longer declared or known by name are the emptied ones. -/
  gone : ∀ id function, id ∈ before.declaredFunctions → before.functions.get? id = some function →
    before.symbols.functions.get? function.name = some id ∧
    (id ∈ after.declaredFunctions ↔ ¬ Emptied before after id) ∧
    after.symbols.functions.get? function.name = if Emptied before after id then none else some id
  populated : after.Populated

/-! ## Signatures -/

theorem follow_eq (signature : Signature) :
    shader.follow signature = signature.moveCalls shader.moved := by
  rw [follow, updateInstructions_moveCall]
  rfl

theorem mem_emptiedFunctions {id : FunctionId} :
    id ∈ shader.emptiedFunctions shader.liveCallees ↔
      Emptied shader shader.removeDeadFunctions id := by
  rw [Emptied, signaturesOf_removeDeadFunctions, List.map_eq_nil_iff,
    emptiedFunctions, List.mem_map]
  constructor
  · rintro ⟨⟨other, function⟩, listed, rfl⟩
    obtain ⟨in_arena, empty⟩ := List.mem_filter.mp listed
    rw [signaturesOf_eq (Arena.mem_indexed.mp in_arena)]
    simpa [liveSignatures_eq] using empty
  · rintro ⟨some_signature, none_left⟩
    cases found : shader.functions.get? id with
    | none => simp [signaturesOf, found] at some_signature
    | some function =>
        rw [signaturesOf_eq found] at some_signature none_left
        refine ⟨(id, function), List.mem_filter.mpr ⟨Arena.mem_indexed.mpr found, ?_⟩, rfl⟩
        simpa [liveSignatures_eq, none_left] using some_signature

theorem isNeeded_iff_staysAt (on_top : shader.FunctionsOnTop) {id : FunctionId} {position : Nat} :
    shader.IsNeeded ⟨id, position⟩ ↔ shader.staysAt id position = true :=
  (mem_liveCallees on_top).symm.trans staysAt_iff.symm

theorem Closed.exists_of_isCalled (closed : shader.Closed) {callee : Callee}
    (called : shader.IsCalled callee) : ∃ signature, shader.At callee signature := by
  obtain ⟨arguments, result, listed⟩ :=
    mem_callees_iff.mp ((mem_callees_nodes closed.on_top).mpr called)
  obtain ⟨-, signature, -, there, -⟩ :=
    (closed.holds.calls callee arguments result listed).exists_at
  exact ⟨signature, there⟩

theorem exists_of_mainSignature? {main : Callee} (found : shader.mainSignature? = some main) :
    ∃ signature, shader.At main signature := by
  obtain ⟨-, entry⟩ := mainSignature?_eq_some.mp found
  obtain ⟨inside, -, -⟩ := List.findIdx?_eq_some_iff_getElem.mp entry
  exact ⟨_, List.getElem?_eq_getElem inside⟩

theorem Closed.exists_of_isNeeded (closed : shader.Closed) {callee : Callee}
    (needed : shader.IsNeeded callee) : ∃ signature, shader.At callee signature :=
  needed.elim exists_of_mainSignature? closed.exists_of_isCalled

/-- The calls that are left have moved. -/
theorem exists_of_isCalled_removeDeadFunctions {callee : Callee}
    (called : shader.removeDeadFunctions.IsCalled callee) :
    ∃ original, shader.IsCalled original ∧ shader.moved original = callee := by
  rcases called with at_top | ⟨id, is_declared, signature, listed, inner⟩
  · rw [topLevel_removeDeadFunctions_eq, Block.callees_relabel] at at_top
    obtain ⟨original, there, moves⟩ := List.mem_map.mp at_top
    refine ⟨original, .inl ?_, moves⟩
    obtain ⟨arguments, result, in_nodes⟩ := mem_callees_iff.mp there
    obtain ⟨instruction, kept, inside⟩ := Block.mem_ownNodes.mp in_nodes
    exact mem_callees_iff.mpr ⟨arguments, result,
      Block.mem_ownNodes.mpr ⟨instruction, (List.mem_filter.mp kept).1, inside⟩⟩
  · rw [signaturesOf_removeDeadFunctions] at listed
    obtain ⟨pair, kept, rfl⟩ := List.mem_map.mp listed
    rw [follow_eq, Signature.moveCalls, Block.callees_relabel] at inner
    obtain ⟨original, there, moves⟩ := List.mem_map.mp inner
    rw [declaredFunctions_removeDeadFunctions] at is_declared
    exact ⟨original, .inr ⟨id, (List.mem_filter.mp is_declared).1, pair.1,
      List.fst_mem_of_mem_zipIdx (List.mem_filter.mp kept).1, there⟩, moves⟩

/-! ## Names -/

/-- Where functions are bound to their own names, unbinding some of them leaves the others. -/
theorem get?_unbindFunctions (name : String) (ids : List FunctionId) : ∀ {symbols : SymbolTable},
    (∀ name id, symbols.functions.get? name = some id → shader.isNamed name id = true) →
    (shader.unbindFunctions symbols ids).functions.get? name =
      (symbols.functions.get? name).filter fun id => !ids.contains id := by
  induction ids with
  | nil =>
      intro symbols _
      rw [unbindFunctions]
      cases symbols.functions.get? name <;> rfl
  | cons first ids ih =>
      intro symbols own
      have other : symbols.functions.get? name ≠ some first →
          (symbols.functions.get? name).filter (fun id => !(first :: ids).contains id) =
            (symbols.functions.get? name).filter fun id => !ids.contains id := by
        intro differs
        cases found : symbols.functions.get? name with
        | none => rfl
        | some id =>
            have unlike : id ≠ first := fun same => differs (same ▸ found)
            simp [Option.filter, unlike]
      rw [unbindFunctions]
      split
      · next function found =>
          split
          · next bound =>
              have erased : ∀ other, (symbols.removeFunction function.name).functions.get? other =
                  if other = function.name then none else symbols.functions.get? other :=
                fun other => NameTable.get?_erase ..
              rw [ih fun other id bound_other => own other id (by
                rw [erased] at bound_other
                split at bound_other
                · cases bound_other
                · exact bound_other), erased]
              by_cases here : name = function.name
              · rw [if_pos here, here, bound]
                simp [Option.filter]
              · rw [if_neg here, other fun bound_too => here ?_]
                have named := own name first bound_too
                simpa [isNamed, found, eq_comm] using named
          · next unbound =>
              rw [ih own, other fun bound => unbound ?_]
              have named := own name first bound
              obtain rfl : function.name = name := by simpa [isNamed, found] using named
              exact bound
      · next missing =>
          rw [ih own, other fun bound => ?_]
          have named := own name first bound
          simp [isNamed, missing] at named

theorem Populated.get?_removeDeadFunctions (populated : shader.Populated) (name : String) :
    shader.removeDeadFunctions.symbols.functions.get? name =
      (shader.symbols.functions.get? name).filter fun id =>
        !(shader.emptiedFunctions shader.liveCallees).contains id :=
  get?_unbindFunctions name _ fun _ _ bound => (populated.isNamed bound).2

/-- The main signature moves like the targets of calls. -/
theorem Populated.mainSignature?_removeDeadFunctions (populated : shader.Populated) :
    shader.removeDeadFunctions.mainSignature? = shader.mainSignature?.map shader.moved := by
  cases found : shader.mainSignature? with
  | some main => exact (populated.hasMain found).removeDeadFunctions.mainSignature?
  | none =>
      refine Option.eq_none_iff_forall_ne_some.mpr fun main found_now => ?_
      obtain ⟨bound, entry⟩ := mainSignature?_eq_some.mp found_now
      rw [populated.get?_removeDeadFunctions] at bound
      have was_bound := (Option.filter_eq_some_iff.mp bound).1
      have no_entry : (shader.signaturesOf main.function).findIdx? isEntry = none := by
        refine Option.eq_none_iff_forall_ne_some.mpr fun position entry => ?_
        have some_main : shader.mainSignature? = some ⟨main.function, position⟩ :=
          mainSignature?_eq_some.mpr ⟨was_bound, entry⟩
        rw [found] at some_main
        cases some_main
      have none_now : (shader.removeDeadFunctions.signaturesOf main.function).findIdx?
          isEntry = none := by
        rw [findIdx?_isEntry_removeDeadFunctions]
        exact findIdx?_keptAt_eq_none no_entry
      cases none_now.symm.trans entry

/-! ## The symbol table -/

def enterVariable (vars : Arena Variable) (table : NameTable VariableId) (id : VariableId) :
    NameTable VariableId :=
  match vars.get? id with
  | some declaration => table.insert declaration.name id
  | none => table

theorem enterSymbols_vars (block : Block) : ∀ symbols : SymbolTable,
    (shader.enterSymbols symbols block).vars =
      (block.filterMap fun | .declare id => some id | _ => none).foldl (enterVariable shader.vars)
        symbols.vars := by
  induction block with
  | nil => exact fun _ => rfl
  | cons instruction rest ih =>
      intro symbols
      cases instruction with
      | declare id =>
          change _ = (rest.filterMap _).foldl _ (enterVariable shader.vars symbols.vars id)
          rw [enterSymbols, enterVariable]
          cases shader.vars.get? id <;> exact ih _
      | function id =>
          rw [enterSymbols]
          split <;> exact ih _
      | _ => exact ih symbols

/-- The names of variables depend on the globals only. -/
theorem populateSymbols_vars (globals : after.globals = before.globals)
    (vars : after.vars = before.vars) :
    after.populateSymbols.symbols.vars = before.populateSymbols.symbols.vars := by
  have rebuilt : ∀ shader : Shader, shader.populateSymbols.symbols.vars =
      shader.globals.foldl (enterVariable shader.vars) {} := fun shader => enterSymbols_vars _ _
  rw [rebuilt, rebuilt, vars, globals]

theorem globals_removeDeadFunctions (shader : Shader) :
    shader.removeDeadFunctions.globals = shader.globals := by
  rw [globals, topLevel_removeDeadFunctions_eq, Block.relabel_eq_map, globals, List.filterMap_map,
    List.filterMap_filter]
  refine List.filterMap_congr fun instruction _ => ?_
  cases instruction <;>
    simp [keepsFunction, Instruction.relabel, Relabeling.ofCalls, Relabeling.same]

theorem getLast?_filter_of_same {Item : Type} {items : List Item} {test : Item → Bool}
    (same : ∀ one ∈ items, ∀ other ∈ items, one = other) :
    (items.filter test).getLast? = items.getLast?.filter test := by
  cases last : items.getLast? with
  | none =>
      rw [List.getLast?_eq_none_iff.mp last]
      rfl
  | some item =>
      have listed := List.mem_of_getLast? last
      by_cases passes : test item = true
      · rw [List.filter_eq_self.mpr fun other among => same item listed other among ▸ passes, last]
        simp [Option.filter, passes]
      · rw [List.filter_eq_nil_iff.mpr fun other among => same item listed other among ▸ passes]
        simp [Option.filter, passes]

/-- A symbol table that is up to date stays so, if no two functions have the same name. -/
theorem Populated.removeDeadFunctions (populated : shader.Populated) (apart : shader.NamesApart) :
    shader.removeDeadFunctions.Populated where
  vars name := by
    have rebuilt := populateSymbols_vars (globals_removeDeadFunctions shader) rfl
    rw [vars_removeDeadFunctions, populated.vars, rebuilt]
  functions name := by
    rw [populated.get?_removeDeadFunctions, populated.lastNamed, populateSymbols_function,
      Shader.lastNamed, Shader.lastNamed, isNamed_removeDeadFunctions,
      declaredFunctions_removeDeadFunctions, List.filter_comm,
        getLast?_filter_of_same apart.same_named]

/-! ## The whole -/

/-- Removing dead functions keeps the meaning of the calls of a shader whose handles are in bounds,
whose functions have different names and whose symbol table is up to date: calls move with their
targets, and what is lost are the signatures that neither are the main one nor are called. -/
theorem Closed.removeDeadFunctions_sheds (closed : before.Closed) (apart : before.NamesApart)
    (populated : before.Populated) :
    ShedsUncalled before.moved before before.removeDeadFunctions where
  same := by
    have symbols : before.removeDeadFunctions.symbols = { before.symbols with
        functions := before.removeDeadFunctions.symbols.functions } :=
      congrArg (SymbolTable.mk · before.removeDeadFunctions.symbols.functions)
        before.vars_removeDeadFunctions
    exact congrArg (fun symbols => { before with
      functions := before.removeDeadFunctions.functions
      topLevel := before.removeDeadFunctions.topLevel
      symbols := symbols }) symbols
  names id := by
    rw [function_removeDeadFunctions, Option.map_map]
    rfl
  signatures id := by
    rw [signaturesOf_removeDeadFunctions, funext follow_eq, keptAt]
    refine congrArg (List.map _) (List.filter_congr fun pair _ => ?_)
    rw [Bool.eq_iff_iff, @decide_eq_true_iff _ (Classical.propDecidable _)]
    exact (isNeeded_iff_staysAt closed.on_top).symm
  targets callee needed := by
    obtain ⟨signature, there⟩ := closed.exists_of_isNeeded needed
    refine ⟨signature, there, at_removeDeadFunctions.mpr
      ⟨callee, signature, ⟨?_, ⟨signature, there⟩, rfl⟩, there, (follow_eq signature).symm⟩⟩
    exact (mem_liveCallees closed.on_top).mpr needed
  apart one other needed needed_too same := by
    have first : before.Follows one (before.moved one) :=
      ⟨(mem_liveCallees closed.on_top).mpr needed, closed.exists_of_isNeeded needed, rfl⟩
    have second : before.Follows other (before.moved one) :=
      ⟨(mem_liveCallees closed.on_top).mpr needed_too, closed.exists_of_isNeeded needed_too, same⟩
    exact first.injective second
  topLevel := by
    rw [topLevel_removeDeadFunctions_eq]
    refine congrArg (Block.relabel _) (List.filter_congr fun instruction _ => ?_)
    rw [Bool.eq_iff_iff, @decide_eq_true_iff _ (Classical.propDecidable _)]
    cases instruction with
    | function id => simp [keepsFunction, mem_emptiedFunctions]
    | _ => simp [keepsFunction]
  calls _ := exists_of_isCalled_removeDeadFunctions
  main := populated.mainSignature?_removeDeadFunctions
  gone id function is_declared found := by
    have bound := populated.knows apart is_declared found
    refine ⟨bound, ?_, ?_⟩
    · rw [declaredFunctions_removeDeadFunctions, List.mem_filter]
      simp [is_declared, mem_emptiedFunctions]
    · rw [populated.get?_removeDeadFunctions, bound]
      by_cases emptied : Emptied before before.removeDeadFunctions id
      · simp [Option.filter, mem_emptiedFunctions, emptied]
      · simp [Option.filter, mem_emptiedFunctions, emptied]
  populated := populated.removeDeadFunctions apart

/-- Overloads before the main signature and before a called one are not called, and neither is a
whole function. -/
def crowded : Shader :=
  ({ stage := .vertex
     version := 150
     vars := ⟨[.ofType "lost" (.floatVector .two) .plain, .vector "given" .plain,
       .vector "scale" .plain, .vector "spare" .plain]⟩
     functions := ⟨[
       { name := "lonely", signatures := [.define .void [] []] },
       { name := "helper", signatures := [.define .void [0] [],
         .define .void [1] [.call ⟨1, 2⟩ [] none], .define .void [] [.copy 2 2]] },
       { name := "main", signatures := [.define .void [3] [],
         .define .void [] [.loop [.call ⟨1, 1⟩ [.ofVariable 2] none]]] }]⟩
     topLevel := [.declare 2, .function 0, .function 1, .function 2] } : Shader).populateSymbols

theorem crowded_sheds : crowded.Closed ∧ crowded.NamesApart ∧ crowded.Populated ∧
    ShedsUncalled crowded.moved crowded crowded.removeDeadFunctions ∧
    crowded.mainSignature? = some ⟨2, 1⟩ ∧
    crowded.removeDeadFunctions.mainSignature? = some ⟨2, 0⟩ ∧
    crowded.removeDeadFunctions.declaredFunctions = [1, 2] ∧
    callees crowded.removeDeadFunctions.nodes = [⟨1, 1⟩, ⟨1, 0⟩] := by
  have populated : crowded.Populated := populated_populateSymbols _
  have closed : crowded.Closed := (wellFormed_of_check (by decide +kernel) populated).closed
  have apart : crowded.NamesApart := by
    unfold NamesApart
    decide +kernel
  have sheds := closed.removeDeadFunctions_sheds apart populated
  exact ⟨closed, apart, populated, sheds, by decide +kernel, by decide +kernel, by decide +kernel,
    by decide +kernel⟩

end Shader
end StageLink
