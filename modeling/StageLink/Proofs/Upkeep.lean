import StageLink.Proofs.Allotting
import StageLink.Proofs.Assembling
import StageLink.Proofs.Delivery
import StageLink.Proofs.Uncalled

/-!
# The upkeep of symbol tables

What clones into an executable, optimizes it, sizes its arrays, assigns its locations or compacts it
keeps its symbol table by hand next to the top-level list.  If no two globals and no two declared
functions have the same name, the table stays what it would be if it were rebuilt, so a name stands
for the global that has it as long as there is one.
-/

namespace StageLink

/-! ## Indexes -/

/-- The table tells of every name which member of an arena has it. -/
structure NameTable.Indexes {Entry : Type} (table : NameTable Nat) (key : Entry → String)
    (arena : Arena Entry) (member : Nat → Prop) : Prop where
  bound : ∀ id, member id → id < arena.size
  stands : ∀ {name id},
    table.get? name = some id ↔ member id ∧ (arena.get? id).map key = some name

namespace NameTable.Indexes

variable {Entry : Type} {table : NameTable Nat} {key : Entry → String} {arena : Arena Entry}
  {member : Nat → Prop}

/-- Members of one name are the same. -/
theorem apart (indexes : table.Indexes key arena member) {one other : Nat} (one_member : member one)
    (other_member : member other) (same : (arena.get? one).map key = (arena.get? other).map key) :
    one = other := by
  obtain ⟨entry, found⟩ := Arena.exists_get? (indexes.bound one one_member)
  have named : (arena.get? one).map key = some (key entry) := by rw [found]; rfl
  have stands := indexes.stands.mpr ⟨one_member, named⟩
  exact Option.some.inj (stands.symm.trans (indexes.stands.mpr ⟨other_member, same ▸ named⟩))

/-- The table stays an index if the members keep their names. -/
theorem of_same (indexes : table.Indexes key arena member) {others : Arena Entry}
    (names : ∀ id < arena.size, (others.get? id).map key = (arena.get? id).map key) :
    table.Indexes key others member where
  bound id listed := by
    have inside := indexes.bound id listed
    have same := congrArg Option.isSome (names id inside)
    rw [Option.isSome_map, Option.isSome_map] at same
    exact (Arena.isSome_get?_iff ..).mp (same.trans ((Arena.isSome_get?_iff ..).mpr inside))
  stands {name id} :=
    indexes.stands.trans (and_congr_right fun listed => by rw [names id (indexes.bound id listed)])

theorem congr {same_member : Nat → Prop} (indexes : table.Indexes key arena member)
    (same : ∀ id, same_member id ↔ member id) : table.Indexes key arena same_member where
  bound id listed := indexes.bound id ((same id).mp listed)
  stands := indexes.stands.trans (and_congr_left fun _ => (same _).symm)

theorem push (indexes : table.Indexes key arena member) {entry : Entry}
    (unknown : table.get? (key entry) = none) :
    (table.insert (key entry) arena.size).Indexes key (arena.push entry)
      fun id => id = arena.size ∨ member id where
  bound id listed := by
    rw [Arena.size_push]
    rcases listed with rfl | old
    · exact Nat.lt_succ_self _
    · exact Nat.lt_succ_of_lt (indexes.bound id old)
  stands {name id} := by
    rw [NameTable.get?_insert, Arena.get?_push]
    constructor
    · intro stands
      split at stands
      · next here =>
          obtain rfl := Option.some.inj stands
          simp [here]
      · obtain ⟨listed, named⟩ := indexes.stands.mp stands
        exact ⟨.inr listed, by rwa [if_neg (Nat.ne_of_lt (indexes.bound id listed))]⟩
    · rintro ⟨rfl | listed, named⟩
      · rw [if_pos rfl] at named
        rw [if_pos (Option.some.inj named).symm]
      · rw [if_neg (Nat.ne_of_lt (indexes.bound id listed))] at named
        have stands := indexes.stands.mpr ⟨listed, named⟩
        rw [if_neg, stands]
        rintro rfl
        rw [unknown] at stands
        cases stands

theorem erase (indexes : table.Indexes key arena member) {name : String} {target : Nat}
    (bound : table.get? name = some target) :
    (table.erase name).Indexes key arena fun id => member id ∧ id ≠ target where
  bound id listed := indexes.bound id listed.1
  stands {other id} := by
    rw [NameTable.get?_erase]
    split
    · next here =>
        refine iff_of_false (fun absent => nomatch absent) ?_
        rintro ⟨⟨listed, differs⟩, named⟩
        exact differs
          (Option.some.inj ((indexes.stands.mpr ⟨listed, here ▸ named⟩).symm.trans bound))
    · next differs =>
        rw [indexes.stands]
        refine and_congr_left fun named => (and_iff_left ?_).symm
        rintro rfl
        exact differs (Option.some.inj (named.symm.trans (indexes.stands.mp bound).2))

end NameTable.Indexes

namespace Shader

/-! ## Tables in step -/

def GlobalsApart (shader : Shader) : Prop :=
  ∀ one ∈ shader.globals, ∀ other ∈ shader.globals,
    (shader.vars.get? one).map (·.name) = (shader.vars.get? other).map (·.name) → one = other

/-- Only declarations stand at the top level, and a name stands for the global, or the declared
function, that has it. -/
structure InStep (shader : Shader) : Prop where
  flat : shader.topLevel.Flat
  vars : shader.symbols.vars.Indexes (·.name) shader.vars (· ∈ shader.globals)
  functions : shader.symbols.functions.Indexes (·.name) shader.functions
    (· ∈ shader.declaredFunctions)

variable {shader before after : Shader}

/-- A table that has been rebuilt is in step, if names are apart. -/
theorem inStep_of_populated (flat : shader.topLevel.Flat)
    (bound : ∀ id ∈ shader.globals, id < shader.vars.size)
    (functions_bound : ∀ id ∈ shader.declaredFunctions, id < shader.functions.size)
    (globals_apart : shader.GlobalsApart) (functions_apart : shader.NamesApart)
    (populated : shader.Populated) : shader.InStep where
  flat := flat
  vars := by
    have coherent := populated.coherent bound
    refine ⟨bound, fun {name id} => ⟨fun stands => ?_, ?_⟩⟩
    · obtain ⟨global, declared, found, named⟩ := coherent.variable_of stands
      exact ⟨global, by rw [found, Option.map_some, named]⟩
    · rintro ⟨global, named⟩
      obtain ⟨declared, found, rfl⟩ := Option.map_eq_some_iff.mp named
      obtain ⟨other, stands⟩ :=
        Option.isSome_iff_exists.mp (coherent.known id global declared found)
      obtain ⟨other_global, entry, other_found, same⟩ := coherent.variable_of stands
      rw [stands, globals_apart other other_global id global (by simp [found, other_found, same])]
  functions := by
    refine ⟨functions_bound, fun {name id} => ⟨fun stands => ?_, ?_⟩⟩
    · obtain ⟨is_declared, named⟩ := populated.isNamed stands
      exact ⟨is_declared, isNamed_iff.mp named⟩
    · rintro ⟨is_declared, named⟩
      obtain ⟨function, found, rfl⟩ := Option.map_eq_some_iff.mp named
      exact populated.knows functions_apart is_declared found

namespace InStep

theorem coherent (inStep : shader.InStep) : shader.Coherent where
  bound := inStep.vars.bound
  known id global declared found := by
    rw [inStep.vars.stands.mpr ⟨global, by rw [found]; rfl⟩]
    rfl
  variable_of stands := by
    obtain ⟨global, named⟩ := inStep.vars.stands.mp stands
    exact ⟨global, Option.map_eq_some_iff.mp named⟩
  function_of stands := by
    obtain ⟨is_declared, named⟩ := inStep.functions.stands.mp stands
    exact ⟨is_declared, Option.map_eq_some_iff.mp named⟩

theorem sturdy (inStep : shader.InStep) (confined : shader.Confined) : shader.Sturdy :=
  ⟨inStep.coherent, fun id _ => confined.parameters id⟩

/-- A table in step is what it would be if it were rebuilt. -/
theorem populated (inStep : shader.InStep) : shader.Populated := by
  have rebuilt : shader.populateSymbols.InStep :=
    inStep_of_populated inStep.flat inStep.vars.bound inStep.functions.bound
      (fun _ global _ global_too => inStep.vars.apart global global_too)
      (fun _ is_declared _ is_declared_too => inStep.functions.apart is_declared is_declared_too)
      (populated_populateSymbols shader)
  exact ⟨fun name => Option.ext fun id => inStep.vars.stands.trans rebuilt.vars.stands.symm,
    fun name => Option.ext fun id => inStep.functions.stands.trans rebuilt.functions.stands.symm⟩

theorem findVariable?_eq (inStep : shader.InStep) (name : String) :
    shader.findVariable? name = shader.declaredVariables.find? (·.name = name) := by
  cases found : shader.declaredVariables.find? (·.name = name) with
  | some declared =>
      obtain ⟨id, global, there⟩ := mem_declaredVariables.mp (List.mem_of_find?_eq_some found)
      have named : declared.name = name := by simpa using List.find?_some found
      have stands := inStep.vars.stands.mpr ⟨global, by rw [there, Option.map_some, named]⟩
      rw [findVariable?, stands, Option.bind_some, there]
  | none =>
      rw [findVariable?, Option.bind_eq_none_iff]
      intro id stands
      obtain ⟨global, named⟩ := inStep.vars.stands.mp stands
      obtain ⟨declared, there, same⟩ := Option.map_eq_some_iff.mp named
      have listed := mem_declaredVariables.mpr ⟨id, global, there⟩
      exact absurd same (by simpa using List.find?_eq_none.mp found declared listed)

/-! ## Changes that leave the declarations -/

/-- The table stays in step with the same declarations, if nothing declared changes its name. -/
theorem of_same (inStep : before.InStep) (flat : after.topLevel.Flat)
    (globals : after.globals = before.globals)
    (declared : after.declaredFunctions = before.declaredFunctions)
    (symbols : after.symbols = before.symbols)
    (names : ∀ id < before.vars.size,
      (after.vars.get? id).map (·.name) = (before.vars.get? id).map (·.name))
    (function_names : ∀ id < before.functions.size,
      (after.functions.get? id).map (·.name) = (before.functions.get? id).map (·.name)) :
    after.InStep where
  flat := flat
  vars := by
    rw [symbols, globals]
    exact inStep.vars.of_same names
  functions := by
    rw [symbols, declared]
    exact inStep.functions.of_same function_names

/-- So it does if variables are revised and keep their names. -/
theorem revised {relation : Variable → Variable → Prop} (inStep : before.InStep)
    (keeps_names : ∀ one other, relation one other → other.name = one.name)
    (revised : Revised relation before after) : after.InStep := by
  have same := revised.same
  have names : ∀ id < before.vars.size,
      (after.vars.get? id).map (·.name) = (before.vars.get? id).map (·.name) := by
    intro id inside
    obtain ⟨declared, was⟩ := Arena.exists_get? inside
    obtain ⟨later, now, related⟩ := revised.related was
    rw [now, was, Option.map_some, Option.map_some, keeps_names declared later related]
  generalize after.vars = vars at same names
  subst same
  exact inStep.of_same inStep.flat rfl rfl rfl names fun _ _ => rfl

/-- So it does if bodies are changed one by one, and the top-level list stays as it is. -/
theorem mapBodies {step : Block → Checked Block} (inStep : before.InStep)
    (same : ∀ changed, step before.topLevel = .ok changed → changed = before.topLevel)
    (runs : before.mapBodies step = .ok after) : after.InStep := by
  obtain ⟨unchanged, top, -⟩ := mapBodies_eq_ok runs
  have top := same _ top
  have function_names : ∀ id < before.functions.size,
      (after.functions.get? id).map (·.name) = (before.functions.get? id).map (·.name) :=
    fun id _ => Shader.names_of_mapBodies runs id
  generalize after.topLevel = topLevel at unchanged top
  generalize after.functions = functions at unchanged function_names
  subst top unchanged
  exact inStep.of_same inStep.flat rfl rfl rfl (fun _ _ => rfl) function_names

/-- So it does if the types on element places follow those of the variables. -/
theorem retyped (inStep : before.InStep) (runs : ArraySize.retypeElements before = .ok after) :
    after.InStep :=
  inStep.mapBodies (fun _ top => eq_of_alike_flat (retypeBlock_alike top) inStep.flat) runs

theorem modifySignature (inStep : shader.InStep) (target : Callee)
    (change : Signature → Signature) :
    (shader.modifySignature target change).InStep := by
  refine inStep.of_same inStep.flat rfl rfl rfl (fun _ _ => rfl) fun id _ => ?_
  rw [Shader.modifySignature, Arena.get?_modify]
  cases shader.functions.get? id with
  | none => rfl
  | some function =>
      simp only [Option.map_some]
      split <;> rfl

/-! ## Cloning -/

/-- A new global is what its name stands for. -/
theorem declareFirst (inStep : shader.InStep) {declared : Variable}
    (unknown : shader.symbols.vars.get? declared.name = none) :
    (shader.declareFirst declared).InStep where
  flat instruction listed := by
    rcases List.mem_cons.mp listed with rfl | old
    · rfl
    · exact inStep.flat instruction old
  vars := (inStep.vars.push unknown).congr fun _ => List.mem_cons
  functions := inStep.functions

theorem declareFunction (inStep : shader.InStep) {name : String}
    (unknown : shader.symbols.functions.get? name = none) :
    (shader.declareFunction name).1.InStep := by
  rw [Shader.declareFunction, unknown]
  refine ⟨?_, ?_, ?_⟩
  · intro instruction listed
    rcases List.mem_append.mp listed with old | new
    · exact inStep.flat instruction old
    · rw [List.mem_singleton.mp new]
      rfl
  · exact inStep.vars.congr fun id => by simp [mem_globals]
  · have bound := @NameTable.Indexes.push _ _ _ _ _ inStep.functions { name := name } unknown
    exact bound.congr fun id => by simp [mem_declaredFunctions, or_comm]

theorem growth {source : Shader} {free : VariableId → Prop} (inStep : before.InStep)
    (growth : Growth source free before after) : after.InStep := by
  cases growth with
  | copy _ =>
      exact inStep.of_same inStep.flat rfl rfl rfl
        (fun id inside => by rw [addVariable, Arena.get?_push_of_lt _ _ inside]) fun _ _ => rfl
  | global _ _ unknown => exact inStep.declareFirst unknown
  | function unknown => exact inStep.declareFunction unknown
  | @announce id function signature parameters lacks =>
      refine inStep.of_same inStep.flat rfl rfl rfl (fun other inside => ?_) fun other _ => ?_
      · rw [announce, Arena.get?_append_of_lt _ _ inside]
      · rw [announce, Arena.get?_modify]
        cases was : before.functions.get? other with
        | none => rfl
        | some entry =>
            simp only [Option.map_some]
            split
            · next here =>
                subst here
                obtain rfl := Option.some.inj (lacks.found.symm.trans was)
                rfl
            · rfl

theorem grows {source : Shader} {free : VariableId → Prop} (inStep : before.InStep)
    (grows : Grows source free before after) : after.InStep := by
  induction grows with
  | refl => exact inStep
  | tail _ growth ih => exact ih.growth growth

/-! ## Passes -/

theorem foldConstants (inStep : shader.InStep) : shader.foldConstants.InStep := by
  have same : Block.fold shader.topLevel = shader.topLevel := Block.fold_flat inStep.flat
  rw [Shader.foldConstants, updateBodies, same]
  refine inStep.of_same inStep.flat rfl rfl rfl (fun _ _ => rfl) fun id _ => ?_
  rw [Arena.get?_map, Option.map_map]
  rfl

end InStep

/-- Unbinding the names of some variables leaves an index of the others. -/
theorem indexes_unbindVariables (ids : List VariableId) :
    ∀ {symbols : SymbolTable} {member : Nat → Prop},
      symbols.vars.Indexes (·.name) shader.vars member →
      (shader.unbindVariables symbols ids).vars.Indexes (·.name) shader.vars
        fun id => member id ∧ id ∉ ids := by
  induction ids with
  | nil => exact fun indexes => indexes.congr (by simp)
  | cons first ids ih =>
      intro symbols member indexes
      have without : ∀ kept : Nat → Prop, (∀ id, kept id ↔ member id ∧ id ≠ first) →
          ∀ id, member id ∧ id ∉ first :: ids ↔ kept id ∧ id ∉ ids := by
        intro kept same id
        rw [same, List.mem_cons, not_or, and_assoc]
      rw [unbindVariables]
      split
      · next declared found =>
          split
          · next bound => exact (ih (indexes.erase bound)).congr (without _ fun _ => Iff.rfl)
          · next unbound =>
              refine (ih indexes).congr (without _ fun id => (and_iff_left_of_imp ?_).symm)
              rintro listed rfl
              exact unbound (indexes.stands.mpr ⟨listed, by rw [found]; rfl⟩)
      · next missing =>
          refine (ih indexes).congr (without _ fun id => (and_iff_left_of_imp ?_).symm)
          rintro listed rfl
          exact absurd (indexes.bound _ listed)
            (Nat.not_lt.mpr ((Arena.get?_eq_none_iff ..).mp missing))

namespace InStep

theorem removeDeadCode (inStep : shader.InStep) (keepUniforms : Bool) :
    (shader.removeDeadCode keepUniforms).InStep := by
  have recast := recast_removeDeadCode keepUniforms inStep.flat
  have top : (shader.removeDeadCode keepUniforms).topLevel = shader.topLevel.filter
      (survives shader.deadTargets (shader.deadDeclarations keepUniforms)) :=
    Block.updateBlocks_flat _ inStep.flat
  refine ⟨recast.flat, ?_, ?_⟩
  · refine (indexes_unbindVariables _ inStep.vars).congr fun id => ?_
    rw [mem_globals, top, List.mem_filter, ← mem_globals]
    simp [survives]
  · rw [recast.bound, recast.declared]
    refine inStep.functions.of_same fun id _ => ?_
    rw [Shader.removeDeadCode, updateBodies, Arena.get?_map, Option.map_map]
    rfl

theorem removeDeadFunctions (inStep : shader.InStep) : shader.removeDeadFunctions.InStep := by
  refine ⟨(thinned_removeDeadFunctions inStep.flat).flat inStep.flat, ?_, ?_⟩
  · rw [vars_removeDeadFunctions, globals_removeDeadFunctions]
    exact inStep.vars
  · have names : ∀ id, (shader.removeDeadFunctions.functions.get? id).map (·.name) =
        (shader.functions.get? id).map (·.name) := by
      intro id
      rw [function_removeDeadFunctions, Option.map_map]
      rfl
    refine ⟨fun id is_declared => ?_, fun {name id} => ?_⟩
    · rw [declaredFunctions_removeDeadFunctions] at is_declared
      rw [reworks_removeDeadFunctions.functions]
      exact inStep.functions.bound id (List.mem_filter.mp is_declared).1
    · rw [inStep.populated.get?_removeDeadFunctions, Option.filter_eq_some_iff,
        inStep.functions.stands, declaredFunctions_removeDeadFunctions, List.mem_filter, names,
        and_right_comm]

theorem pass (inStep : shader.InStep) (pass : Pass) : (pass.run shader).InStep := by
  cases pass with
  | foldConstants => exact inStep.foldConstants
  | removeDeadCode keepUniforms => exact inStep.removeDeadCode keepUniforms
  | removeDeadFunctions => exact inStep.removeDeadFunctions
  | inspect => exact inStep

/-! ## Compaction -/

/-- Compaction rebuilds the table, and what is declared keeps its name. -/
theorem compacted (inStep : before.InStep) (compacted : Compacted before after) : after.InStep := by
  have origin : ∀ other ∈ after.globals, ∃ id ∈ before.globals,
      before.compaction.mentions id other ∧ after.vars.get? other = before.vars.get? id := by
    intro other global
    obtain ⟨id, was_global, moves⟩ := exists_of_forall₂ (globals_alike compacted.topLevel) global
    exact ⟨id, was_global, moves, compacted.get? (isLive_of_global was_global) moves⟩
  have function_origin : ∀ other ∈ after.declaredFunctions, ∃ id ∈ before.declaredFunctions,
      before.compaction.functions id other ∧
        ∃ moved, after.functions.get? other = some moved ∧
          (before.functions.get? id).map (·.name) = some moved.name := by
    intro other is_declared
    obtain ⟨id, was_declared, moves⟩ := exists_of_forall₂ compacted.declaredFunctions is_declared
    obtain ⟨function, moved, was, now, related⟩ := compacted.function_of was_declared moves
    exact ⟨id, was_declared, moves, moved, now, by rw [was, Option.map_some, related.name]⟩
  have populated : after.Populated := by
    obtain ⟨renumbered, rfl⟩ := compacted.rebuilt
    exact populated_populateSymbols renumbered
  refine inStep_of_populated (flat_alike compacted.topLevel inStep.flat) ?_ ?_ ?_ ?_ populated
  · intro other global
    obtain ⟨id, was_global, -, same⟩ := origin other global
    rw [← Arena.isSome_get?_iff, same, Arena.isSome_get?_iff]
    exact inStep.vars.bound id was_global
  · intro other is_declared
    obtain ⟨-, -, -, moved, now, -⟩ := function_origin other is_declared
    exact Arena.lt_of_get? now
  · intro one global other global_too same
    obtain ⟨id, was_global, moves, found⟩ := origin one global
    obtain ⟨id_too, was_global_too, moves_too, found_too⟩ := origin other global_too
    rw [found, found_too] at same
    obtain rfl := inStep.vars.apart was_global was_global_too same
    exact compaction_functional moves moves_too
  · intro one is_declared other is_declared_too same
    obtain ⟨id, was_declared, moves, moved, now, named⟩ := function_origin one is_declared
    obtain ⟨id_too, was_declared_too, moves_too, moved_too, now_too, named_too⟩ :=
      function_origin other is_declared_too
    rw [now, now_too] at same
    obtain rfl := inStep.functions.apart was_declared was_declared_too
      (named.trans (same.trans named_too.symm))
    exact Except.ok.inj (moves.symm.trans moves_too)

end InStep

/-! ## Growing without faults -/

/-- The handles of what a shader gains by growing point somewhere. -/
theorem Confined.growth {source : Shader} {free : VariableId → Prop} (confined : before.Confined)
    (growth : Growth source free before after) : after.Confined := by
  have contains := Grows.contains (Relation.ReflTransGen.single growth)
  refine ⟨fun body listed => ?_, fun id signature listed parameter inside => ?_⟩
  · rcases mem_bodies.mp listed with rfl | ⟨id, signature, inside, rfl⟩
    · have old := confined.topLevel.mono contains.vars contains.functions
      cases growth with
      | copy _ => exact old
      | @global _ declared _ _ _ =>
          have new : (before.declareFirst declared).Encloses [.declare before.vars.size] :=
            .declare (by simp [declareFirst])
          exact new.within.append old
      | @function name unknown =>
          have new : (before.declareFunction name).1.Encloses [.function before.functions.size] :=
            .function (by simp [declareFunction, unknown])
          simp only [declareFunction, unknown] at old new ⊢
          exact old.append new.within
      | announce _ => exact old
    · rcases growth.signature_origin inside with old | announced
      · exact (confined.body old).mono contains.vars contains.functions
      · rw [announced.body]
        exact Block.within_nil
  · rcases growth.signature_origin listed with old | announced
    · exact Nat.lt_of_lt_of_le (confined.parameters id signature old parameter inside) contains.vars
    · exact (announced.parameters parameter inside).2

theorem Confined.grows {source : Shader} {free : VariableId → Prop} (confined : before.Confined)
    (grows : Grows source free before after) : after.Confined := by
  induction grows with
  | refl => exact confined
  | tail _ growth ih => exact ih.growth growth

/-- A signature may get any body whose handles point somewhere. -/
theorem Confined.define {target : Callee} {body : Block} (confined : shader.Confined)
    (within : Block.Within shader.vars.size shader.functions.size body) :
    (shader.modifySignature target fun signature =>
      { signature with body := body, isDefined := true }).Confined := by
  refine ⟨fun other listed => ?_, fun id signature listed parameter inside => ?_⟩
  · refine Block.Within.mono ?_ contains_modifySignature.vars contains_modifySignature.functions
    rcases mem_bodies.mp listed with rfl | ⟨id, signature, inside, rfl⟩
    · exact confined.topLevel
    · obtain ⟨old, was, rfl | ⟨-, rfl⟩⟩ := exists_of_modifySignature inside
      · exact confined.body was
      · exact within
  · obtain ⟨old, was, rfl | ⟨-, rfl⟩⟩ := exists_of_modifySignature listed
    · exact confined.parameters id signature was parameter inside
    · exact confined.parameters id old was parameter inside

end Shader

/-! ## Operations -/

/-- What is done to an executable while a program is linked. -/
inductive Upkeep where
  /-- Copy a local variable of a source, some of whose variables have been given counterparts. -/
  | cloneLocal (source : Shader) (renamed : List (VariableId × VariableId)) (id : VariableId)
  /-- Find or announce the signature that a callee of a source stands for. -/
  | cloneCallee (source : Shader) (renamed : List (VariableId × VariableId)) (callee : Callee)
  /-- Rebuild an instruction list of a source. -/
  | cloneBlock (source : Shader) (renamed : List (VariableId × VariableId)) (block : Block)
  /-- Give a signature a body, such as one that has been cloned. -/
  | define (target : Callee) (body : Block)
  | run (pass : Pass)
  /-- Let the globals take over what has been resolved for their names. -/
  | adopt (resolutions : Resolutions)
  | sizeArrays
  | fitInputs (vertices : Nat)
  | resizeUniforms (highest : String → Nat)
  | invalidate
  | allocateAttributes (target : AttributeTarget) (limit : Nat) (bindings : Bindings)
  /-- Allocate the boundary behind the executable. -/
  | allocateOutputs (captured : List String) (limit : Nat) (consumer : Option Shader)
  /-- Allocate the boundary before the executable. -/
  | allocateInputs (captured : List String) (limit : Nat) (producer : Shader)
  | demote (mode : VariableMode)
  | compact

namespace Upkeep

open Shader

/-- Carry out an operation.  An allocation that fails leaves what it has done so far. -/
def perform : Upkeep → Shader → Checked Shader
  | cloneLocal source renamed id, shader =>
      return (← (CloneM.localVariable source id).runOn shader renamed).2
  | cloneCallee source renamed callee, shader =>
      return (← (CloneM.calleeFor source callee).runOn shader renamed).2
  | cloneBlock source renamed block, shader =>
      return (← (CloneM.block source block).runOn shader renamed).2
  | define target body, shader =>
      return shader.modifySignature target fun signature =>
        { signature with body := body, isDefined := true }
  | run pass, shader => return pass.run shader
  | adopt resolutions, shader => shader.adoptResolutions resolutions
  | sizeArrays, shader => ArraySize.sizeArrays shader
  | fitInputs vertices, shader => return (← ArraySize.fitGeometryInputs vertices shader).1
  | resizeUniforms highest, shader => Uniform.resizeArrays highest shader
  | invalidate, shader => shader.modifyGlobals Varying.invalidate
  | allocateAttributes target limit bindings, shader =>
      return (← Attribute.allocate target limit bindings shader).1
  | allocateOutputs captured limit consumer, shader =>
      return (← Varying.allocate captured limit shader consumer).1.producer
  | allocateInputs captured limit producer, shader =>
      return (← Varying.allocate captured limit producer (some shader)).1.consumer.getD shader
  | demote mode, shader => shader.modifyGlobals (Varying.demote mode)
  | compact, shader => shader.compact

variable {before after shader : Shader} {upkeep : Upkeep}

theorem grows_of_runOn {Result : Type} {source extended : Shader} {step : CloneM Result}
    {renamed : List (VariableId × VariableId)} {result : Result}
    (grows : ∀ after, step.run ⟨shader, renamed⟩ = .ok (result, after) →
      Grows source (fun _ => True) shader after.target)
    (runs : step.runOn shader renamed = .ok (result, extended)) :
    Grows source (fun _ => True) shader extended := by
  obtain ⟨⟨_, after⟩, steps, equal⟩ := Checked.bind_eq_ok.mp runs
  obtain ⟨rfl, rfl⟩ := Prod.mk.inj (Checked.pure_eq_ok.mp equal)
  exact grows after steps

theorem inStep_modifyGlobals {change : Variable → Variable} (inStep : before.InStep)
    (keeps_name : ∀ declared, (change declared).name = declared.name)
    (runs : before.modifyGlobals change = .ok after) : after.InStep := by
  have revised : Revised (fun one other => other.name = one.name) before after :=
    revised_modifyVariables (fun _ => rfl)
      (fun _ _ _ first second => second.trans first) keeps_name runs
  exact inStep.revised (fun _ _ same => same) revised

/-- Every operation keeps the table in step. -/
theorem inStep (inStep : before.InStep) (runs : upkeep.perform before = .ok after) :
    after.InStep := by
  have moved : ∀ {result}, Revised Variable.Moved before result → result.InStep :=
    fun revised => inStep.revised (fun _ _ related => related.same.name) revised
  cases upkeep with
  | cloneLocal source renamed id =>
      obtain ⟨⟨copy, extended⟩, clones, equal⟩ := Checked.bind_eq_ok.mp runs
      obtain rfl := Checked.pure_eq_ok.mp equal
      exact inStep.grows (grows_of_runOn
        (fun _ steps => (CloneM.localVariable_eq_ok inStep.coherent steps).1.grows) clones)
  | cloneCallee source renamed callee =>
      obtain ⟨⟨counterpart, extended⟩, clones, equal⟩ := Checked.bind_eq_ok.mp runs
      obtain rfl := Checked.pure_eq_ok.mp equal
      exact inStep.grows (grows_of_runOn
        (fun _ steps => (CloneM.calleeFor_eq_ok inStep.coherent steps).1.grows) clones)
  | cloneBlock source renamed block =>
      obtain ⟨⟨_, extended⟩, clones, equal⟩ := Checked.bind_eq_ok.mp runs
      obtain rfl := Checked.pure_eq_ok.mp equal
      exact inStep.grows (CloneM.grows_of_block inStep.coherent clones)
  | define target body =>
      obtain rfl := Checked.pure_eq_ok.mp runs
      exact inStep.modifySignature _ _
  | run pass =>
      obtain rfl := Checked.pure_eq_ok.mp runs
      exact inStep.pass pass
  | adopt resolutions =>
      refine inStep_modifyGlobals inStep (fun declared => ?_) runs
      split
      · exact Declaration.adopt_name _ declared
      · rfl
  | sizeArrays =>
      exact inStep.revised (fun _ _ related => related.name) (Merge.sizeArrays_revised .refl .trans
        (Merge.sizedVariable_standsFor inherited_trivial) (fun _ _ => ⟨rfl, rfl, id⟩) runs)
  | fitInputs vertices =>
      obtain ⟨⟨_, causes⟩, fits, equal⟩ := Checked.bind_eq_ok.mp runs
      obtain rfl := Checked.pure_eq_ok.mp equal
      obtain ⟨⟨sized, _⟩, fits_inputs, following⟩ := Checked.bind_eq_ok.mp fits
      obtain ⟨fitted, retypes, equal⟩ := Checked.bind_eq_ok.mp following
      obtain ⟨rfl, -⟩ := Prod.mk.inj (Checked.pure_eq_ok.mp equal)
      have sized_inStep := inStep.revised (fun _ _ related => related.name)
        (Merge.fitInputs_revised .refl .trans
          (fun _ _ => Merge.fitInput_standsFor inherited_trivial) fits_inputs)
      exact sized_inStep.retyped retypes
  | resizeUniforms highest =>
      obtain ⟨changed, resized, -, retypes⟩ := resizeArrays_eq_ok runs
      have changed_inStep := inStep.revised (fun one other related => by
        rcases related with rfl | ⟨-, rfl⟩ <;> rfl) resized
      rcases retypes with rfl | retypes
      · exact changed_inStep
      · exact changed_inStep.retyped retypes
  | invalidate =>
      exact inStep_modifyGlobals inStep
        (fun declared => (Variable.SameButPlace.invalidate declared).name)
        runs
  | allocateAttributes target limit bindings =>
      obtain ⟨⟨_, failure⟩, allocates, equal⟩ := Checked.bind_eq_ok.mp runs
      obtain rfl := Checked.pure_eq_ok.mp equal
      exact moved (Attribute.allocate_moved allocates)
  | allocateOutputs captured limit consumer =>
      obtain ⟨⟨_, failure⟩, allocates, equal⟩ := Checked.bind_eq_ok.mp runs
      obtain rfl := Checked.pure_eq_ok.mp equal
      exact moved (Varying.allocate_moves allocates).1
  | allocateInputs captured limit producer =>
      obtain ⟨⟨allocation, failure⟩, allocates, equal⟩ := Checked.bind_eq_ok.mp runs
      obtain rfl := Checked.pure_eq_ok.mp equal
      obtain ⟨consumer, is_consumer, related⟩ := exists_of_rel (Varying.allocate_moves allocates).2
      rw [is_consumer]
      exact moved related
  | demote mode =>
      refine inStep_modifyGlobals inStep (fun declared => ?_) runs
      unfold Varying.demote
      split <;> rfl
  | compact => exact inStep.compacted (compact_eq_ok runs)

/-- The handles that an operation brings along point somewhere. -/
def Ready (shader : Shader) : Upkeep → Prop
  | cloneLocal source _ id => id < source.vars.size
  | cloneCallee source _ callee => source.Enclosed ∧ source.HasSignature callee
  | cloneBlock source _ block => source.Enclosed ∧ source.Encloses block
  | define _ body => Block.Within shader.vars.size shader.functions.size body
  | allocateOutputs _ _ consumer => ∀ other ∈ consumer, other.Confined
  | allocateInputs _ _ producer => producer.Confined
  | _ => True

theorem exists_runOn {Result : Type} {source : Shader} {step : CloneM Result}
    {post : Result → Prop} (sure : (CloneM.sure source).ensures step post) (inStep : shader.InStep)
    (confined : shader.Confined) (renamed : List (VariableId × VariableId)) :
    ∃ result extended, step.runOn shader renamed = .ok (result, extended) ∧ extended.Confined := by
  obtain ⟨result, after, runs, grows, -⟩ := sure ⟨shader, renamed⟩ (inStep.sturdy confined)
  refine ⟨result, after.target, ?_, confined.grows grows⟩
  rw [CloneM.runOn, runs]
  rfl

/-- Every operation gives a result if no handle points nowhere, and but for compaction no handle of
the result does. -/
theorem exists_perform (inStep : shader.InStep) (confined : shader.Confined)
    (ready : upkeep.Ready shader) :
    ∃ after, upkeep.perform shader = .ok after ∧ (upkeep = .compact ∨ after.Confined) := by
  cases upkeep with
  | cloneLocal source renamed id =>
      obtain ⟨copy, extended, runs, still⟩ :=
        exists_runOn (CloneM.sure_localVariable ready) inStep confined renamed
      exact ⟨extended, Checked.bind_eq_ok.mpr ⟨_, runs, rfl⟩, .inr still⟩
  | cloneCallee source renamed callee =>
      obtain ⟨name, types, has⟩ := ready.1.exists_hasKey ready.2
      obtain ⟨counterpart, extended, runs, still⟩ :=
        exists_runOn (CloneM.sure_calleeFor has) inStep confined renamed
      exact ⟨extended, Checked.bind_eq_ok.mpr ⟨_, runs, rfl⟩, .inr still⟩
  | cloneBlock source renamed block =>
      obtain ⟨clone, extended, runs⟩ := CloneM.exists_block renamed (inStep.sturdy confined)
        (ready.1.provides ready.2)
      exact ⟨extended, Checked.bind_eq_ok.mpr ⟨_, runs, rfl⟩,
        .inr (confined.grows (CloneM.grows_of_block inStep.coherent runs))⟩
  | define target body => exact ⟨_, rfl, .inr (confined.define ready)⟩
  | run pass => exact ⟨_, rfl, .inr (confined.run pass)⟩
  | adopt resolutions =>
      exact (confined.exists_modifyGlobals _).imp fun changed made => ⟨made.1, .inr made.2⟩
  | sizeArrays =>
      obtain ⟨sized, runs, revised⟩ := ArraySize.exists_sized confined
      exact ⟨sized, runs, .inr (confined.revised revised)⟩
  | fitInputs vertices =>
      obtain ⟨sized, fitted, causes, runs, revised, retypes⟩ :=
        ArraySize.exists_fitted confined vertices
      exact ⟨fitted, Checked.bind_eq_ok.mpr ⟨_, runs, rfl⟩,
        .inr ((confined.revised revised).retyped retypes)⟩
  | resizeUniforms highest =>
      obtain ⟨resized, runs, still⟩ := Uniform.exists_resizeArrays highest confined
      exact ⟨resized, runs, .inr still⟩
  | invalidate =>
      obtain ⟨changed, runs, still⟩ := confined.exists_modifyGlobals Varying.invalidate
      exact ⟨changed, runs, .inr still⟩
  | allocateAttributes target limit bindings =>
      obtain ⟨allocated, failure, runs, still⟩ := Attribute.exists_allocate confined
      exact ⟨allocated, Checked.bind_eq_ok.mpr ⟨_, runs, rfl⟩, .inr still⟩
  | allocateOutputs captured limit consumer =>
      obtain ⟨allocation, failure, runs, still, -⟩ := Varying.exists_allocate confined ready
      exact ⟨allocation.producer, Checked.bind_eq_ok.mpr ⟨_, runs, rfl⟩, .inr still⟩
  | allocateInputs captured limit producer =>
      obtain ⟨allocation, failure, runs, -, still⟩ :=
        Varying.exists_allocate (show producer.Confined from ready) fun other same => by
          obtain rfl := Option.some.inj same
          exact confined
      refine ⟨allocation.consumer.getD shader, Checked.bind_eq_ok.mpr ⟨_, runs, rfl⟩, .inr ?_⟩
      cases present : allocation.consumer with
      | none => exact confined
      | some other => exact still other present
  | demote mode =>
      obtain ⟨changed, runs, still⟩ := confined.exists_modifyGlobals (Varying.demote mode)
      exact ⟨changed, runs, .inr still⟩
  | compact => exact ⟨_, confined.bounded.compact_eq, .inl rfl⟩

/-! ## Sequences -/

/-- Carry out some operations one after the other. -/
def performAll (upkeeps : List Upkeep) (shader : Shader) : Checked Shader :=
  upkeeps.foldlM (fun shader upkeep => upkeep.perform shader) shader

theorem inStep_performAll {upkeeps : List Upkeep} : ∀ {before : Shader}, before.InStep →
    performAll upkeeps before = .ok after → after.InStep := by
  induction upkeeps with
  | nil =>
      intro before inStep runs
      obtain rfl := Checked.pure_eq_ok.mp runs
      exact inStep
  | cons upkeep upkeeps ih =>
      intro before inStep runs
      obtain ⟨halfway, performs, following⟩ := Checked.bind_eq_ok.mp runs
      exact ih (upkeep.inStep inStep performs) following

/-- After any operations on a shader whose names are apart and whose symbol table is up to date, it
is up to date again: every name finds the declared variable that has it, if there is one.  From
there on every operation gives a result if no handle points nowhere, and but for compaction none
does afterwards. -/
theorem performAll_keeps_names {start : Shader} (flat : start.topLevel.Flat)
    (confined : start.Confined) (globals_apart : start.GlobalsApart)
    (functions_apart : start.NamesApart) (populated : start.Populated) (upkeeps : List Upkeep)
    (after : Shader) (runs : performAll upkeeps start = .ok after) :
    after.Populated ∧
    (∀ name, after.findVariable? name = after.declaredVariables.find? (·.name = name)) ∧
    (after.Confined → ∀ upkeep : Upkeep, upkeep.Ready after →
      ∃ next, upkeep.perform after = .ok next ∧ (upkeep = .compact ∨ next.Confined)) := by
  have begins : start.InStep := inStep_of_populated flat confined.globals confined.declaredFunctions
    globals_apart functions_apart populated
  have inStep := inStep_performAll begins runs
  exact ⟨inStep.populated, inStep.findVariable?_eq,
    fun still _ ready => exists_perform inStep still ready⟩

/-! ## A light that takes the place of a tint -/

/-- A fragment stage that stores a tint which nothing reads, beside a function which nothing
calls. -/
def tinted : Shader :=
  .ofParts .fragment [.vector "shade" .shaderOut, .vector "tint" .plain]
    [{ name := "main", signatures := [.define .void [] [.assign (.whole 1) (.ofVariable 0) none]] },
      { name := "spare", signatures := [.define .void [] []] }]

/-- A stage that stores a light in what it shades. -/
def lit : Shader :=
  .ofParts .fragment [.vector "light" .uniform, .vector "shade" .shaderOut]
    [{ name := "main", signatures := [.define .void [] [.assign (.whole 1) (.ofVariable 0) none]] }]

/-- The first stage gets a clone of what the second does, and what has become dead is removed. -/
def relighting : List Upkeep :=
  [.cloneBlock lit [] [.assign (.whole 1) (.ofVariable 0) none],
    .define ⟨0, 0⟩ [.assign (.whole 0) (.ofVariable 2) none],
    .run (.removeDeadCode false), .run .removeDeadFunctions, .invalidate, .compact]

/-- Then exactly the light and what is shaded can be found. -/
theorem relighting_keeps_names :
    ∃ after, performAll relighting tinted = .ok after ∧ after.Populated ∧
    ∀ name, (after.findVariable? name).isSome = true ↔ name = "light" ∨ name = "shade" := by
  have gives : (performAll relighting tinted).givesTo (fun after =>
      decide (after.declaredVariables.map (·.name) = ["light", "shade"])) = true := by
    decide +kernel
  obtain ⟨after, runs, passes⟩ := Checked.exists_of_givesTo gives
  have populated : tinted.Populated := populated_populateSymbols _
  have flat : tinted.topLevel.Flat := by
    unfold Block.Flat
    decide
  have apart : tinted.GlobalsApart ∧ tinted.NamesApart := by
    unfold GlobalsApart NamesApart
    decide
  obtain ⟨still, finds, -⟩ := performAll_keeps_names flat (by decide +kernel) apart.1
    apart.2 populated relighting after runs
  refine ⟨after, runs, still, fun name => ?_⟩
  have listed : name ∈ after.declaredVariables.map (·.name) ↔ name = "light" ∨ name = "shade" := by
    rw [of_decide_eq_true passes, List.mem_pair]
  rw [finds, List.find?_isSome, ← listed, List.mem_map]
  simp only [decide_eq_true_eq]

end Upkeep
end StageLink
