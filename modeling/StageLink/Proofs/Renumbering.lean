import StageLink.Proofs.Compactness
import StageLink.Proofs.Faultless
import StageLink.Proofs.Relabeling

/-!
# Renumbering

Where every handle has a row in its table, compaction gives a result, and the result can be written
down: the arenas keep some of their entries, and all instruction lists are relabeled by the tables.
What is kept is where its handle has been moved, and different variables stay different.
-/

namespace StageLink

/-! ## Operations that give a result -/

namespace Checked

variable {Item Result : Type}

def giving : Ensuring Checked where
  ensures operation post := ∃ result, operation = .ok result ∧ post result
  pure holds := ⟨_, rfl, holds⟩
  bind := by
    rintro _ _ first next middle post ⟨part, runs, holds⟩ next_gives
    obtain ⟨result, runs_on, implies⟩ := next_gives part
    exact ⟨result, bind_eq_ok.mpr ⟨part, runs, runs_on⟩, implies holds⟩
  weaken := by
    rintro _ _ _ _ implies ⟨result, runs, holds⟩
    exact ⟨result, runs, implies result holds⟩

theorem eq_ok_of_giving {operation : Checked Result} {expected : Result}
    (gives : giving.ensures operation (· = expected)) : operation = .ok expected := by
  obtain ⟨result, runs, rfl⟩ := gives
  exact runs

theorem mapM_eq_map {step : Item → Checked Result} {change : Item → Result} {items : List Item}
    (each : ∀ item ∈ items, step item = .ok (change item)) :
    items.mapM step = .ok (items.map change) := by
  rw [mapM_eq_ok, List.forall₂_map_right_iff, List.forall₂_same]
  exact each

theorem exists_mapM {step : Item → Checked Result} {items : List Item}
    (each : ∀ item ∈ items, ∃ result, step item = .ok result) :
    ∃ results, items.mapM step = .ok results := by
  induction items with
  | nil => exact ⟨[], rfl⟩
  | cons item items ih =>
      obtain ⟨first, gives⟩ := each item (List.mem_cons_self ..)
      obtain ⟨rest, gives_rest⟩ := ih fun other listed => each other (List.mem_cons_of_mem _ listed)
      exact ⟨first :: rest, mapM_eq_ok.mpr (.cons gives (mapM_eq_ok.mp gives_rest))⟩

end Checked

/-! ## Tables -/

namespace Arena

variable {Entry : Type} {arena : Arena Entry} {keep : Nat → Bool}

/-- Where a table sends a position.  A position without a row of its own stays. -/
def movedBy (table : List (Option Nat)) (position : Nat) : Nat :=
  (table[position]?.getD none).getD position

theorem movedBy_of_row {table : List (Option Nat)} {position target : Nat}
    (row : table[position]? = some (some target)) : movedBy table position = target := by
  rw [movedBy, row]
  rfl

/-- What is kept is where its position has been moved. -/
theorem get?_movedBy {position : Nat} (inside : position < arena.size)
    (keeps : keep position = true) :
    (arena.compact keep).1.get? (movedBy (arena.compact keep).2 position) =
    arena.get? position := by
  obtain ⟨entry, found⟩ := exists_get? inside
  obtain ⟨target, row, there⟩ := compact_moved found keeps
  rw [movedBy_of_row row, there, found]

theorem movedBy_injective {one other : Nat} (inside : one < arena.size)
    (other_inside : other < arena.size) (keeps : keep one = true) (keeps_other : keep other = true)
    (same : movedBy (arena.compact keep).2 one = movedBy (arena.compact keep).2 other) :
    one = other := by
  obtain ⟨entry, found⟩ := exists_get? inside
  obtain ⟨other_entry, found_other⟩ := exists_get? other_inside
  obtain ⟨target, row, -⟩ := compact_moved found keeps
  obtain ⟨other_target, row_other, -⟩ := compact_moved found_other keeps_other
  rw [movedBy_of_row row, movedBy_of_row row_other] at same
  exact compact_injective row (same ▸ row_other)

theorem compactFrom_entries (keep : Nat → Bool) (entries : List Entry) (position kept : Nat) :
    (compactFrom keep position kept entries).1 =
      ((entries.zipIdx position).filter fun pair => keep pair.2).map (·.1) := by
  induction entries generalizing position kept with
  | nil => rfl
  | cons entry rest ih =>
      rw [compactFrom, List.zipIdx_cons, List.filter_cons]
      split
      · exact congrArg (entry :: ·) (ih (position + 1) (kept + 1))
      · exact ih (position + 1) kept

/-- The entries that are kept stay in their order. -/
theorem compact_entries (arena : Arena Entry) (keep : Nat → Bool) :
    (arena.compact keep).1.entries = (arena.indexed.filter fun pair => keep pair.1).map (·.2) := by
  have entries := compactFrom_entries keep arena.entries 0 0
  rw [indexed, List.filter_map, List.map_map]
  exact entries

theorem compactFrom_all {entries : List Entry} {position kept : Nat}
    (all : ∀ offset < entries.length, keep (position + offset) = true) :
    compactFrom keep position kept entries =
      (entries, (List.range' kept entries.length).map some) := by
  induction entries generalizing position kept with
  | nil => rfl
  | cons entry rest ih =>
      have first : keep position = true := all 0 (by simp)
      have others := @ih (position + 1) (kept + 1) fun offset inside => by
        have keeps := all (offset + 1) (by simpa using inside)
        rwa [show position + 1 + offset = position + (offset + 1) by omega]
      rw [compactFrom, if_pos first, others, List.length_cons, List.range'_succ, List.map_cons]

/-- Where everything is kept, nothing changes and every position stays. -/
theorem compact_all (all : ∀ position < arena.size, keep position = true) :
    (arena.compact keep).1 = arena ∧ ∀ position,
    movedBy (arena.compact keep).2 position = position := by
  have same : compactFrom keep 0 0 arena.entries = _ := compactFrom_all fun offset inside => by
    rw [Nat.zero_add]
    exact all offset inside
  rw [compact, same]
  refine ⟨rfl, fun position => ?_⟩
  rw [movedBy, List.getElem?_map]
  by_cases inside : position < arena.entries.length
  · rw [List.getElem?_range' inside]
    simp
  · rw [List.getElem?_eq_none (by simpa using inside)]
    rfl

end Arena

namespace Shader

open Arena (movedBy)

variable {vars functions : List (Option Nat)}

theorem renumber_eq {table : List (Option Nat)} {fault : Nat → Fault} {id : Nat}
    (inside : id < table.length) : renumber table fault id = .ok (movedBy table id) := by
  rw [renumber, movedBy, List.getElem?_eq_getElem inside]
  cases table[id] <;> rfl

/-! ## Instruction lists -/

/-- How two tables exchange handles. -/
def byTables (vars functions : List (Option Nat)) : Relabeling where
  declares := movedBy vars
  mentions := movedBy vars
  functions := movedBy functions
  calls callee := { callee with function := movedBy functions callee.function }

end Shader

/-- The handles of an instruction list are positions in arenas of the given sizes. -/
structure Block.Within (varCount functionCount : Nat) (block : Block) : Prop where
  declares : ∀ id, Node.instruction (.declare id) ∈ block.ownNodes → id < varCount
  mentions : ∀ id, Node.place (.whole id) ∈ block.ownNodes → id < varCount
  functions : ∀ id, Node.instruction (.function id) ∈ block.ownNodes → id < functionCount
  calls : ∀ callee arguments result,
    Node.instruction (.call callee arguments result) ∈ block.ownNodes →
      callee.function < functionCount

namespace Shader

open Arena (movedBy)

variable {vars functions : List (Option Nat)} {block : Block}

theorem renumberInstruction_relabel (within : block.Within vars.length functions.length)
    {instruction : Instruction} (listed : Node.instruction instruction ∈ block.ownNodes) :
    Checked.giving.ensures (renumberInstruction vars functions instruction) fun changed =>
      changed.bare = instruction.bare.relabel
        { byTables vars functions with mentions := fun id => id } := by
  have kept : ∀ other : Instruction,
      (∀ id, other ≠ .declare id) → (∀ id, other ≠ .function id) →
      (∀ callee arguments result, other ≠ .call callee arguments result) →
      other.bare = other.bare.relabel
        { byTables vars functions with mentions := fun id => id } := by
    intro other no_declaration no_function no_call
    have same := other.bare.relabel_same
    cases other with
    | declare id => exact absurd rfl (no_declaration id)
    | function id => exact absurd rfl (no_function id)
    | call callee arguments result => exact absurd rfl (no_call callee arguments result)
    | _ => exact same.symm
  cases instruction with
  | declare id =>
      rw [renumberInstruction, renumber_eq (within.declares id listed)]
      exact Checked.giving.pure rfl
  | function id =>
      rw [renumberInstruction, renumber_eq (within.functions id listed)]
      exact Checked.giving.pure rfl
  | call callee arguments result =>
      rw [renumberInstruction, renumber_eq (within.calls callee arguments result listed)]
      refine Checked.giving.pure ?_
      have same := (Instruction.call ⟨movedBy functions callee.function, callee.signature⟩ arguments
        result).relabel_same
      exact same.symm
  | _ => exact Checked.giving.pure (kept _ (by simp) (by simp) (by simp))

theorem renumberPlace_exchanges {nodes : List Node}
    (within : ∀ id, Node.place (.whole id) ∈ nodes → id < vars.length) :
    Exchanges Checked.giving (renumberPlace vars) (movedBy vars) nodes where
  wholes id listed := by
    rw [renumberPlace, renumber_eq (within id listed)]
    exact Checked.giving.pure rfl
  parts place part := by
    cases place with
    | whole id => cases part
    | element _ _ _ => exact Checked.giving.pure rfl
    | field _ _ _ => exact Checked.giving.pure rfl

/-- Renumbering a list whose handles have rows relabels it by the tables. -/
theorem renumberBlock_eq (within : block.Within vars.length functions.length) :
    renumberBlock vars functions block = .ok (Block.relabel (byTables vars functions) block) := by
  let heads : Relabeling := { byTables vars functions with mentions := fun id => id }
  let places : Relabeling := { Relabeling.same with mentions := movedBy vars }
  have first : Block.mapInstructions (renumberInstruction vars functions) block =
      .ok (Block.relabel heads block) :=
    Checked.eq_ok_of_giving (Block.mapInstructions_relabel Checked.giving block
      fun _ listed => renumberInstruction_relabel within listed)
  have inside : ∀ id, Node.place (.whole id) ∈
      Block.ownNodes (Block.relabel heads block) → id < vars.length := by
    intro id listed
    rw [Block.ownNodes_relabel] at listed
    obtain ⟨node, there, same⟩ := List.mem_map.mp listed
    cases node with
    | place place =>
        have same : place.relabel (fun id => id) = .whole id := Node.place.inj same
        rw [Place.relabel_id] at same
        exact within.mentions id (same ▸ there)
    | _ => cases same
  have second : Block.mapPlaces (renumberPlace vars) (Block.relabel heads block) =
      .ok (Block.relabel places (Block.relabel heads block)) := by
    refine Checked.eq_ok_of_giving (Block.mapInstructions_relabel Checked.giving _
      fun inner listed => Instruction.mapPlaces_relabel Checked.giving inner ?_ (fun _ _ => rfl)
        (fun _ _ => rfl) fun _ _ _ _ => rfl)
    exact renumberPlace_exchanges fun id in_operands =>
      inside id (Block.operands_of_mem _ listed _ in_operands)
  rw [renumberBlock, first, Checked.ok_bind, second, Block.relabel_relabel]
  rfl

end Shader

/-! ## Shaders -/

def Signature.relabel (names : Relabeling) (signature : Signature) : Signature :=
  { signature with
    parameters := signature.parameters.map names.mentions
    body := Block.relabel names signature.body }

def Function.relabel (names : Relabeling) (function : Function) : Function :=
  { function with signatures := function.signatures.map (Signature.relabel names) }

namespace Shader

/-- Compaction finds a row for every handle it meets: those in the top-level list, in the bodies of
the functions declared there, and their parameters. -/
structure Bounded (shader : Shader) : Prop where
  topLevel : Block.Within shader.vars.size shader.functions.size shader.topLevel
  bodies : ∀ id ∈ shader.declaredFunctions, ∀ signature ∈ shader.signaturesOf id,
    Block.Within shader.vars.size shader.functions.size signature.body
  parameters : ∀ id ∈ shader.declaredFunctions, ∀ signature ∈ shader.signaturesOf id,
    ∀ parameter ∈ signature.parameters, parameter < shader.vars.size

/-- How compaction exchanges handles. -/
def moves (shader : Shader) : Relabeling := byTables shader.variableTable shader.functionTable

/-- What compaction leaves. -/
def compacted (shader : Shader) : Shader :=
  populateSymbols { shader with
    vars := (shader.vars.compact shader.isLive).1
    functions := shader.keptFunctions.map (Function.relabel shader.moves)
    topLevel := Block.relabel shader.moves shader.topLevel }

theorem mapSignatures_eq {functions : List Function} {step : Signature → Checked Signature}
    {change : Signature → Signature}
    (each : ∀ function ∈ functions, ∀ signature ∈ function.signatures,
      step signature = .ok (change signature)) :
    (functions.mapM fun (function : Function) => do
      let signatures ← function.signatures.mapM step
      return { function with signatures := signatures }) =
      .ok (functions.map fun function =>
        { function with signatures := function.signatures.map change }) := by
  refine Checked.mapM_eq_map fun function listed => ?_
  rw [Checked.mapM_eq_map (each function listed)]
  rfl

theorem mapBodies_eq_updateBodies {shader : Shader} {step : Block → Checked Block}
    {change : Block → Block} (each : ∀ body ∈ shader.bodies, step body = .ok (change body)) :
    shader.mapBodies step = .ok (shader.updateBodies change) := by
  rw [mapBodies, each shader.topLevel (List.mem_cons_self ..), Checked.ok_bind]
  refine Checked.bind_eq_ok.mpr
    ⟨_, mapSignatures_eq fun function in_arena signature listed => ?_, rfl⟩
  have in_bodies : signature.body ∈ shader.bodies := List.mem_cons_of_mem _
    (List.mem_flatMap.mpr ⟨function, in_arena, List.mem_map_of_mem listed⟩)
  rw [each _ in_bodies]
  rfl

theorem mem_keptFunctions {shader : Shader} {function : Function}
    (listed : function ∈ shader.keptFunctions.entries) :
    ∃ id ∈ shader.declaredFunctions, shader.functions.get? id = some function := by
  obtain ⟨position, there⟩ := Arena.exists_get?_of_mem listed
  obtain ⟨id, found, keeps, -⟩ := Arena.compact_origin there
  exact ⟨id, by simpa using keeps, found⟩

/-- Where every handle has a row, compaction has a result. -/
theorem Bounded.compact_eq {shader : Shader} (bounded : shader.Bounded) :
    shader.compact = .ok shader.compacted := by
  have variable_rows : shader.variableTable.length = shader.vars.size :=
    Arena.length_compact_table ..
  have function_rows : shader.functionTable.length = shader.functions.size :=
    Arena.length_compact_table ..
  have fetched : ∃ found, shader.liveParameters.mapM shader.fetchVariable = .ok found := by
    refine Checked.exists_mapM fun id listed => ?_
    obtain ⟨function, is_declared, inner⟩ := List.mem_flatMap.mp (mem_liveParameters listed)
    obtain ⟨signature, there, parameter⟩ := List.mem_flatMap.mp inner
    exact exists_fetchVariable
      (bounded.parameters function is_declared signature there id parameter)
  have parameters : ∀ function ∈ shader.keptFunctions.entries, ∀ signature ∈ function.signatures,
      signature.parameters.mapM (renumber shader.variableTable .noVariable) =
        .ok (signature.parameters.map shader.moves.mentions) := by
    intro function kept signature listed
    obtain ⟨id, is_declared, found⟩ := mem_keptFunctions kept
    refine Checked.mapM_eq_map fun parameter inside => renumber_eq ?_
    rw [variable_rows]
    exact bounded.parameters id is_declared signature (signaturesOf_eq found ▸
      listed) parameter inside
  let renamed (signature : Signature) : Signature :=
    { signature with parameters := signature.parameters.map shader.moves.mentions }
  let halfway : Shader :=
    { shader with
      vars := (shader.vars.compact shader.isLive).1
      functions := shader.keptFunctions.map fun function =>
        { function with signatures := function.signatures.map renamed } }
  have bodies : halfway.mapBodies (renumberBlock shader.variableTable shader.functionTable) =
      .ok (halfway.updateBodies (Block.relabel shader.moves)) := by
    refine mapBodies_eq_updateBodies fun body listed => renumberBlock_eq ?_
    rw [variable_rows, function_rows]
    rcases List.mem_cons.mp listed with rfl | inner
    · exact bounded.topLevel
    · obtain ⟨_, in_arena, inner⟩ := List.mem_flatMap.mp inner
      obtain ⟨function, kept, rfl⟩ := List.mem_map.mp in_arena
      obtain ⟨_, in_function, rfl⟩ := List.mem_map.mp inner
      obtain ⟨signature, there, rfl⟩ := List.mem_map.mp in_function
      obtain ⟨id, is_declared, found⟩ := mem_keptFunctions kept
      exact bounded.bodies id is_declared signature (signaturesOf_eq found ▸ there)
  have updated : (halfway.updateBodies (Block.relabel shader.moves)).populateSymbols =
      shader.compacted := by
    refine congrArg populateSymbols ?_
    simp [halfway, renamed, updateBodies, Arena.map, Function.comp_def, Function.relabel,
      Signature.relabel]
  obtain ⟨_, fetches⟩ := fetched
  refine Checked.bind_eq_ok.mpr ⟨_, fetches, Checked.bind_eq_ok.mpr
    ⟨_, mapSignatures_eq fun function kept signature listed => ?_,
      Checked.bind_eq_ok.mpr ⟨_, bodies, congrArg Except.ok updated⟩⟩⟩
  exact Checked.bind_eq_ok.mpr ⟨_, parameters function kept signature listed, rfl⟩

/-! ## What is left -/

/-- Every handle of a shader points somewhere, functions are declared at the top level and nowhere
else, and every function that is called is declared there. -/
structure Closed (shader : Shader) : Prop where
  on_top : shader.FunctionsOnTop
  holds : shader.Holds shader.nodes
  functions : ∀ id ∈ shader.declaredFunctions, id < shader.functions.size
  parameters : ∀ id ∈ shader.declaredFunctions, ∀ signature ∈ shader.signaturesOf id,
    ∀ parameter ∈ signature.parameters, parameter < shader.vars.size

theorem HasCallee.inside {shader : Shader} {callee : Callee} (has : shader.HasCallee callee) :
    callee.function < shader.functions.size := by
  obtain ⟨-, function, found, -⟩ := has
  exact Arena.lt_of_get? found

theorem Holds.within {shader : Shader} {block : Block} (holds : shader.Holds block.ownNodes)
    (functions : ∀ id, Node.instruction (.function id) ∈ block.ownNodes →
      id < shader.functions.size) :
    Block.Within shader.vars.size shader.functions.size block where
  declares := holds.declares
  mentions := holds.mentions
  functions := functions
  calls callee arguments result listed := (holds.calls callee arguments result listed).inside

theorem Closed.bounded {shader : Shader} (closed : shader.Closed) : shader.Bounded where
  topLevel := (closed.holds.mono (Block.nodes_of_own shader.topLevel)).within
    fun id listed => closed.functions id (closed.on_top.declared listed)
  bodies id is_declared signature listed :=
    (closed.holds.mono (nodes_of_body is_declared listed)).within
      fun other inner => absurd inner (closed.on_top.bodies id is_declared signature listed other)
  parameters := closed.parameters

/-- The variables that are declared, dereferenced or a parameter of a declared function. -/
def inUse (shader : Shader) : List VariableId :=
  declaredIn shader.nodes ++ dereferenced shader.nodes ++ shader.declaredParameters

theorem mem_liveParameters_iff {shader : Shader} {id : VariableId} :
    id ∈ shader.liveParameters ↔ id ∈ shader.declaredParameters := by
  refine ⟨mem_liveParameters, fun listed => ?_⟩
  obtain ⟨function_id, is_declared, inside⟩ := List.mem_flatMap.mp listed
  obtain ⟨signature, there, parameter⟩ := List.mem_flatMap.mp inside
  cases found : shader.functions.get? function_id with
  | none =>
      rw [signaturesOf, found] at there
      cases there
  | some function =>
      rw [signaturesOf_eq found] at there
      refine List.mem_flatMap.mpr ⟨(function_id, function), Arena.mem_indexed.mpr found, ?_⟩
      rw [if_pos (by simpa using is_declared)]
      exact List.mem_flatMap.mpr ⟨signature, there, parameter⟩

/-- Compaction keeps the variables in use. -/
theorem isLive_iff {shader : Shader} {id : VariableId} :
    shader.isLive id = true ↔ id ∈ shader.inUse := by
  simp only [isLive, inUse, List.contains_eq_mem, decide_eq_true_eq, List.mem_append,
    mem_liveParameters_iff, mem_mentioned]
  exact or_comm

namespace Closed

variable {shader : Shader} {id : VariableId} {function : FunctionId}

theorem bound (closed : shader.Closed) (used : id ∈ shader.inUse) : id < shader.vars.size := by
  simp only [inUse, List.mem_append] at used
  rcases used with (is_declared | placed) | parameter
  · exact closed.holds.declares id (mem_declaredIn.mp is_declared)
  · exact closed.holds.mentions id (mem_dereferenced.mp placed)
  · obtain ⟨function, is_declared, inner⟩ := List.mem_flatMap.mp parameter
    obtain ⟨signature, there, inside⟩ := List.mem_flatMap.mp inner
    exact closed.parameters function is_declared signature there id inside

/-- A variable in use is where its handle has been moved. -/
theorem vars_moved (closed : shader.Closed) (used : id ∈ shader.inUse) :
    shader.compacted.vars.get? (shader.moves.mentions id) = shader.vars.get? id :=
  Arena.get?_movedBy (closed.bound used) (isLive_iff.mpr used)

/-- Variables in use stay apart. -/
theorem moves_injective (closed : shader.Closed) {other : VariableId} (used : id ∈ shader.inUse)
    (used_too : other ∈ shader.inUse)
    (same : shader.moves.mentions id = shader.moves.mentions other) : id = other :=
  Arena.movedBy_injective (closed.bound used) (closed.bound used_too) (isLive_iff.mpr used)
    (isLive_iff.mpr used_too) same

/-- A declared function is where its handle has been moved. -/
theorem functions_moved (closed : shader.Closed)
    (is_declared : function ∈ shader.declaredFunctions) :
    shader.compacted.functions.get? (shader.moves.functions function) =
      (shader.functions.get? function).map (Function.relabel shader.moves) := by
  have kept : shader.keptFunctions.get? (shader.moves.functions function) =
      shader.functions.get? function :=
    Arena.get?_movedBy (closed.functions function is_declared) (by simpa using is_declared)
  rw [← kept]
  exact Arena.get?_map ..

theorem signatures_moved (closed : shader.Closed)
    (is_declared : function ∈ shader.declaredFunctions) :
    shader.compacted.signaturesOf (shader.moves.functions function) =
      (shader.signaturesOf function).map (Signature.relabel shader.moves) := by
  rw [signaturesOf, closed.functions_moved is_declared, signaturesOf]
  cases shader.functions.get? function <;> rfl

end Closed

theorem declaredFunctions_compacted (shader : Shader) : shader.compacted.declaredFunctions =
    shader.declaredFunctions.map shader.moves.functions := by
  have topLevel : shader.compacted.topLevel =
      shader.topLevel.map (Instruction.relabel shader.moves) := Block.relabel_eq_map ..
  rw [declaredFunctions, topLevel, declaredFunctions, List.filterMap_map, List.map_filterMap]
  refine List.filterMap_congr fun instruction _ => ?_
  cases instruction <;> rfl

theorem functionFree_relabel (names : Relabeling) {block : Block} (free : block.FunctionFree) :
    Block.FunctionFree (Block.relabel names block) := by
  intro id listed
  rw [Block.ownNodes_relabel] at listed
  obtain ⟨node, there, same⟩ := List.mem_map.mp listed
  cases node with
  | instruction instruction =>
      cases instruction <;> cases same
      exact free _ there
  | _ => cases same

namespace Closed

variable {shader : Shader}

theorem on_top_compacted (closed : shader.Closed) : shader.compacted.FunctionsOnTop where
  statements := by
    have filtered : (Block.relabel shader.moves shader.topLevel).filter CloneM.isNoFunction =
        Block.relabel shader.moves (shader.topLevel.filter CloneM.isNoFunction) := by
      rw [Block.relabel_eq_map, Block.relabel_eq_map, List.filter_map]
      refine congrArg _ (List.filter_congr fun instruction _ => ?_)
      cases instruction <;> rfl
    have free := functionFree_relabel shader.moves closed.on_top.statements
    rwa [← filtered] at free
  bodies := by
    intro other is_declared signature listed
    rw [declaredFunctions_compacted] at is_declared
    obtain ⟨id, was_declared, rfl⟩ := List.mem_map.mp is_declared
    rw [closed.signatures_moved was_declared] at listed
    obtain ⟨original, was_listed, rfl⟩ := List.mem_map.mp listed
    exact functionFree_relabel _ (closed.on_top.bodies id was_declared original was_listed)

theorem nodes_compacted (closed : shader.Closed) :
    shader.compacted.nodes = shader.nodes.map (Node.relabel shader.moves) := by
  refine Block.nodes_relabel shader.moves shader.topLevel fun id listed => ?_
  have is_declared := closed.on_top.declared listed
  have now_declared : shader.moves.functions id ∈ shader.compacted.declaredFunctions := by
    rw [declaredFunctions_compacted]
    exact List.mem_map_of_mem is_declared
  rw [insideFunction_of_declared closed.on_top is_declared,
    insideFunction_of_declared closed.on_top_compacted now_declared, bodyNodes, bodyNodes,
    closed.signatures_moved is_declared, List.flatMap_map, List.map_flatMap]
  exact List.flatMap_congr fun signature _ => Block.ownNodes_relabel shader.moves signature.body

end Closed

end Shader
end StageLink
