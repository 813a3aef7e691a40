import StageLink.Proofs.Bodies
import StageLink.Proofs.Occurrences
import StageLink.Shader.Compact

/-!
# Compaction

Compaction moves every entry that is kept to a place of its own, and renames the handles in the
instruction lists accordingly.  What is declared at the top level is kept, so that a compacted
shader declares the same variables in the same order.
-/

namespace StageLink

/-! ## Tables -/

namespace Arena

variable {Entry : Type} {keep : Nat → Bool}

/-- What compacting some entries does, the first of which is at a position and goes to another. -/
structure Compacts (keep : Nat → Bool) (position kept : Nat) (entries rest : List Entry)
    (table : List (Option Nat)) : Prop where
  moved : ∀ {offset : Nat} {entry : Entry}, entries[offset]? = some entry →
    keep (position + offset) = true →
    ∃ target, table[offset]? = some (some (kept + target)) ∧ rest[target]? = some entry
  dropped : ∀ {offset : Nat}, offset < entries.length → keep (position + offset) = false →
    table[offset]? = some none
  origin : ∀ {target : Nat} {entry : Entry}, rest[target]? = some entry → ∃ offset : Nat,
    entries[offset]? = some entry ∧ keep (position + offset) = true ∧
      table[offset]? = some (some (kept + target))
  from_kept : ∀ {offset target : Nat}, table[offset]? = some (some target) → kept ≤ target
  increasing : ∀ {offset later target other : Nat}, offset < later →
    table[offset]? = some (some target) → table[later]? = some (some other) → target < other

namespace Compacts

variable {position kept : Nat} {first : Entry} {entries rest : List Entry}
  {table : List (Option Nat)}

theorem keep_first (later : Compacts keep (position + 1) (kept + 1) entries rest table)
    (is_kept : keep position = true) :
    Compacts keep position kept (first :: entries) (first :: rest) (some kept :: table) where
  moved {offset entry} found keeps := by
    cases offset with
    | zero => exact ⟨0, by simp, by simpa using found⟩
    | succ offset =>
        obtain ⟨target, row, there⟩ := later.moved (by simpa using found)
          (by simpa only [Nat.add_assoc, Nat.add_comm 1 offset] using keeps)
        exact ⟨target + 1, by simpa [Nat.add_assoc, Nat.add_comm 1 target] using row,
          by simpa using there⟩
  dropped {offset} inside drops := by
    cases offset with
    | zero => simp [is_kept] at drops
    | succ offset =>
        simpa using later.dropped (by simpa using inside)
          (by simpa only [Nat.add_assoc, Nat.add_comm 1 offset] using drops)
  origin {target entry} found := by
    cases target with
    | zero => exact ⟨0, by simpa using found, by simpa using is_kept, by simp⟩
    | succ target =>
        obtain ⟨offset, was, keeps, row⟩ := later.origin (by simpa using found)
        exact ⟨offset + 1, by simpa using was,
          by simpa only [Nat.add_assoc, Nat.add_comm 1 offset] using keeps,
          by simpa [Nat.add_assoc, Nat.add_comm 1 target] using row⟩
  from_kept {offset target} row := by
    cases offset with
    | zero =>
        have same : kept = target := by simpa using row
        omega
    | succ offset => exact Nat.le_of_succ_le (later.from_kept (by simpa using row))
  increasing {offset other target further} before row row_other := by
    cases other with
    | zero => omega
    | succ other =>
        have above := later.from_kept (by simpa using row_other)
        cases offset with
        | zero =>
            have same : kept = target := by simpa using row
            omega
        | succ offset =>
            exact later.increasing (Nat.lt_of_succ_lt_succ before) (by simpa using row)
              (by simpa using row_other)

theorem drop_first (later : Compacts keep (position + 1) kept entries rest table)
    (is_dropped : keep position = false) :
    Compacts keep position kept (first :: entries) rest (none :: table) where
  moved {offset entry} found keeps := by
    cases offset with
    | zero => simp [is_dropped] at keeps
    | succ offset =>
        obtain ⟨target, row, there⟩ := later.moved (by simpa using found)
          (by simpa only [Nat.add_assoc, Nat.add_comm 1 offset] using keeps)
        exact ⟨target, by simpa using row, there⟩
  dropped {offset} inside drops := by
    cases offset with
    | zero => simp
    | succ offset =>
        simpa using later.dropped (by simpa using inside)
          (by simpa only [Nat.add_assoc, Nat.add_comm 1 offset] using drops)
  origin {target entry} found := by
    obtain ⟨offset, was, keeps, row⟩ := later.origin found
    exact ⟨offset + 1, by simpa using was,
      by simpa only [Nat.add_assoc, Nat.add_comm 1 offset] using keeps, by simpa using row⟩
  from_kept {offset target} row := by
    cases offset with
    | zero => simp at row
    | succ offset => exact later.from_kept (by simpa using row)
  increasing {offset other target further} before row row_other := by
    cases other with
    | zero => omega
    | succ other =>
        cases offset with
        | zero => simp at row
        | succ offset =>
            exact later.increasing (Nat.lt_of_succ_lt_succ before) (by simpa using row)
              (by simpa using row_other)

end Compacts

theorem compactFrom_compacts (keep : Nat → Bool) (entries : List Entry) :
    ∀ position kept, Compacts keep position kept entries
      (compactFrom keep position kept entries).1 (compactFrom keep position kept entries).2 := by
  induction entries with
  | nil => exact fun _ _ => ⟨by simp, by simp, by simp [compactFrom], by simp [compactFrom],
      by simp [compactFrom]⟩
  | cons first entries ih =>
      intro position kept
      unfold compactFrom
      split
      · next is_kept => exact (ih (position + 1) (kept + 1)).keep_first is_kept
      · next is_dropped => exact (ih (position + 1) kept).drop_first (by simpa using is_dropped)

theorem compact_compacts (arena : Arena Entry) (keep : Nat → Bool) :
    Compacts keep 0 0 arena.entries (arena.compact keep).1.entries (arena.compact keep).2 :=
  compactFrom_compacts keep arena.entries 0 0

theorem compact_moved {arena : Arena Entry} {position : Nat} {entry : Entry}
    (found : arena.get? position = some entry) (keeps : keep position = true) :
    ∃ target, (arena.compact keep).2[position]? = some (some target) ∧
      (arena.compact keep).1.get? target = some entry := by
  obtain ⟨target, row, there⟩ :=
    (arena.compact_compacts keep).moved found (by simpa using keeps)
  exact ⟨target, by simpa using row, there⟩

theorem compact_origin {arena : Arena Entry} {target : Nat} {entry : Entry}
    (found : (arena.compact keep).1.get? target = some entry) : ∃ position,
      arena.get? position = some entry ∧ keep position = true ∧
        (arena.compact keep).2[position]? = some (some target) := by
  obtain ⟨position, was, keeps, row⟩ := (arena.compact_compacts keep).origin found
  exact ⟨position, was, by simpa using keeps, by simpa using row⟩

theorem compact_injective {arena : Arena Entry} {one other target : Nat}
    (row : (arena.compact keep).2[one]? = some (some target))
    (row_other : (arena.compact keep).2[other]? = some (some target)) : one = other := by
  have compacts := arena.compact_compacts keep
  rcases Nat.lt_trichotomy one other with before | same | behind
  · exact absurd (compacts.increasing before row row_other) (Nat.lt_irrefl _)
  · exact same
  · exact absurd (compacts.increasing behind row_other row) (Nat.lt_irrefl _)

end Arena
/-! ## Renumbered lists -/

namespace Shader

/-- Whether compaction keeps a variable. -/
def isLive (shader : Shader) : VariableId → Bool :=
  (shader.liveParameters ++ mentioned shader.nodes).contains

/-- Where compaction moves the variables that it keeps. -/
def variableTable (shader : Shader) : List (Option Nat) := (shader.vars.compact shader.isLive).2

/-- The functions that compaction keeps. -/
def keptFunctions (shader : Shader) : Arena Function :=
  (shader.functions.compact shader.declaredFunctions.contains).1

/-- Where compaction moves the functions that it keeps. -/
def functionTable (shader : Shader) : List (Option Nat) :=
  (shader.functions.compact shader.declaredFunctions.contains).2

/-- How two tables rename handles. -/
def renumbering (vars functions : List (Option Nat)) : Renaming where
  declares id other := renumber vars .noVariable id = .ok other
  mentions id other := renumber vars .noVariable id = .ok other
  functions id other := renumber functions .noFunction id = .ok other
  calls callee other :=
    renumber functions .noFunction callee.function = .ok other.function ∧
      other.signature = callee.signature

variable {vars functions : List (Option Nat)}

theorem renumberInstruction_alike {instruction : Instruction} :
    Checked.ensuring.ensures (renumberInstruction vars functions instruction) fun changed =>
      Instruction.Alike { renumbering vars functions with mentions := Eq }
        instruction.bare changed.bare := by
  have alike_self : ∀ expression : Expr, Expr.Alike Eq expression expression := .refl fun _ => rfl
  cases instruction with
  | declare id =>
      intro changed runs
      obtain ⟨target, renumbers, equal⟩ := Checked.bind_eq_ok.mp runs
      obtain rfl := Checked.pure_eq_ok.mp equal
      exact .declare renumbers
  | function id =>
      intro changed runs
      obtain ⟨target, renumbers, equal⟩ := Checked.bind_eq_ok.mp runs
      obtain rfl := Checked.pure_eq_ok.mp equal
      exact .function renumbers
  | call callee arguments result =>
      intro changed runs
      obtain ⟨target, renumbers, equal⟩ := Checked.bind_eq_ok.mp runs
      obtain rfl := Checked.pure_eq_ok.mp equal
      exact .call ⟨renumbers, rfl⟩ (.refl (fun _ => rfl) arguments)
        (rel_refl (.refl fun _ => rfl) result)
  | assign target value guard =>
      exact Checked.ensuring.pure (.assign (.refl (fun _ => rfl) target) (alike_self value)
        (rel_refl alike_self guard))
  | branch condition accept reject =>
      exact Checked.ensuring.pure (.branch (alike_self condition) .nil .nil)
  | loop body => exact Checked.ensuring.pure (.loop .nil)
  | yield value => exact Checked.ensuring.pure (.yield (rel_refl alike_self value))
  | leave => exact Checked.ensuring.pure .leave
  | next => exact Checked.ensuring.pure .next
  | discard => exact Checked.ensuring.pure .discard
  | emitVertex => exact Checked.ensuring.pure .emitVertex
  | endPrimitive => exact Checked.ensuring.pure .endPrimitive

theorem renumberPlace_faithful (vars functions : List (Option Nat)) (nodes : List Node) :
    Faithful Checked.ensuring (renumberPlace vars) (renumbering vars functions).mentions nodes := by
  refine ⟨fun id _ changed runs => ?_, fun place part => ?_⟩
  · obtain ⟨target, renumbers, equal⟩ := Checked.bind_eq_ok.mp runs
    obtain rfl := Checked.pure_eq_ok.mp equal
    exact .whole renumbers
  · cases place with
    | whole id => cases part
    | element array index ty => exact Checked.ensuring.pure fun _ alike => alike
    | field record name ty => exact Checked.ensuring.pure fun _ alike => alike

/-- Renumbering a list gives one that is alike. -/
theorem renumberBlock_alike {block result : Block}
    (runs : renumberBlock vars functions block = .ok result) :
    Block.Alike (renumbering vars functions) block result := by
  obtain ⟨halfway, renumbers, following⟩ := Checked.bind_eq_ok.mp runs
  have heads := Block.mapInstructions_alike Checked.ensuring block
    (fun _ _ => renumberInstruction_alike) halfway renumbers
  let places : Renaming := { declares := Eq, functions := Eq, calls := Eq
                             mentions := (renumbering vars functions).mentions }
  have faithful : ∀ nodes, Faithful Checked.ensuring (renumberPlace vars) places.mentions nodes :=
    renumberPlace_faithful vars functions
  have rest : Block.Alike places halfway result :=
    Block.mapInstructions_alike Checked.ensuring halfway (fun inner _ =>
      Instruction.mapPlaces_alike Checked.ensuring inner (faithful _)
        (fun _ _ => rfl) (fun _ _ => rfl) fun _ _ _ _ => rfl) result following
  have both := heads.trans rest
  simpa [Renaming.before, places, Relation.comp_eq, Relation.eq_comp] using both

/-! ## Compacted shaders -/

/-- What compaction makes of a signature. -/
structure SignatureMoved (renames : Renaming) (before after : Signature) : Prop where
  same : after = { before with parameters := after.parameters, body := after.body }
  parameters : List.Forall₂ renames.mentions before.parameters after.parameters
  body : Block.Alike renames before.body after.body

/-- What compaction makes of a function. -/
structure FunctionMoved (renames : Renaming) (before after : Function) : Prop where
  name : after.name = before.name
  signatures : List.Forall₂ (SignatureMoved renames) before.signatures after.signatures

/-- How compaction renames handles. -/
def compaction (shader : Shader) : Renaming := renumbering shader.variableTable shader.functionTable

/-- What compaction makes of a shader. -/
structure Compacted (before after : Shader) : Prop where
  same : after = { before with
    vars := after.vars, functions := after.functions, topLevel := after.topLevel
    symbols := after.symbols }
  vars : after.vars = (before.vars.compact before.isLive).1
  topLevel : Block.Alike before.compaction before.topLevel after.topLevel
  functions : List.Forall₂ (FunctionMoved before.compaction) before.keptFunctions.entries
    after.functions.entries
  rebuilt : ∃ renumbered : Shader, after = renumbered.populateSymbols

theorem compact_eq_ok {shader result : Shader} (runs : shader.compact = .ok result) :
    Compacted shader result := by
  obtain ⟨_, -, runs⟩ := Checked.bind_eq_ok.mp runs
  obtain ⟨functions, moves, runs⟩ := Checked.bind_eq_ok.mp runs
  obtain ⟨renumbered, renumbers, equal⟩ := Checked.bind_eq_ok.mp runs
  obtain rfl := Checked.pure_eq_ok.mp equal
  obtain ⟨same, topLevel, bodies⟩ := mapBodies_eq_ok renumbers
  refine ⟨?_, ?_, renumberBlock_alike topLevel, ?_, renumbered, rfl⟩
  · rw [populateSymbols, same]
  · rw [populateSymbols, same]
    rfl
  · refine forall₂_of_comp (fun before halfway after => ?_) (Checked.mapM_eq_ok.mp moves) bodies
    intro moves_function changes
    obtain ⟨signatures, moves_signatures, equal⟩ := Checked.bind_eq_ok.mp moves_function
    obtain rfl := Checked.pure_eq_ok.mp equal
    obtain ⟨named, changes_signatures⟩ := changes
    refine ⟨named, forall₂_of_comp (fun before halfway after => ?_)
      (Checked.mapM_eq_ok.mp moves_signatures) changes_signatures⟩
    intro moves_signature changes_body
    obtain ⟨parameters, moves_parameters, equal⟩ := Checked.bind_eq_ok.mp moves_signature
    obtain rfl := Checked.pure_eq_ok.mp equal
    obtain ⟨same, changes⟩ := changes_body
    refine ⟨by rw [same], ?_, renumberBlock_alike changes⟩
    rw [same]
    exact Checked.mapM_eq_ok.mp moves_parameters

/-! ## What stays declared -/

theorem node_of_mem (inside : FunctionId → List Node) {block : Block} {instruction : Instruction}
    (listed : instruction ∈ block) : Node.instruction instruction ∈ Block.nodes inside block := by
  induction block with
  | nil => cases listed
  | cons first rest ih =>
      rw [Block.nodes, List.mem_append]
      rcases List.mem_cons.mp listed with rfl | later
      · left
        cases instruction <;> simp [Instruction.nodes]
      · exact .inr (ih later)

theorem isLive_of_mentioned {shader : Shader} {id : VariableId}
    (occurs : id ∈ mentioned shader.nodes) : shader.isLive id = true := by
  simp [isLive, occurs]

theorem isLive_of_global {shader : Shader} {id : VariableId} (global : id ∈ shader.globals) :
    shader.isLive id = true :=
  isLive_of_mentioned (List.mem_filterMap.mpr
    ⟨_, node_of_mem _ (mem_globals.mp global), rfl⟩)

/-- A variable that is kept goes to a place of its own. -/
theorem row_of_live {shader : Shader} {id other : VariableId} (live : shader.isLive id = true)
    (moves : shader.compaction.mentions id other) :
    shader.variableTable[id]? = some (some other) ∧ ∃ declared,
      shader.vars.get? id = some declared ∧
        (shader.vars.compact shader.isLive).1.get? other = some declared := by
  have moves : renumber shader.variableTable .noVariable id = .ok other := moves
  have inside : id < shader.vars.size := by
    by_contra outside
    have no_row : shader.variableTable[id]? = none := by
      rw [List.getElem?_eq_none_iff, variableTable, Arena.length_compact_table]
      exact Nat.le_of_not_lt outside
    rw [renumber, no_row] at moves
    cases moves
  obtain ⟨declared, found⟩ := Arena.exists_get? inside
  obtain ⟨target, row, there⟩ := Arena.compact_moved found live
  have row : shader.variableTable[id]? = some (some target) := row
  rw [renumber, row] at moves
  obtain rfl : target = other := Except.ok.inj moves
  exact ⟨row, declared, found, there⟩

/-- Variables that are kept stay apart. -/
theorem compaction_injective {shader : Shader} {one two other : VariableId}
    (live : shader.isLive one = true) (live_too : shader.isLive two = true)
    (moves : shader.compaction.mentions one other)
    (moves_too : shader.compaction.mentions two other) :
    one = two :=
  Arena.compact_injective (row_of_live live moves).1 (row_of_live live_too moves_too).1

/-- A variable that is kept is where its handle has been moved. -/
theorem Compacted.get? {before after : Shader} (compacted : Compacted before after)
    {id other : VariableId} (live : before.isLive id = true)
    (moves : before.compaction.mentions id other) :
    after.vars.get? other = before.vars.get? id := by
  obtain ⟨-, declared, found, there⟩ := row_of_live live moves
  rw [compacted.vars, found, there]

theorem forall₂_of_alike {renames : Renaming} {before after : Block}
    (alike : Block.Alike renames before after) :
    List.Forall₂ (Instruction.Alike renames) before after := by
  induction before generalizing after with
  | nil =>
      cases alike
      exact .nil
  | cons instruction rest ih =>
      cases alike with
      | cons head tail => exact .cons head (ih tail)

theorem globals_alike {renames : Renaming} {before after : Block}
    (alike : Block.Alike renames before after) :
    List.Forall₂ renames.declares
      (before.filterMap fun | .declare id => some id | _ => none)
      (after.filterMap fun | .declare id => some id | _ => none) := by
  refine List.rel_filterMap (fun one other head => ?_) (forall₂_of_alike alike)
  cases head with
  | declare related => exact .some related
  | _ => exact .none

theorem flat_alike {renames : Renaming} {before after : Block}
    (alike : Block.Alike renames before after) (flat : before.Flat) : after.Flat := by
  intro other listed
  obtain ⟨instruction, in_before, related⟩ := exists_of_forall₂ (forall₂_of_alike alike) listed
  have declares := flat instruction in_before
  cases related <;> first | rfl | cases declares

/-- The globals are moved one by one. -/
theorem Compacted.globals {before after : Shader} (compacted : Compacted before after) :
    List.Forall₂ (fun id other => after.vars.get? other = before.vars.get? id)
      before.globals after.globals := by
  have live : ∀ id ∈ before.globals, before.isLive id = true := fun _ => isLive_of_global
  have moved : List.Forall₂ before.compaction.mentions before.globals after.globals :=
    globals_alike compacted.topLevel
  generalize before.globals = ids at moved live
  generalize after.globals = others at moved
  induction moved with
  | nil => exact .nil
  | cons related _ ih =>
      exact .cons (compacted.get? (live _ (List.mem_cons_self ..)) related)
        (ih fun id listed => live id (List.mem_cons_of_mem _ listed))

theorem Compacted.declaredVariables {before after : Shader} (compacted : Compacted before after) :
    after.declaredVariables = before.declaredVariables := by
  have moved := compacted.globals
  rw [Shader.declaredVariables, Shader.declaredVariables]
  generalize before.globals = ids at moved
  generalize after.globals = others at moved
  induction moved with
  | nil => rfl
  | cons same _ ih => rw [List.filterMap_cons, List.filterMap_cons, same, ih]

theorem Compacted.stage {before after : Shader} (compacted : Compacted before after) :
    after.stage = before.stage := by
  rw [compacted.same]

theorem Compacted.tidy {before after : Shader} (compacted : Compacted before after)
    (tidy : before.Tidy) : after.Tidy := by
  refine ⟨flat_alike compacted.topLevel tidy.flat, fun other listed => ?_, ?_⟩
  · obtain ⟨id, global, same⟩ := exists_of_forall₂ compacted.globals listed
    have inside := tidy.bound id global
    rw [← Arena.isSome_get?_iff] at inside ⊢
    rwa [same]
  · rw [compacted.declaredVariables]
    exact tidy.distinct

/-! ## Functions -/

variable {before after : Shader}

theorem functions_alike {renames : Renaming} {before after : Block}
    (alike : Block.Alike renames before after) :
    List.Forall₂ renames.functions
      (before.filterMap fun | .function id => some id | _ => none)
      (after.filterMap fun | .function id => some id | _ => none) := by
  refine List.rel_filterMap (fun one other head => ?_) (forall₂_of_alike alike)
  cases head with
  | function related => exact .some related
  | _ => exact .none

theorem Compacted.declaredFunctions (compacted : Compacted before after) :
    List.Forall₂ before.compaction.functions before.declaredFunctions after.declaredFunctions :=
  functions_alike compacted.topLevel

/-- A declared function goes to a place of its own. -/
theorem row_of_declared {id other : FunctionId} (is_declared : id ∈ before.declaredFunctions)
    (moves : before.compaction.functions id other) :
    before.functionTable[id]? = some (some other) ∧ ∃ function,
      before.functions.get? id = some function ∧ before.keptFunctions.get? other =
        some function := by
  have moves : renumber before.functionTable .noFunction id = .ok other := moves
  have inside : id < before.functions.size := by
    by_contra outside
    have no_row : before.functionTable[id]? = none := by
      rw [List.getElem?_eq_none_iff, functionTable, Arena.length_compact_table]
      exact Nat.le_of_not_lt outside
    rw [renumber, no_row] at moves
    cases moves
  obtain ⟨function, found⟩ := Arena.exists_get? inside
  obtain ⟨target, row, there⟩ : ∃ target, before.functionTable[id]? = some (some target) ∧
      before.keptFunctions.get? target = some function :=
    Arena.compact_moved found (by simpa using is_declared)
  rw [renumber, row] at moves
  obtain rfl : target = other := Except.ok.inj moves
  exact ⟨row, function, found, there⟩

/-- A declared function is where its handle has been moved. -/
theorem Compacted.function_of (compacted : Compacted before after) {id other : FunctionId}
    (is_declared : id ∈ before.declaredFunctions) (moves : before.compaction.functions id other) :
    ∃ function moved, before.functions.get? id = some function ∧
      after.functions.get? other = some moved ∧ FunctionMoved before.compaction function moved := by
  obtain ⟨-, function, found, kept⟩ := row_of_declared is_declared moves
  have related := rel_getElem? compacted.functions other
  rw [show before.keptFunctions.entries[other]? = some function from kept] at related
  obtain ⟨moved, there, related⟩ := exists_of_rel related
  exact ⟨function, moved, found, there, related⟩

/-- Every function that is left has been declared. -/
theorem Compacted.function_origin (compacted : Compacted before after) {other : FunctionId}
    {moved : Function} (found : after.functions.get? other = some moved) :
    ∃ id ∈ before.declaredFunctions, before.compaction.functions id other := by
  have related := rel_getElem? compacted.functions other
  rw [show after.functions.entries[other]? = some moved from found] at related
  obtain ⟨function, was, -⟩ := exists_of_rel_some related
  obtain ⟨id, -, keeps, row⟩ := Arena.compact_origin
    (show (before.functions.compact before.declaredFunctions.contains).1.get? other = _ from was)
  have row : before.functionTable[id]? = some (some other) := row
  exact ⟨id, by simpa using keeps, by simp [compaction, renumbering, renumber, row]⟩

end Shader
end StageLink
