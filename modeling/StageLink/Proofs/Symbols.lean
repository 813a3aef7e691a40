import StageLink.Proofs.Growth
import StageLink.Stage.Merge

/-!
# The top level of a main unit

When units are merged, the top-level list of the main unit is split into declarations and
statements, and the symbol table is rebuilt from the declarations.  The table then tells what is
declared.
-/

namespace StageLink
namespace Merge

/-- A top-level instruction declares a function or a variable other than a temporary. -/
def declaresGlobal (shader : Shader) : Instruction → Bool
  | .function _ => true
  | .declare id => (shader.vars.get? id).any (·.mode ≠ .temporary)
  | _ => false

theorem splitTopLevel_eq_ok {shader : Shader} {block declarations statements : Block}
    (runs : splitTopLevel shader block = .ok (declarations, statements)) :
    declarations = block.filter (declaresGlobal shader) ∧
      statements = block.filter (!declaresGlobal shader ·) ∧
      ∀ id, Instruction.declare id ∈ block → id < shader.vars.size := by
  induction block generalizing declarations statements with
  | nil =>
      obtain ⟨rfl, rfl⟩ : [] = declarations ∧ [] = statements := by
        simpa [splitTopLevel] using runs
      simp
  | cons instruction rest ih =>
      rw [splitTopLevel] at runs
      obtain ⟨⟨later, moved⟩, splits, following⟩ := Checked.bind_eq_ok.mp runs
      obtain ⟨answer, decides, finish⟩ := Checked.bind_eq_ok.mp following
      obtain ⟨rfl, rfl, bound⟩ := ih splits
      have answered : answer = declaresGlobal shader instruction ∧
          ∀ id, instruction = .declare id → id < shader.vars.size := by
        cases instruction with
        | declare id =>
            obtain ⟨declared, fetched, equal⟩ := Checked.bind_eq_ok.mp decides
            have found := Shader.fetchVariable_eq_ok.mp fetched
            obtain rfl := Checked.pure_eq_ok.mp equal
            refine ⟨by simp [declaresGlobal, found], ?_⟩
            rintro _ ⟨⟩
            exact Arena.lt_of_get? found
        | _ =>
            obtain rfl := Checked.pure_eq_ok.mp decides
            exact ⟨rfl, by simp⟩
      have bound_here : ∀ id, Instruction.declare id ∈ instruction :: rest →
          id < shader.vars.size := by
        intro id listed
        rcases List.mem_cons.mp listed with here | later
        · exact answered.2 id here.symm
        · exact bound id later
      obtain ⟨rfl, -⟩ := answered
      cases decided : declaresGlobal shader instruction with
      | true =>
          obtain ⟨rfl, rfl⟩ : _ = declarations ∧ _ = statements := by
            simpa [decided] using finish
          exact ⟨by simp [decided], by simp [decided], bound_here⟩
      | false =>
          obtain ⟨rfl, rfl⟩ : _ = declarations ∧ _ = statements := by
            simpa [decided] using finish
          exact ⟨by simp [decided], by simp [decided], bound_here⟩

theorem cloneStatements_cons_eq_ok {unit : Shader} {units : List Shader} {target extended : Shader}
    {cloned : Block} (runs : cloneStatements (unit :: units) target = .ok (cloned, extended)) :
    ∃ first later halfway, cloned = first ++ later ∧
      (CloneM.block unit (unit.topLevel.filter (!declaresGlobal unit ·))).runOn target [] =
        .ok (first, halfway) ∧
      cloneStatements units halfway = .ok (later, extended) := by
  rw [cloneStatements] at runs
  obtain ⟨⟨_, statements⟩, splits, following⟩ := Checked.bind_eq_ok.mp runs
  obtain ⟨⟨first, halfway⟩, clones, following⟩ := Checked.bind_eq_ok.mp following
  obtain ⟨⟨later, reached⟩, clones_later, finish⟩ := Checked.bind_eq_ok.mp following
  obtain ⟨rfl, rfl⟩ : first ++ later = cloned ∧ reached = extended := by simpa using finish
  obtain ⟨-, rfl, -⟩ := splitTopLevel_eq_ok splits
  exact ⟨first, later, halfway, rfl, clones, clones_later⟩

/-- What a unit with `main` does at its top level stands before the body of `main` once it has been
moved, and what other units do stands between them. -/
theorem moveStatements_of_main {main result : Shader} {others : List Shader} {entry : Callee}
    (has_main : main.mainSignature? = some entry) (runs : moveStatements main others = .ok result) :
    (∀ id ∈ main.globals, id < main.vars.size) ∧ ∃ cloned extended,
      cloneStatements others ({ main with topLevel := main.topLevel.filter (declaresGlobal main) } :
        Shader).populateSymbols = .ok (cloned, extended) ∧
      result = extended.modifySignature entry fun signature => { signature with
        body := main.topLevel.filter (!declaresGlobal main ·) ++ cloned ++ signature.body } := by
  simp only [moveStatements, has_main] at runs
  obtain ⟨⟨declarations, statements⟩, splits, following⟩ := Checked.bind_eq_ok.mp runs
  obtain ⟨⟨cloned, extended⟩, clones, finish⟩ := Checked.bind_eq_ok.mp following
  obtain rfl := Checked.pure_eq_ok.mp finish
  obtain ⟨rfl, rfl, bound⟩ := splitTopLevel_eq_ok splits
  exact ⟨fun id global => bound id (Shader.mem_globals.mp global), cloned, extended, clones, rfl⟩

theorem flat_declarations (shader : Shader) (block : Block) :
    Block.Flat (block.filter (declaresGlobal shader)) := by
  intro instruction listed
  obtain ⟨-, declares⟩ := List.mem_filter.mp listed
  cases instruction <;> first | rfl | cases declares

end Merge

namespace Shader

/-! ## Rebuilt symbol tables -/

/-- A symbol table tells what some instructions declare. -/
structure Tells (shader : Shader) (seen : Block) (symbols : SymbolTable) : Prop where
  known : ∀ id, Instruction.declare id ∈ seen → ∀ declared, shader.vars.get? id = some declared →
    (symbols.vars.get? declared.name).isSome = true
  variable_of : ∀ {name id}, symbols.vars.get? name = some id →
    Instruction.declare id ∈ seen ∧
      ∃ declared, shader.vars.get? id = some declared ∧ declared.name = name
  function_of : ∀ {name id}, symbols.functions.get? name = some id →
    Instruction.function id ∈ seen ∧
      ∃ function, shader.functions.get? id = some function ∧ function.name = name

/-- What declares nothing that can be found tells nothing new. -/
theorem Tells.skip {shader : Shader} {seen : Block} {symbols : SymbolTable}
    (tells : shader.Tells seen symbols) {instruction : Instruction}
    (nothing : ∀ id, instruction = .declare id → shader.vars.get? id = none) :
    shader.Tells (seen ++ [instruction]) symbols where
  known id listed declared found := by
    rcases List.mem_append.mp listed with old | new
    · exact tells.known id old declared found
    · have absent := nothing id (List.mem_singleton.mp new).symm
      rw [absent] at found
      cases found
  variable_of bound := by
    obtain ⟨listed, rest⟩ := tells.variable_of bound
    exact ⟨List.mem_append_left _ listed, rest⟩
  function_of bound := by
    obtain ⟨listed, rest⟩ := tells.function_of bound
    exact ⟨List.mem_append_left _ listed, rest⟩

theorem Tells.declare {shader : Shader} {seen : Block} {symbols : SymbolTable}
    (tells : shader.Tells seen symbols) {id : VariableId} {declared : Variable}
    (found : shader.vars.get? id = some declared) :
    shader.Tells (seen ++ [.declare id]) (symbols.addVariable declared.name id) where
  known other listed entry was := by
    simp only [SymbolTable.addVariable, NameTable.get?_insert]
    split
    · rfl
    · next differs =>
        rcases List.mem_append.mp listed with old | new
        · exact tells.known other old entry was
        · obtain rfl : other = id := by simpa using new
          obtain rfl := Option.some.inj (found.symm.trans was)
          exact absurd rfl differs
  variable_of bound := by
    simp only [SymbolTable.addVariable, NameTable.get?_insert] at bound
    split at bound
    · next same =>
        obtain rfl := Option.some.inj bound
        exact ⟨by simp, declared, found, same.symm⟩
    · obtain ⟨listed, rest⟩ := tells.variable_of bound
      exact ⟨List.mem_append_left _ listed, rest⟩
  function_of bound := by
    obtain ⟨listed, rest⟩ := tells.function_of bound
    exact ⟨List.mem_append_left _ listed, rest⟩

theorem Tells.function {shader : Shader} {seen : Block} {symbols : SymbolTable}
    (tells : shader.Tells seen symbols) {id : FunctionId} {function : Function}
    (found : shader.functions.get? id = some function) :
    shader.Tells (seen ++ [.function id]) (symbols.addFunction function.name id) where
  known other listed entry was := by
    refine tells.known other ?_ entry was
    simpa using listed
  variable_of bound := by
    obtain ⟨listed, rest⟩ := tells.variable_of bound
    exact ⟨List.mem_append_left _ listed, rest⟩
  function_of bound := by
    simp only [SymbolTable.addFunction, NameTable.get?_insert] at bound
    split at bound
    · next same =>
        obtain rfl := Option.some.inj bound
        exact ⟨by simp, function, found, same.symm⟩
    · obtain ⟨listed, rest⟩ := tells.function_of bound
      exact ⟨List.mem_append_left _ listed, rest⟩

/-- Entering the declarations of an instruction list makes a table tell about them too. -/
theorem enterSymbols_tells {shader : Shader} {block : Block} :
    ∀ {seen : Block} {symbols : SymbolTable}, shader.Tells seen symbols →
      shader.Tells (seen ++ block) (shader.enterSymbols symbols block) := by
  induction block with
  | nil => simp [enterSymbols]
  | cons instruction rest ih =>
      intro seen symbols tells
      have step : ∀ next, shader.Tells (seen ++ [instruction]) next →
          shader.Tells (seen ++ instruction :: rest) (shader.enterSymbols next rest) := by
        intro next holds
        simpa using ih holds
      cases instruction with
      | declare id =>
          rw [enterSymbols]
          split
          · next declared found => exact step _ (tells.declare found)
          · next absent => exact step _ (tells.skip fun other same => by cases same; exact absent)
      | function id =>
          rw [enterSymbols]
          split
          · next function found => exact step _ (tells.function found)
          · exact step _ (tells.skip fun other same => by cases same)
      | _ => exact step _ (tells.skip fun other same => by cases same)

/-- A rebuilt symbol table is coherent. -/
theorem populateSymbols_coherent {shader : Shader}
    (bound : ∀ id ∈ shader.globals, id < shader.vars.size) :
    shader.populateSymbols.Coherent := by
  have empty : shader.Tells [] {} := by
    refine ⟨by simp, ?_, ?_⟩
    · rintro name id ⟨⟩
    · rintro name id ⟨⟩
  have tells : shader.Tells ([] ++ shader.topLevel) _ := enterSymbols_tells empty
  rw [List.nil_append] at tells
  refine ⟨bound, ?_, ?_, ?_⟩
  · exact fun id global declared found => tells.known id (mem_globals.mp global) declared found
  · intro name id named
    obtain ⟨listed, rest⟩ := tells.variable_of named
    exact ⟨mem_globals.mpr listed, rest⟩
  · intro name id named
    obtain ⟨listed, rest⟩ := tells.function_of named
    exact ⟨mem_declaredFunctions.mpr listed, rest⟩

end Shader
end StageLink
