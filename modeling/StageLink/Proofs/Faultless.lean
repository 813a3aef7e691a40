import StageLink.Proofs.Cloning
import StageLink.Proofs.Nodes

/-!
# Cloning without faults

Cloning follows the handles of the source and looks for signatures in the target.  It does not fault
if the handles of what it clones point somewhere, and neither do the parameters of the functions
that the target declares point nowhere.  Growing keeps the target so.
-/

namespace StageLink
namespace Shader

/-- The symbol table says what its names stand for, and the parameters of declared functions are
variables. -/
structure Sturdy (shader : Shader) : Prop where
  coherent : shader.Coherent
  parameters : ∀ id ∈ shader.declaredFunctions, ∀ signature ∈ shader.signaturesOf id,
    ∀ parameter ∈ signature.parameters, parameter < shader.vars.size

theorem Sturdy.grows {source before after : Shader} {free : VariableId → Prop}
    (sturdy : before.Sturdy) (grows : Grows source free before after) : after.Sturdy where
  coherent := grows.coherent sturdy.coherent
  parameters := by
    intro id is_declared signature listed parameter inside
    obtain ⟨more, extended, announced⟩ := grows.signaturesOf id
    rw [extended] at listed
    rcases List.mem_append.mp listed with old | new
    · rcases grows.mem_declaredFunctions is_declared with was_declared | beyond
      · exact Nat.lt_of_lt_of_le
          (sturdy.parameters id was_declared signature old parameter inside) grows.size_le
      · have none_before : before.signaturesOf id = [] := by
          simp [signaturesOf, (before.functions.get?_eq_none_iff id).mpr beyond]
        rw [none_before] at old
        cases old
    · exact ((announced signature new).parameters parameter inside).2

/-- Looking for a signature of a declared function gives an answer. -/
theorem Sturdy.exists_findSignature {shader : Shader} (sturdy : shader.Sturdy) {name : String}
    {id : FunctionId} (bound : shader.symbols.functions.get? name = some id) (types : List Ty) :
    ∃ answer, shader.findSignature id types = .ok answer := by
  obtain ⟨is_declared, function, found, -⟩ := sturdy.coherent.function_of bound
  have inside := sturdy.parameters id is_declared
  rw [signaturesOf_eq found] at inside
  rw [findSignature_eq found]
  exact exists_findSignatureFrom inside types 0

/-- The variables and callees of some nodes exist in the shader. -/
structure Holds (shader : Shader) (nodes : List Node) : Prop where
  declares : ∀ id, Node.instruction (.declare id) ∈ nodes → id < shader.vars.size
  mentions : ∀ id, Node.place (.whole id) ∈ nodes → id < shader.vars.size
  calls : ∀ callee arguments result, Node.instruction (.call callee arguments result) ∈ nodes →
    shader.HasCallee callee

theorem Holds.mono {shader : Shader} {nodes fewer : List Node} (holds : shader.Holds nodes)
    (among : ∀ node ∈ fewer, node ∈ nodes) : shader.Holds fewer :=
  ⟨fun id listed => holds.declares id (among _ listed),
    fun id listed => holds.mentions id (among _ listed),
    fun callee arguments result listed => holds.calls callee arguments result (among _ listed)⟩

theorem exists_fetchVariable {shader : Shader} {id : VariableId} (inside : id < shader.vars.size) :
    ∃ declared, shader.fetchVariable id = .ok declared := by
  obtain ⟨declared, found⟩ := Arena.exists_get? inside
  exact ⟨declared, fetchVariable_eq_ok.mpr found⟩

theorem HasCallee.exists_at {shader : Shader} {callee : Callee} (has : shader.HasCallee callee) :
    ∃ function signature, shader.functions.get? callee.function = some function ∧
      shader.At callee signature ∧ signature ∈ shader.signaturesOf callee.function := by
  obtain ⟨-, function, found, inside⟩ := has
  have there : shader.At callee function.signatures[callee.signature] := by
    rw [At, signaturesOf_eq found]
    exact List.getElem?_eq_getElem inside
  exact ⟨function, _, found, there, List.mem_of_getElem? there⟩

theorem hasKey_of_hasCallee {shader : Shader} (sturdy : shader.Sturdy) {callee : Callee}
    (has : shader.HasCallee callee) : ∃ name types, shader.HasKey callee name types := by
  obtain ⟨function, signature, found, there, listed⟩ := has.exists_at
  obtain ⟨types, typed⟩ := exists_typesOf (sturdy.parameters _ has.1 signature listed)
  refine ⟨function.name, types, function, signature, found, rfl, ?_, typed⟩
  rw [At, signaturesOf_eq found] at there
  exact there

/-- The shader has what some nodes need to be cloned: their variables, and the signatures they call
with their parameters, declared or not. -/
structure Provides (shader : Shader) (nodes : List Node) : Prop where
  declares : ∀ id, Node.instruction (.declare id) ∈ nodes → id < shader.vars.size
  mentions : ∀ id, Node.place (.whole id) ∈ nodes → id < shader.vars.size
  calls : ∀ callee arguments result, Node.instruction (.call callee arguments result) ∈ nodes →
    ∃ name types, shader.HasKey callee name types

theorem Provides.mono {shader : Shader} {nodes fewer : List Node} (provides : shader.Provides nodes)
    (among : ∀ node ∈ fewer, node ∈ nodes) : shader.Provides fewer :=
  ⟨fun id listed => provides.declares id (among _ listed),
    fun id listed => provides.mentions id (among _ listed),
    fun callee arguments result listed => provides.calls callee arguments result (among _ listed)⟩

theorem Holds.provides {shader : Shader} {nodes : List Node} (holds : shader.Holds nodes)
    (sturdy : shader.Sturdy) : shader.Provides nodes :=
  ⟨holds.declares, holds.mentions, fun callee arguments result listed =>
    hasKey_of_hasCallee sturdy (holds.calls callee arguments result listed)⟩

/-- Only the handles that some nodes hold matter. -/
theorem Provides.of_occurrences {shader : Shader} {nodes others : List Node}
    (provides : shader.Provides nodes) (same : occurrences others = occurrences nodes) :
    shader.Provides others where
  declares id listed := provides.declares id (declares_mem.mp (same ▸ declares_mem.mpr listed))
  mentions id listed := provides.mentions id (mentions_mem.mp (same ▸ mentions_mem.mpr listed))
  calls callee arguments result listed := by
    obtain ⟨arguments', result', there⟩ :=
      calls_mem.mp (same ▸ calls_mem.mpr ⟨arguments, result, listed⟩)
    exact provides.calls callee arguments' result' there

/-- Variables that have types point somewhere. -/
theorem bound_of_typesOf {shader : Shader} {ids : List VariableId} {types : List Ty}
    (typed : shader.typesOf ids = .ok types) : ∀ id ∈ ids, id < shader.vars.size := by
  intro id listed
  obtain ⟨ty, -, declared, found, -⟩ := exists_of_forall₂ (typesOf_eq_ok.mp typed).flip listed
  exact Arena.lt_of_get? found

end Shader

namespace CloneM

open Shader

def sure (source : Shader) : Ensuring CloneM where
  ensures step post := ∀ before : Cloning, before.target.Sturdy → ∃ result after,
    step.run before = .ok (result, after) ∧
      Grows source (fun _ => True) before.target after.target ∧ post result
  pure holds before _ := ⟨_, before, rfl, .refl, holds⟩
  bind := by
    intro _ _ first next middle post first_ensures next_ensures before sturdy
    obtain ⟨part, halfway, runs, grows, holds⟩ := first_ensures before sturdy
    obtain ⟨result, after, runs_on, grows_on, implies⟩ :=
      next_ensures part halfway (sturdy.grows grows)
    refine ⟨result, after, ?_, grows.trans grows_on, implies holds⟩
    rw [StateT.run_bind]
    exact Checked.bind_eq_ok.mpr ⟨(part, halfway), runs, runs_on⟩
  weaken := by
    intro _ _ _ _ implies ensures before sturdy
    obtain ⟨result, after, runs, grows, holds⟩ := ensures before sturdy
    exact ⟨result, after, runs, grows, implies result holds⟩

variable {source : Shader}

theorem sure_variableFor {id : VariableId} (inside : id < source.vars.size) :
    (sure source).ensures (variableFor source id) fun _ => True := by
  intro before sturdy
  obtain ⟨declared, fetched⟩ := exists_fetchVariable inside
  have answers : ∃ result after, (variableFor source id).run before = .ok (result, after) := by
    unfold variableFor
    cases given : before.renamed.lookup id with
    | some counterpart => exact ⟨counterpart, before, by simp [given]⟩
    | none =>
        cases bound : before.target.symbols.vars.get? declared.name with
        | some existing =>
            exact ⟨existing, before, by simp [given, fetched, Checked.ok_bind, bound]⟩
        | none =>
            exact ⟨before.target.vars.size,
              { before with target := before.target.declareFirst declared },
              by simp [given, fetched, Checked.ok_bind, bound, declareFirst, addVariable,
                Shader.addVariable, Shader.declareFirst]⟩
  obtain ⟨result, after, runs⟩ := answers
  have quiet : (quiet source (fun _ => True) after []).ensures (variableFor source id) _ :=
    quiet_variableFor (.inr trivial)
  have steady := (quiet before result after sturdy.coherent (by simp) runs).1
  exact ⟨result, after, runs, steady.grows, trivial⟩

theorem sure_place {nodes : List Node}
    (bound : ∀ id, Node.place (.whole id) ∈ nodes → id < source.vars.size) :
    Faithful (sure source) (place source) (fun _ _ => True) nodes where
  wholes id listed := (sure source).bind (sure_variableFor (bound id listed))
    fun _ => (sure source).pure fun _ => .whole trivial
  parts after part := by
    cases after with
    | whole id => cases part
    | element array index ty => exact (sure source).pure fun _ same => same
    | field record name ty => exact (sure source).pure fun _ same => same

theorem exists_copies {ids : List VariableId} (bound : ∀ id ∈ ids, id < source.vars.size)
    (before : Cloning) :
    ∃ copies after, (ids.mapM (copyVariable source)).run before = .ok (copies, after) := by
  induction ids generalizing before with
  | nil => exact ⟨[], before, rfl⟩
  | cons id ids ih =>
      obtain ⟨declared, fetched⟩ := exists_fetchVariable (bound id (List.mem_cons_self ..))
      let copied : Cloning := { before with target := (before.target.addVariable declared).1 }
      obtain ⟨copies, after, runs⟩ :=
        ih (fun other listed => bound other (List.mem_cons_of_mem id listed)) copied
      refine ⟨(before.target.addVariable declared).2 :: copies, after, ?_⟩
      rw [List.mapM_cons, StateT.run_bind]
      refine Checked.bind_eq_ok.mpr ⟨((before.target.addVariable declared).2, copied), ?_, ?_⟩
      · simp [copyVariable, addVariable, fetched, copied]
      · rw [StateT.run_bind]
        exact Checked.bind_eq_ok.mpr ⟨(copies, after), runs, rfl⟩

theorem exists_announce {function : FunctionId} {entry : Function} {signature : Signature}
    {before : Cloning} (bound : ∀ id ∈ signature.parameters, id < source.vars.size)
    (found : before.target.functions.get? function = some entry) :
    ∃ callee after, (announce source function signature).run before = .ok (callee, after) := by
  obtain ⟨copies, halfway, runs⟩ := exists_copies bound before
  obtain ⟨declared, -, -, rfl⟩ := copies_eq_ok runs
  have fetched : Shader.fetchFunction
      { before.target with vars := before.target.vars.append declared } function = .ok entry :=
    fetchFunction_eq_ok.mpr found
  rw [announce, StateT.run_bind, runs, Checked.ok_bind]
  simp [Shader.addSignature, fetched]

theorem sure_calleeFor {callee : Callee} {name : String} {types : List Ty}
    (has : source.HasKey callee name types) :
    (sure source).ensures (calleeFor source callee) fun _ => True := by
  intro before sturdy
  obtain ⟨original, signature, found, -, there, typed⟩ := has
  have parameters := bound_of_typesOf typed
  have there : source.At callee signature := by rw [At, signaturesOf_eq found, there]
  obtain ⟨function, named, runs_named⟩ : ∃ function named,
      (functionNamed original.name).run before = .ok (function, named) :=
    ⟨_, _, by simp [functionNamed]; exact ⟨rfl, rfl⟩⟩
  obtain ⟨steady, bound, -⟩ : Cloning.Steady source (fun _ => True) before named ∧
      named.target.symbols.functions.get? original.name = some function ∧ _ :=
    functionNamed_eq_ok sturdy.coherent runs_named
  have named_sturdy := sturdy.grows steady.grows
  obtain ⟨answer, answers⟩ := named_sturdy.exists_findSignature bound types
  obtain ⟨-, entry, held, -⟩ := named_sturdy.coherent.function_of bound
  have gives : ∃ counterpart after,
      (calleeFor source callee).run before = .ok (counterpart, after) := by
    cases answer with
    | some position =>
        exact ⟨⟨function, position⟩, named, by
          simp [calleeFor, fetchFunction_eq_ok.mpr found, fetchSignature_eq_ok.mpr there, typed,
            Checked.ok_bind, runs_named, answers]⟩
    | none =>
        obtain ⟨counterpart, after, runs⟩ := exists_announce parameters held
        refine ⟨counterpart, after, ?_⟩
        simp [calleeFor, fetchFunction_eq_ok.mpr found, fetchSignature_eq_ok.mpr there, typed,
          Checked.ok_bind, runs_named, answers, runs]
  obtain ⟨counterpart, after, runs⟩ := gives
  exact ⟨counterpart, after, runs, (calleeFor_eq_ok sturdy.coherent runs).1.grows, trivial⟩

theorem sure_localVariable {id : VariableId} (inside : id < source.vars.size) :
    (sure source).ensures (localVariable source id) fun _ => True := by
  intro before sturdy
  obtain ⟨declared, fetched⟩ := exists_fetchVariable inside
  obtain ⟨copy, after, runs⟩ : ∃ copy after,
      (localVariable source id).run before = .ok (copy, after) := by
    simp [localVariable, copyVariable, addVariable, rename, fetched]
  exact ⟨copy, after, runs, (localVariable_eq_ok sturdy.coherent runs).1.grows, trivial⟩

/-! ## Instruction lists -/

/-- Nothing is said of what is renamed. -/
def anyhow : Renaming where
  declares _ _ := True
  mentions _ _ := True
  functions _ _ := True
  calls _ _ := True

theorem sure_instruction {instruction : Instruction}
    (provides : source.Provides (.instruction instruction :: instruction.operandNodes)) :
    (sure source).ensures (CloneM.instruction source instruction) fun clone =>
      Instruction.Alike anyhow instruction.bare clone.bare := by
  have places := sure_place fun id listed => provides.mentions id (List.mem_cons_of_mem _ listed)
  have others :
    (sure source).ensures (Instruction.mapPlaces (place source) instruction) fun clone =>
      Instruction.Alike anyhow instruction.bare clone.bare :=
    Instruction.mapPlaces_alike _ instruction places (fun _ _ => trivial) (fun _ _ => trivial)
      fun _ _ _ _ => trivial
  cases instruction with
  | declare id =>
      exact (sure source).bind (sure_localVariable (provides.declares id (List.mem_cons_self ..)))
        fun _ => (sure source).pure fun _ => .declare trivial
  | call callee arguments result =>
      obtain ⟨_, _, has⟩ := provides.calls callee arguments result (List.mem_cons_self ..)
      refine (sure source).bind (sure_calleeFor has) fun counterpart => ?_
      have rest : (sure source).ensures
          (Instruction.mapPlaces (place source) (.call counterpart arguments result)) fun clone =>
            Instruction.Alike anyhow
              (Instruction.call counterpart arguments result).bare clone.bare :=
        Instruction.mapPlaces_alike _ _ places (fun _ _ => trivial) (fun _ _ => trivial)
          fun _ _ _ _ => trivial
      refine (sure source).weaken ?_ rest
      intro clone alike _
      cases clone with
      | call _ _ _ =>
          cases alike with
          | call _ arguments_alike result_alike => exact .call trivial arguments_alike result_alike
      | _ => cases alike
  | _ => exact others

/-- Cloning an instruction list whose variables and callees the source has gives a result. -/
theorem exists_block {block : Block} {target : Shader} (renamed : List (VariableId × VariableId))
    (sturdy : target.Sturdy) (provides : source.Provides block.ownNodes) :
    ∃ clone extended, (CloneM.block source block).runOn target renamed = .ok (clone, extended) := by
  have provides_kept := provides.of_occurrences (Block.withoutFunctions_occurrences block)
  have ensured : (sure source).ensures (CloneM.block source block)
      (Block.Alike anyhow (Block.updateBlocks (List.filter isNoFunction) block)) := by
    refine Block.mapInstructions_alike (sure source) _ fun inner listed => ?_
    refine sure_instruction (provides_kept.mono fun node here => ?_)
    rcases List.mem_cons.mp here with rfl | in_operands
    · exact listed
    · exact Block.operands_of_mem _ listed node in_operands
  obtain ⟨clone, final, runs, -, -⟩ := ensured ⟨target, renamed⟩ sturdy
  refine ⟨clone, final.target, ?_⟩
  rw [runOn, runs]
  rfl

end CloneM
end StageLink
