import StageLink.Proofs.Nodes

/-!
# What having no problems means

A shader has no problems exactly if its declarations are distinct and point to variables, its
declared functions exist, its places lie in variables that are declared somewhere or are parameters,
its callees exist, and its jumps lie in loops.
-/

namespace StageLink

theorem declarationProblems_eq_nil {vars : Arena Variable} {seen ids : List VariableId} :
    declarationProblems vars seen ids = [] ↔
      (∀ id ∈ ids, id < vars.size) ∧ ids.Nodup ∧ ∀ id ∈ ids, id ∉ seen := by
  induction ids generalizing seen with
  | nil => simp [declarationProblems]
  | cons id ids ih =>
      rw [declarationProblems]
      cases found : vars.get? id with
      | none =>
          have outside : ¬ id < vars.size :=
            Nat.not_lt_of_le ((Arena.get?_eq_none_iff vars id).mp found)
          simp [outside]
      | some declared =>
          have inside := Arena.lt_of_get? found
          by_cases known : id ∈ seen
          · simp [known]
          · simp only [List.contains_eq_mem, known, decide_false, Bool.false_eq_true, if_false, ih,
              List.mem_cons, not_or, List.nodup_cons, forall_eq_or_imp]
            constructor
            · rintro ⟨bound, distinct, others⟩
              exact ⟨⟨inside, bound⟩, ⟨fun listed => (others id listed).1 rfl, distinct⟩,
                fun same => same, fun other listed => (others other listed).2⟩
            · rintro ⟨⟨-, bound⟩, ⟨fresh, distinct⟩, -, unseen⟩
              refine ⟨bound, distinct, fun other listed => ⟨?_, unseen other listed⟩⟩
              rintro rfl
              exact fresh listed

namespace Shader

/-- Uses are sound: places lie in known variables and callees exist. -/
def UsesKnown (shader : Shader) (known : List VariableId) (nodes : List Node) : Prop :=
  (∀ id, Node.place (.whole id) ∈ nodes → id < shader.vars.size ∧ id ∈ known) ∧
    ∀ callee arguments result, Node.instruction (.call callee arguments result) ∈ nodes →
      ∃ function, shader.functions.get? callee.function = some function ∧
        callee.signature < function.signatures.length

theorem calleeProblem?_eq_none {shader : Shader} {callee : Callee} :
    shader.calleeProblem? callee = none ↔
      ∃ function, shader.functions.get? callee.function = some function ∧
        callee.signature < function.signatures.length := by
  unfold calleeProblem?
  cases shader.functions.get? callee.function with
  | none => simp
  | some function => simp

section Uses

variable {shader : Shader} {known : List VariableId} {nodes : List Node}

theorem usesKnown_whole {id : VariableId} :
    shader.UsesKnown known (.place (.whole id) :: nodes) ↔
      (id < shader.vars.size ∧ id ∈ known) ∧ shader.UsesKnown known nodes := by
  simp [UsesKnown, and_assoc]

theorem usesKnown_call {callee : Callee} {arguments : List Expr} {result : Option Place} :
    shader.UsesKnown known (.instruction (.call callee arguments result) :: nodes) ↔
      (∃ function, shader.functions.get? callee.function = some function ∧
        callee.signature < function.signatures.length) ∧ shader.UsesKnown known nodes := by
  simp only [UsesKnown, List.mem_cons, reduceCtorEq, false_or, Node.instruction.injEq,
    Instruction.call.injEq]
  constructor
  · rintro ⟨places, callees⟩
    exact ⟨callees callee arguments result (.inl ⟨rfl, rfl, rfl⟩), places,
      fun other _ _ later => callees other _ _ (.inr later)⟩
  · rintro ⟨callee_there, places, callees⟩
    refine ⟨places, fun other arguments' result' listed => ?_⟩
    rcases listed with ⟨rfl, -, -⟩ | later
    · exact callee_there
    · exact callees other arguments' result' later

/-- Other nodes use nothing. -/
theorem usesKnown_other {node : Node} (no_place : ∀ id, node ≠ .place (.whole id))
    (no_call : ∀ callee arguments result, node ≠ .instruction (.call callee arguments result)) :
    shader.UsesKnown known (node :: nodes) ↔ shader.UsesKnown known nodes := by
  simp [UsesKnown, (no_place _).symm, (no_call _ _ _).symm]

theorem useProblems_eq_nil :
    shader.useProblems known [] nodes = [] ↔ shader.UsesKnown known nodes := by
  induction nodes with
  | nil => simp [useProblems, UsesKnown]
  | cons node nodes ih =>
      cases node with
      | expr expression =>
          rw [useProblems, usesKnown_other (by simp) (by simp)]
          · exact ih
          all_goals simp
      | instruction instruction =>
          cases instruction with
          | call callee arguments result =>
              rw [useProblems, List.append_eq_nil_iff, ih, Option.toList_eq_nil_iff,
                calleeProblem?_eq_none, usesKnown_call]
          | _ =>
              rw [useProblems, usesKnown_other (by simp) (by simp)]
              · exact ih
              all_goals simp
      | place place =>
          cases place with
          | whole id =>
              rw [useProblems, usesKnown_whole]
              cases found : shader.vars.get? id with
              | none =>
                  have outside : ¬ id < shader.vars.size :=
                    Nat.not_lt_of_le ((Arena.get?_eq_none_iff shader.vars id).mp found)
                  simp [outside]
              | some declared =>
                  have inside := Arena.lt_of_get? found
                  by_cases is_known : id ∈ known <;> simp [is_known, inside, ih]
          | _ =>
              rw [useProblems, usesKnown_other (by simp) (by simp)]
              · exact ih
              all_goals simp

end Uses

/-- The parameters of the functions that a shader declares, in order of declaration. -/
def declaredParameters (shader : Shader) : List VariableId :=
  shader.declaredFunctions.flatMap fun id => (shader.signaturesOf id).flatMap (·.parameters)

/-- What it means for a shader to have no problems. -/
structure NoProblems (shader : Shader) : Prop where
  bound : ∀ id ∈ declaredIn shader.nodes, id < shader.vars.size
  distinct : (declaredIn shader.nodes).Nodup
  functions : ∀ id ∈ shader.declaredFunctions, id < shader.functions.size
  uses : shader.UsesKnown (declaredIn shader.nodes ++ shader.declaredParameters) shader.nodes
  jumps : Block.orphanedJumps false shader.topLevel = []
  body_jumps : ∀ id ∈ shader.declaredFunctions, ∀ signature ∈ shader.signaturesOf id,
    Block.orphanedJumps false signature.body = []

theorem problems_eq_nil {shader : Shader} : shader.problems = [] ↔ shader.NoProblems := by
  simp only [problems, List.append_eq_nil_iff, declarationProblems_eq_nil, useProblems_eq_nil,
    List.filterMap_eq_nil_iff, List.flatMap_eq_nil_iff, List.mem_flatMap]
  constructor
  · rintro ⟨⟨⟨⟨⟨bound, distinct, -⟩, functions⟩, uses⟩, jumps⟩, body_jumps⟩
    refine ⟨bound, distinct, fun id listed => ?_, uses, jumps, fun id listed signature inside => ?_⟩
    · simpa [Arena.contains] using functions id listed
    · exact body_jumps signature ⟨id, listed, inside⟩
  · rintro ⟨bound, distinct, functions, uses, jumps, body_jumps⟩
    refine ⟨⟨⟨⟨⟨bound, distinct, by simp⟩, fun id listed => ?_⟩, uses⟩, jumps⟩, ?_⟩
    · simpa [Arena.contains] using functions id listed
    · rintro signature ⟨id, listed, inside⟩
      exact body_jumps id listed signature inside

/-! ## What problems depend on -/

theorem insideFunction_congr {shader other : Shader} (same : other.functions = shader.functions) :
    ∀ depth, other.insideFunction depth = shader.insideFunction depth
  | 0 => rfl
  | depth + 1 => by
      funext id
      simp only [insideFunction, signaturesOf, same, insideFunction_congr same depth]

theorem nodes_congr {shader other : Shader} (functions : other.functions = shader.functions)
    (topLevel : other.topLevel = shader.topLevel) : other.nodes = shader.nodes := by
  rw [Shader.nodes, Shader.nodes, insideFunction_congr functions, functions, topLevel]

/-- A shader with the same variables, functions and instructions has no problems either. -/
theorem NoProblems.congr {shader other : Shader} (sound : shader.NoProblems)
    (vars : other.vars = shader.vars) (functions : other.functions = shader.functions)
    (topLevel : other.topLevel = shader.topLevel) : other.NoProblems := by
  have nodes := nodes_congr functions topLevel
  have declared : other.declaredFunctions = shader.declaredFunctions := by
    rw [declaredFunctions, topLevel, declaredFunctions]
  have signatures : ∀ id, other.signaturesOf id = shader.signaturesOf id := fun id => by
    rw [signaturesOf, functions, signaturesOf]
  have parameters : other.declaredParameters = shader.declaredParameters := by
    rw [declaredParameters, declared, declaredParameters]
    simp only [signatures]
  refine ⟨?_, ?_, ?_, ?_, ?_, ?_⟩
  · exact nodes ▸ vars ▸ sound.bound
  · exact nodes ▸ sound.distinct
  · exact declared ▸ functions ▸ sound.functions
  · rw [UsesKnown, nodes, parameters, vars, functions]
    exact sound.uses
  · exact topLevel ▸ sound.jumps
  · rw [declared]
    exact fun id listed => signatures id ▸ sound.body_jumps id listed

end Shader
end StageLink
