import StageLink.Proofs.Libraries
import StageLink.Proofs.Problems
import StageLink.Proofs.Slots
import StageLink.Proofs.Whereabouts

/-!
# Problems are exact

The problems of a shader are found in several passes over its nodes, which share what they have come
upon, and in one over its instruction lists.  Here they are said without passes, by the addresses of
what is wrong: a problem is listed exactly if the shader suffers from it.  So a shader has no
problems exactly if its handles point somewhere, no variable is declared twice, places lie in
variables that are declared or parameters, callees have the signatures that are called, and jumps
are in loops; and whatever of this fails, there is a problem of its kind: `Shader.problems_exact`.
-/

namespace StageLink

theorem Arena.not_lt_iff {Entry : Type} {arena : Arena Entry} {position : Nat} :
    ¬ position < arena.size ↔ arena.get? position = none := by
  rw [Nat.not_lt, get?_eq_none_iff]

/-! ## Declarations and uses -/

def Node.declared? : Node → Option VariableId
  | .instruction (.declare id) => some id
  | _ => none

@[simp]
theorem Node.declared?_eq_some {node : Node} {id : VariableId} :
    node.declared? = some id ↔ node = .instruction (.declare id) := by
  unfold Node.declared?
  split <;> simp_all

/-- The problems with declarations are the handles that point nowhere and the variables that come
again. -/
theorem mem_declarationProblems {vars : Arena Variable} {seen ids : List VariableId}
    {problem : Problem} :
    problem ∈ declarationProblems vars seen ids ↔
      (∃ id ∈ ids, vars.get? id = none ∧ problem = .badHandle id vars.size) ∨
      ∃ id declared, vars.get? id = some declared ∧ problem = .duplicateDeclaration declared.name ∧
        (ids.Duplicate id ∨ id ∈ ids ∧ id ∈ seen) := by
  induction ids generalizing seen with
  | nil => simp [declarationProblems, List.not_duplicate_nil]
  | cons first ids ih =>
      rw [declarationProblems]
      cases found : vars.get? first with
      | none =>
          rw [List.mem_cons, ih]
          grind [List.duplicate_cons_iff]
      | some declared =>
          by_cases known : first ∈ seen
          · simp only [List.contains_eq_mem, known, decide_true, if_true, List.mem_cons, ih]
            grind [List.duplicate_cons_iff]
          · simp only [List.contains_eq_mem, known, decide_false, Bool.false_eq_true, if_false, ih]
            grind [List.duplicate_cons_iff]

namespace Shader

variable {shader : Shader}

/-- A problem with a node that uses a variable or a function, but for what has been reported. -/
inductive Misuses (shader : Shader) (known reported : List VariableId) : Node → Problem → Prop
  | dangling {id : VariableId} (absent : shader.vars.get? id = none) :
      Misuses shader known reported (.place (.whole id)) (.badHandle id shader.vars.size)
  | undeclared {id : VariableId} {declared : Variable} (found : shader.vars.get? id = some declared)
      (unknown : id ∉ known) (unreported : id ∉ reported) :
      Misuses shader known reported (.place (.whole id)) (.undeclaredVariable declared.name)
  | callee {callee : Callee} {arguments : List Expr} {result : Option Place} {problem : Problem}
      (wrong : shader.calleeProblem? callee = some problem) :
      Misuses shader known reported (.instruction (.call callee arguments result)) problem

section Uses

variable {known reported : List VariableId} {nodes : List Node} {problem : Problem}

theorem misuses_whole {id : VariableId} :
    shader.Misuses known reported (.place (.whole id)) problem ↔
      (shader.vars.get? id = none ∧ problem = .badHandle id shader.vars.size) ∨
      ∃ declared, shader.vars.get? id = some declared ∧ id ∉ known ∧ id ∉ reported ∧
        problem = .undeclaredVariable declared.name := by
  constructor
  · rintro (absent | ⟨found, unknown, unreported⟩)
    · exact .inl ⟨absent, rfl⟩
    · exact .inr ⟨_, found, unknown, unreported, rfl⟩
  · rintro (⟨absent, rfl⟩ | ⟨declared, found, unknown, unreported, rfl⟩)
    · exact .dangling absent
    · exact .undeclared found unknown unreported

theorem misuses_call {callee : Callee} {arguments : List Expr} {result : Option Place} :
    shader.Misuses known reported (.instruction (.call callee arguments result)) problem ↔
      shader.calleeProblem? callee = some problem := by
  constructor
  · rintro ⟨wrong⟩
    assumption
  · exact .callee

/-- Having reported one variable makes no difference to other problems. -/
theorem misuses_reported {id : VariableId} {declared : Variable}
    (found : shader.vars.get? id = some declared)
    (other : problem ≠ .undeclaredVariable declared.name) {node : Node} :
    shader.Misuses known (id :: reported) node problem ↔
      shader.Misuses known reported node problem := by
  constructor
  · rintro (absent | ⟨found_too, unknown, unreported⟩ | wrong)
    · exact .dangling absent
    · exact .undeclared found_too unknown fun listed => unreported (List.mem_cons_of_mem _ listed)
    · exact .callee wrong
  · rintro (absent | ⟨found_too, unknown, unreported⟩ | wrong)
    · exact .dangling absent
    · apply Misuses.undeclared found_too unknown
      rintro (_ | ⟨_, listed⟩)
      · obtain rfl := Option.some.inj (found.symm.trans found_too)
        exact other rfl
      · exact unreported listed
    · exact .callee wrong

theorem mem_useProblems : problem ∈ shader.useProblems known reported nodes ↔
    ∃ node ∈ nodes, shader.Misuses known reported node problem := by
  induction nodes generalizing reported with
  | nil => simp [useProblems]
  | cons node nodes ih =>
      rw [List.exists_mem_cons_iff]
      cases node with
      | expr expression =>
          rw [useProblems, ih, or_iff_right (by rintro ⟨⟩)]
          all_goals simp
      | instruction instruction =>
          cases instruction with
          | call callee arguments result =>
              rw [useProblems, List.mem_append, ih, Option.mem_toList, misuses_call]
          | _ =>
              rw [useProblems, ih, or_iff_right (by rintro ⟨⟩)]
              all_goals simp
      | place place =>
          cases place with
          | whole id =>
              rw [useProblems]
              cases found : shader.vars.get? id with
              | none => simp [ih, misuses_whole, found]
              | some declared =>
                  by_cases old : id ∈ known ∨ id ∈ reported
                  · simp only [List.contains_eq_mem, ← Bool.decide_or, old,
                      decide_true, if_true, ih]
                    rw [or_iff_right]
                    rw [misuses_whole]
                    grind
                  · have here : shader.Misuses known reported (.place (.whole id)) problem ↔
                        problem = .undeclaredVariable declared.name := by
                      rw [misuses_whole]
                      grind
                    simp only [List.contains_eq_mem, ← Bool.decide_or, old, decide_false,
                      Bool.false_eq_true, if_false]
                    rw [here, List.mem_cons, ih]
                    -- From here on the variable counts as reported, which hides no problem but the
                    -- one that has just been listed.
                    by_cases other : problem = .undeclaredVariable declared.name
                    · simp [other]
                    · simp only [misuses_reported found other]
          | _ =>
              rw [useProblems, ih, or_iff_right (by rintro ⟨⟩)]
              all_goals simp

end Uses

end Shader

/-! ## Jumps -/

def Instruction.jumpWord? : Instruction → Option String
  | .leave => some "break"
  | .next => some "continue"
  | _ => none

namespace TreePart

/-- There is a jump at some address and no loop on the way down to it. -/
inductive Orphans (part : TreePart) : Problem → Prop
  | jump {address : Address} {jump : Instruction} {word : String}
      (there : part.at? address = some (.instruction jump)) (jumps : jump.jumpWord? = some word)
      (loose : ∀ outer body, outer <+: address →
        part.at? outer ≠ some (.instruction (.loop body))) :
      Orphans part (.orphanedJump word)

/-- A jump without a loop is the part itself, or inside one of the inner parts if the part is no
loop. -/
theorem orphans_iff {part : TreePart} {problem : Problem} :
    part.Orphans problem ↔ (∀ body, part ≠ .instruction (.loop body)) ∧
      ((∃ jump word, part = .instruction jump ∧ jump.jumpWord? = some word ∧
          problem = .orphanedJump word) ∨
        ∃ inside ∈ part.inner, inside.Orphans problem) := by
  constructor
  · rintro @⟨address, jump, word, there, jumps, loose⟩
    refine ⟨fun body is_loop => loose [] body List.nil_prefix (by rw [is_loop, at?_nil]), ?_⟩
    cases address with
    | nil =>
        have here := Option.some.inj there
        exact .inl ⟨jump, word, here, jumps, rfl⟩
    | cons position rest =>
        obtain ⟨inside, listed, below⟩ := Option.bind_eq_some_iff.mp there
        refine .inr ⟨inside, List.mem_of_getElem? listed, .jump below jumps ?_⟩
        intro outer body on_the_way is_loop
        apply loose (position :: outer) body (List.cons_prefix_cons.mpr ⟨rfl, on_the_way⟩)
        rw [at?_cons, listed, Option.bind_some, is_loop]
  · rintro ⟨no_loop, ⟨jump, word, rfl, jumps, rfl⟩ |
      ⟨inside, listed, @⟨rest, jump, word, below, jumps, loose⟩⟩⟩
    · apply Orphans.jump (at?_nil _) jumps
      intro outer body on_the_way is_loop
      obtain rfl := List.prefix_nil.mp on_the_way
      exact no_loop body (Option.some.inj is_loop)
    · obtain ⟨position, found⟩ := List.mem_iff_getElem?.mp listed
      have there : part.at? (position :: rest) = some (.instruction jump) := by
        rw [at?_cons, found]
        exact below
      apply Orphans.jump there jumps
      intro outer body on_the_way is_loop
      cases outer with
      | nil => exact no_loop body (Option.some.inj is_loop)
      | cons other outer =>
          obtain ⟨rfl, further⟩ := List.cons_prefix_cons.mp on_the_way
          rw [at?_cons, found] at is_loop
          exact loose outer body further is_loop

/-- Operands hold no jumps. -/
theorem not_orphans_of_isOperand {part : TreePart} {problem : Problem} (operand : part.IsOperand) :
    ¬ part.Orphans problem := by
  rintro ⟨there, -, -⟩
  exact isOperand_at? operand there

theorem not_orphans_of_operands {instruction : Instruction} {problem : Problem}
    (no_jump : instruction.jumpWord? = none)
    (operands : ∀ inside ∈ (TreePart.instruction instruction).inner, inside.IsOperand) :
    ¬ (TreePart.instruction instruction).Orphans problem := by
  rw [orphans_iff]
  rintro ⟨-, ⟨jump, word, same, jumps, -⟩ | ⟨inside, listed, below⟩⟩
  · cases same
    rw [no_jump] at jumps
    cases jumps
  · exact not_orphans_of_isOperand (operands inside listed) below

end TreePart

mutual

theorem Instruction.orphanedJumps_inLoop : (instruction : Instruction) →
    instruction.orphanedJumps true = []
  | .branch _ accept reject => by
      rw [Instruction.orphanedJumps, Block.orphanedJumps_inLoop accept,
        Block.orphanedJumps_inLoop reject]
      rfl
  | .loop body => Block.orphanedJumps_inLoop body
  | .leave | .next | .declare _ | .function _ | .assign _ _ _ | .call _ _ _ | .yield _ | .discard
  | .emitVertex | .endPrimitive => rfl

theorem Block.orphanedJumps_inLoop :
    (block : List Instruction) → Block.orphanedJumps true block = []
  | [] => rfl
  | instruction :: rest => by
      rw [Block.orphanedJumps, instruction.orphanedJumps_inLoop, Block.orphanedJumps_inLoop rest]
      rfl

end

mutual

/-- The problems with the jumps of an instruction are the jumps inside it that no loop inside it
holds. -/
theorem Instruction.mem_orphanedJumps {problem : Problem} : (instruction : Instruction) →
    (problem ∈ instruction.orphanedJumps false ↔ (TreePart.instruction instruction).Orphans problem)
  | .leave => by
      rw [TreePart.orphans_iff]
      simp [Instruction.orphanedJumps, TreePart.inner, Instruction.jumpWord?]
  | .next => by
      rw [TreePart.orphans_iff]
      simp [Instruction.orphanedJumps, TreePart.inner, Instruction.jumpWord?]
  | .branch condition accept reject => by
      have no_jump : ¬ (TreePart.expr condition).Orphans problem :=
        TreePart.not_orphans_of_isOperand trivial
      rw [TreePart.orphans_iff, Instruction.orphanedJumps, List.mem_append,
        Block.mem_orphanedJumps accept,
        Block.mem_orphanedJumps reject]
      simp [TreePart.inner, Instruction.jumpWord?, no_jump]
  | .loop body => by
      rw [TreePart.orphans_iff, Instruction.orphanedJumps, Block.orphanedJumps_inLoop]
      simp
  | .assign _ _ _ | .call _ _ _ | .yield _ | .declare _ | .function _ | .discard | .emitVertex
  | .endPrimitive =>
      iff_of_false List.not_mem_nil
        (TreePart.not_orphans_of_operands rfl (by grind [TreePart.inner, TreePart.IsOperand]))

theorem Block.mem_orphanedJumps {problem : Problem} : (block : List Instruction) →
    (problem ∈ Block.orphanedJumps false block ↔ (TreePart.block block).Orphans problem)
  | [] => by
      rw [TreePart.orphans_iff]
      simp [Block.orphanedJumps, TreePart.inner]
  | instruction :: rest => by
      have tail : problem ∈ Block.orphanedJumps false rest ↔
        (TreePart.block rest).Orphans problem :=
        Block.mem_orphanedJumps rest
      rw [TreePart.orphans_iff] at tail ⊢
      rw [Block.orphanedJumps, List.mem_append, instruction.mem_orphanedJumps, tail]
      simp [TreePart.inner]

end

namespace Shader

variable {shader : Shader}

/-! ## What a shader suffers from -/

/-- What is wrong with a shader, and where. -/
inductive Suffers (shader : Shader) : Problem → Prop
  | declaration {id : VariableId} (there : shader.Visits (.instruction (.declare id)))
      (absent : shader.vars.get? id = none) : Suffers shader (.badHandle id shader.vars.size)
  | twice {id : VariableId} {declared : Variable} {address other : Address}
      (found : shader.vars.get? id = some declared) (apart : address ≠ other)
      (there : shader.partAt? address = some (.instruction (.declare id)))
      (there_too : shader.partAt? other = some (.instruction (.declare id))) :
      Suffers shader (.duplicateDeclaration declared.name)
  | function {id : FunctionId} (declared : id ∈ shader.declaredFunctions)
      (absent : shader.functions.get? id = none) :
      Suffers shader (.badHandle id shader.functions.size)
  | place {id : VariableId} (there : shader.Visits (.place (.whole id)))
      (absent : shader.vars.get? id = none) : Suffers shader (.badHandle id shader.vars.size)
  | undeclared {id : VariableId} {declared : Variable} (there : shader.Visits (.place (.whole id)))
      (found : shader.vars.get? id = some declared)
      (nowhere : ¬ shader.Visits (.instruction (.declare id)))
      (no_parameter : id ∉ shader.declaredParameters) :
      Suffers shader (.undeclaredVariable declared.name)
  | callee {callee : Callee} {arguments : List Expr} {result : Option Place}
      (there : shader.Visits (.instruction (.call callee arguments result)))
      (absent : shader.functions.get? callee.function = none) :
      Suffers shader (.badHandle callee.function shader.functions.size)
  | signature {callee : Callee} {arguments : List Expr} {result : Option Place}
      {function : Function}
      (there : shader.Visits (.instruction (.call callee arguments result)))
      (found : shader.functions.get? callee.function = some function)
      (beyond : function.signatures.length ≤ callee.signature) :
      Suffers shader (.badSignature function.name callee.signature)
  | jump {address : Address} {jump : Instruction} {word : String}
      (there : shader.partAt? address = some (.instruction jump))
      (jumps : jump.jumpWord? = some word)
      (loose : ∀ outer body, outer <+: address →
        shader.partAt? outer ≠ some (.instruction (.loop body))) :
      Suffers shader (.orphanedJump word)

section Listing

variable {problem : Problem}

theorem declaredIn_eq (nodes : List Node) : declaredIn nodes = nodes.filterMap Node.declared? := rfl

/-- A declaration comes again among the nodes if there are two addresses of it. -/
theorem duplicate_declaredIn (on_top : shader.FunctionsOnTop) {id : VariableId} :
    (declaredIn shader.nodes).Duplicate id ↔ ∃ address other, address ≠ other ∧
      shader.partAt? address = some (.instruction (.declare id)) ∧
      shader.partAt? other = some (.instruction (.declare id)) := by
  have views : ∀ address,
    ((shader.partAt? address).bind TreePart.node?).bind Node.declared? = some id ↔
      shader.partAt? address = some (.instruction (.declare id)) := by
    intro address
    simp [Option.bind_eq_some_iff]
  -- The nodes are those of the lists in another order, so each occurs as often.
  have same := (nodes_perm on_top).filterMap Node.declared?
  have listed := shader.tour_listedNodes.filterMap Node.declared?
  rw [declaredIn_eq, List.duplicate_iff_two_le_count, same.count_eq,
    ← List.duplicate_iff_two_le_count,
    listed.duplicate_iff partByPart_outsideFirst]
  simp only [views]

theorem calleeProblem?_eq_some {callee : Callee} :
    shader.calleeProblem? callee = some problem ↔
      (shader.functions.get? callee.function = none ∧
        problem = .badHandle callee.function shader.functions.size) ∨
      ∃ function, shader.functions.get? callee.function = some function ∧
        function.signatures.length ≤ callee.signature ∧
        problem = .badSignature function.name callee.signature := by
  unfold calleeProblem?
  cases shader.functions.get? callee.function with
  | none => simp [eq_comm]
  | some function =>
      by_cases beyond : function.signatures.length ≤ callee.signature <;> simp [beyond, eq_comm]

theorem orphans_visitedBodies :
    (∃ body ∈ shader.visitedBodies, (TreePart.block body).Orphans problem) ↔
      ∃ address jump word, shader.partAt? address = some (.instruction jump) ∧
        jump.jumpWord? = some word ∧ problem = .orphanedJump word ∧
        ∀ outer body, outer <+: address →
          shader.partAt? outer ≠ some (.instruction (.loop body)) := by
  constructor
  · rintro ⟨body, listed, @⟨rest, jump, word, there, jumps, loose⟩⟩
    obtain ⟨position, found⟩ := List.mem_iff_getElem?.mp listed
    refine ⟨position :: rest, jump, word, ?_, jumps, rfl, ?_⟩
    · rw [partAt?, found]
      exact there
    · intro outer inner on_the_way is_loop
      cases outer with
      | nil => cases is_loop
      | cons other outer =>
          obtain ⟨rfl, further⟩ := List.cons_prefix_cons.mp on_the_way
          rw [partAt?, found] at is_loop
          exact loose outer inner further is_loop
  · rintro ⟨address, jump, word, there, jumps, rfl, loose⟩
    obtain ⟨position, rest, body, rfl, found, below⟩ := partAt?_eq_some.mp there
    refine ⟨body, List.mem_of_getElem? found, .jump below jumps ?_⟩
    intro outer inner on_the_way is_loop
    apply loose (position :: outer) inner (List.cons_prefix_cons.mpr ⟨rfl, on_the_way⟩)
    rw [partAt?, found]
    exact is_loop

/-- The lists in which jumps are looked for are those of the shader. -/
theorem mem_jumpProblems : problem ∈ Block.orphanedJumps false shader.topLevel ++
      (shader.declaredFunctions.flatMap shader.signaturesOf).flatMap
        (fun signature => Block.orphanedJumps false signature.body) ↔
    ∃ body ∈ shader.visitedBodies, (TreePart.block body).Orphans problem := by
  simp only [List.mem_append, List.mem_flatMap, mem_visitedBodies, Block.mem_orphanedJumps]
  grind

/-- The problems, pass by pass. -/
theorem mem_problems_passes : problem ∈ shader.problems ↔
    problem ∈ declarationProblems shader.vars [] (declaredIn shader.nodes) ∨
    (∃ id ∈ shader.declaredFunctions, shader.functions.get? id = none ∧
      problem = .badHandle id shader.functions.size) ∨
    (∃ node ∈ shader.nodes,
      shader.Misuses (declaredIn shader.nodes ++ shader.declaredParameters) [] node problem) ∨
    ∃ body ∈ shader.visitedBodies, (TreePart.block body).Orphans problem := by
  have functions : problem ∈ (shader.declaredFunctions.filterMap fun id =>
        if shader.functions.contains id then none else some (.badHandle id shader.functions.size)) ↔
      ∃ id ∈ shader.declaredFunctions, shader.functions.get? id = none ∧
        problem = .badHandle id shader.functions.size := by
    rw [List.mem_filterMap]
    apply exists_congr
    intro id
    rw [Arena.get?_eq_none_iff]
    by_cases inside : id < shader.functions.size
    · simp [Arena.contains, inside, Nat.not_le.mpr inside]
    · simp [Arena.contains, inside, Nat.not_lt.mp inside, eq_comm]
  rw [← mem_jumpProblems, ← mem_useProblems, ← functions, ← List.mem_append, ← List.mem_append,
    ← List.mem_append, problems]
  simp only [List.append_assoc]
  rfl

theorem mem_problems (on_top : shader.FunctionsOnTop) :
    problem ∈ shader.problems ↔ shader.Suffers problem := by
  rw [mem_problems_passes, mem_declarationProblems, orphans_visitedBodies]
  constructor
  · rintro ((⟨id, declared, absent, rfl⟩ | ⟨id, declared, found, rfl, twice | ⟨-, nowhere⟩⟩) |
      ⟨id, declared, absent, rfl⟩ | ⟨node, listed, misuse⟩ |
      ⟨address, jump, word, there, jumps, rfl, loose⟩)
    · exact .declaration ((visits_instruction on_top).mpr (mem_declaredIn.mp declared)) absent
    · obtain ⟨address, other, apart, there, there_too⟩ := (duplicate_declaredIn on_top).mp twice
      exact .twice found apart there there_too
    · cases nowhere
    · exact .function declared absent
    · cases misuse with
      | dangling absent => exact .place ((visits_place on_top).mpr listed) absent
      | undeclared found unknown _ =>
          rw [List.mem_append, not_or, mem_declaredIn, ← visits_instruction on_top] at unknown
          exact .undeclared ((visits_place on_top).mpr listed) found unknown.1 unknown.2
      | callee wrong =>
          have there := (visits_instruction on_top).mpr listed
          obtain ⟨absent, rfl⟩ | ⟨function, found, beyond, rfl⟩ := calleeProblem?_eq_some.mp wrong
          · exact .callee there absent
          · exact .signature there found beyond
    · exact .jump there jumps loose
  · rintro (⟨there, absent⟩ | ⟨found, apart, there, there_too⟩ | ⟨declared, absent⟩ |
      ⟨there, absent⟩ | ⟨there, found, nowhere, no_parameter⟩ | ⟨there, absent⟩ |
      ⟨there, found, beyond⟩ | ⟨there, jumps, loose⟩)
    · have declared := mem_declaredIn.mpr ((visits_instruction on_top).mp there)
      exact .inl (.inl ⟨_, declared, absent, rfl⟩)
    · have twice := (duplicate_declaredIn on_top).mpr ⟨_, _, apart, there, there_too⟩
      exact .inl (.inr ⟨_, _, found, rfl, .inl twice⟩)
    · exact .inr (.inl ⟨_, declared, absent, rfl⟩)
    · exact .inr (.inr (.inl ⟨_, (visits_place on_top).mp there, .dangling absent⟩))
    · rw [visits_instruction on_top, ← mem_declaredIn] at nowhere
      refine .inr
        (.inr (.inl ⟨_, (visits_place on_top).mp there, .undeclared found ?_ List.not_mem_nil⟩))
      rw [List.mem_append, not_or]
      exact ⟨nowhere, no_parameter⟩
    · have wrong := calleeProblem?_eq_some.mpr (.inl ⟨absent, rfl⟩)
      exact .inr (.inr (.inl ⟨_, (visits_instruction on_top).mp there, .callee wrong⟩))
    · have wrong := calleeProblem?_eq_some.mpr (.inr ⟨_, found, beyond, rfl⟩)
      exact .inr (.inr (.inl ⟨_, (visits_instruction on_top).mp there, .callee wrong⟩))
    · exact .inr (.inr (.inr ⟨_, _, _, there, jumps, rfl, loose⟩))

end Listing

/-! ## Having no problems -/

/-- All handles in the lists of a shader point into its arenas. -/
structure HandlesFound (shader : Shader) : Prop where
  declarations : ∀ id, shader.Visits (.instruction (.declare id)) → id < shader.vars.size
  places : ∀ id, shader.Visits (.place (.whole id)) → id < shader.vars.size
  functions : ∀ id ∈ shader.declaredFunctions, id < shader.functions.size
  callees : ∀ callee arguments result,
    shader.Visits (.instruction (.call callee arguments result)) →
    callee.function < shader.functions.size

/-- No variable is declared at two addresses. -/
def DeclaredOnce (shader : Shader) : Prop :=
  ∀ id declared address other, shader.vars.get? id = some declared →
    shader.partAt? address = some (.instruction (.declare id)) →
    shader.partAt? other = some (.instruction (.declare id)) → address = other

/-- A variable that is a place is declared somewhere, or it is a parameter of a declared
function. -/
def PlacesDeclared (shader : Shader) : Prop :=
  ∀ id declared, shader.vars.get? id = some declared → shader.Visits (.place (.whole id)) →
    shader.Visits (.instruction (.declare id)) ∨ id ∈ shader.declaredParameters

def SignaturesFound (shader : Shader) : Prop :=
  ∀ callee arguments result function, shader.functions.get? callee.function = some function →
    shader.Visits (.instruction (.call callee arguments result)) →
    callee.signature < function.signatures.length

/-- On the way down to a jump there is a loop, which is in the same list as the address begins
with. -/
def JumpsInLoops (shader : Shader) : Prop :=
  ∀ address jump, shader.partAt? address = some (.instruction jump) → jump.jumpWord? ≠ none →
    ∃ outer body, outer <+: address ∧ shader.partAt? outer = some (.instruction (.loop body))

theorem badHandle_listed (on_top : shader.FunctionsOnTop) :
    (∃ index size, Problem.badHandle index size ∈ shader.problems) ↔ ¬ shader.HandlesFound := by
  simp only [mem_problems on_top]
  constructor
  · rintro ⟨index, size, suffers⟩ found
    cases suffers with
    | declaration there absent => exact Arena.not_lt_iff.mpr absent (found.declarations _ there)
    | function declared absent => exact Arena.not_lt_iff.mpr absent (found.functions _ declared)
    | place there absent => exact Arena.not_lt_iff.mpr absent (found.places _ there)
    | callee there absent => exact Arena.not_lt_iff.mpr absent (found.callees _ _ _ there)
  · intro not_found
    by_contra none_listed
    apply not_found
    constructor
    · intro id there
      by_contra beyond
      exact none_listed ⟨_, _, .declaration there (Arena.not_lt_iff.mp beyond)⟩
    · intro id there
      by_contra beyond
      exact none_listed ⟨_, _, .place there (Arena.not_lt_iff.mp beyond)⟩
    · intro id declared
      by_contra beyond
      exact none_listed ⟨_, _, .function declared (Arena.not_lt_iff.mp beyond)⟩
    · intro callee arguments result there
      by_contra beyond
      exact none_listed ⟨_, _, .callee there (Arena.not_lt_iff.mp beyond)⟩

theorem duplicateDeclaration_listed (on_top : shader.FunctionsOnTop) :
    (∃ name, Problem.duplicateDeclaration name ∈ shader.problems) ↔ ¬ shader.DeclaredOnce := by
  simp only [mem_problems on_top]
  constructor
  · rintro ⟨name, suffers⟩ once
    cases suffers with
    | twice found apart there there_too => exact apart (once _ _ _ _ found there there_too)
  · intro not_once
    simp only [DeclaredOnce, not_forall] at not_once
    obtain ⟨id, declared, address, other, found, there, there_too, apart⟩ := not_once
    exact ⟨declared.name, .twice found apart there there_too⟩

theorem undeclaredVariable_listed (on_top : shader.FunctionsOnTop) :
    (∃ name, Problem.undeclaredVariable name ∈ shader.problems) ↔ ¬ shader.PlacesDeclared := by
  simp only [mem_problems on_top]
  constructor
  · rintro ⟨name, suffers⟩ placed
    cases suffers with
    | undeclared there found nowhere no_parameter =>
        exact (placed _ _ found there).elim nowhere no_parameter
  · intro not_placed
    simp only [PlacesDeclared, not_forall, not_or] at not_placed
    obtain ⟨id, declared, found, there, nowhere, no_parameter⟩ := not_placed
    exact ⟨declared.name, .undeclared there found nowhere no_parameter⟩

theorem badSignature_listed (on_top : shader.FunctionsOnTop) :
    (∃ function signature, Problem.badSignature function signature ∈ shader.problems) ↔
      ¬ shader.SignaturesFound := by
  simp only [mem_problems on_top]
  constructor
  · rintro ⟨function, signature, suffers⟩ all_found
    cases suffers with
    | signature there found beyond => exact Nat.not_lt.mpr beyond (all_found _ _ _ _ found there)
  · intro not_found
    simp only [SignaturesFound, not_forall, Nat.not_lt] at not_found
    obtain ⟨callee, arguments, result, function, found, there, beyond⟩ := not_found
    exact ⟨function.name, callee.signature, .signature there found beyond⟩

theorem orphanedJump_listed (on_top : shader.FunctionsOnTop) :
    (∃ word, Problem.orphanedJump word ∈ shader.problems) ↔ ¬ shader.JumpsInLoops := by
  simp only [mem_problems on_top]
  constructor
  · rintro ⟨word, suffers⟩ in_loops
    cases suffers with
    | jump there jumps loose =>
        obtain ⟨outer, body, on_the_way, is_loop⟩ := in_loops _ _ there (by simp [jumps])
        exact loose outer body on_the_way is_loop
  · intro not_in_loops
    simp only [JumpsInLoops, not_forall, not_exists, not_and] at not_in_loops
    obtain ⟨address, jump, there, jumps, loose⟩ := not_in_loops
    obtain ⟨word, is_word⟩ := Option.ne_none_iff_exists'.mp jumps
    exact ⟨word, .jump there is_word loose⟩

/-- Where functions are declared only at the top level, a shader has no problems exactly if it is
well built, and it has a problem of a kind exactly if what that kind is about fails.  A handle that
points nowhere is neither a variable nor a function, and so its problem is that it points
nowhere. -/
theorem problems_exact (on_top : shader.FunctionsOnTop) :
    (shader.problems = [] ↔ shader.HandlesFound ∧ shader.DeclaredOnce ∧ shader.PlacesDeclared ∧
      shader.SignaturesFound ∧ shader.JumpsInLoops) ∧
    ((∃ index size, Problem.badHandle index size ∈ shader.problems) ↔ ¬ shader.HandlesFound) ∧
    ((∃ name, Problem.duplicateDeclaration name ∈ shader.problems) ↔ ¬ shader.DeclaredOnce) ∧
    ((∃ name, Problem.undeclaredVariable name ∈ shader.problems) ↔ ¬ shader.PlacesDeclared) ∧
    ((∃ function signature, Problem.badSignature function signature ∈ shader.problems) ↔
      ¬ shader.SignaturesFound) ∧
    ((∃ word, Problem.orphanedJump word ∈ shader.problems) ↔ ¬ shader.JumpsInLoops) := by
  have handles := badHandle_listed on_top
  have once := duplicateDeclaration_listed on_top
  have declared := undeclaredVariable_listed on_top
  have signatures := badSignature_listed on_top
  have jumps := orphanedJump_listed on_top
  refine ⟨?_, handles, once, declared, signatures, jumps⟩
  constructor
  · intro nothing
    simp only [nothing, List.not_mem_nil, exists_false, false_iff, not_not]
      at handles once declared signatures jumps
    exact ⟨handles, once, declared, signatures, jumps⟩
  · rintro ⟨handles_found, declared_once, places_declared, signatures_found, jumps_in_loops⟩
    rw [List.eq_nil_iff_forall_not_mem]
    intro problem listed
    cases problem with
    | badHandle index size => exact handles.mp ⟨index, size, listed⟩ handles_found
    | undeclaredVariable name => exact declared.mp ⟨name, listed⟩ places_declared
    | badSignature function signature =>
        exact signatures.mp ⟨function, signature, listed⟩ signatures_found
    | orphanedJump word => exact jumps.mp ⟨word, listed⟩ jumps_in_loops
    | duplicateDeclaration name => exact once.mp ⟨name, listed⟩ declared_once

/-- A variable is declared twice and another one not at all, a signature is missing, and one of two
jumps has no loop. -/
def botched : Shader :=
  populateSymbols { ofParts .fragment [.vector "shade" .shaderOut, .vector "ghost" .plain]
      [.ofBody "main" [.declare 0, .copy 0 1, .call ⟨0, 1⟩ [] none, .loop [.leave], .next]] with
    topLevel := [.declare 0, .function 0] }

theorem botched_problems_exact : botched.FunctionsOnTop ∧ botched.HandlesFound ∧
    ¬ botched.DeclaredOnce ∧ ¬ botched.PlacesDeclared ∧ ¬ botched.SignaturesFound ∧
    ¬ botched.JumpsInLoops := by
  have on_top : botched.FunctionsOnTop := by
    have free : ∀ id ∈ botched.declaredFunctions, ∀ signature ∈ botched.signaturesOf id,
        isFunctionFree signature.body = true := by decide +kernel
    exact ⟨functionFree_of_check (by decide +kernel),
      fun id declared signature listed => functionFree_of_check (free id declared signature listed)⟩
  have listed : botched.problems = [.duplicateDeclaration "shade", .undeclaredVariable "ghost",
      .badSignature "main" 1, .orphanedJump "continue"] := by decide +kernel
  obtain ⟨-, handles, once, declared, signatures, jumps⟩ := problems_exact on_top
  simp only [listed] at handles once declared signatures jumps
  exact ⟨on_top, by simpa using handles, once.mp ⟨"shade", by simp⟩, declared.mp ⟨"ghost", by simp⟩,
    signatures.mp ⟨"main", 1, by simp⟩, jumps.mp ⟨"continue", by simp⟩⟩

end Shader
end StageLink
