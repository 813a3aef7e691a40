import StageLink.Proofs.CallGraph
import StageLink.Proofs.Enclosure

/-!
# Checks without faults

The checks of a link read the declarations of globals, look for signatures, and go through the nodes
of an executable.  On confined shaders, whose handles all point somewhere, each of them grants or
rejects.
-/

namespace StageLink

open Shader

variable {shader other producer consumer : Shader}

/-! ## Reading declarations -/

namespace Shader

/-- A variable that exists can be read. -/
theorem reads {id : VariableId} (inside : id < shader.vars.size) :
    Judged.Answers (monadLift (shader.fetchVariable id)) fun _ => True :=
  .of_ok (exists_fetchVariable inside)

theorem exists_fetchFunction {id : FunctionId} (inside : id < shader.functions.size) :
    ∃ function, shader.fetchFunction id = .ok function := by
  obtain ⟨function, found⟩ := Arena.exists_get? inside
  exact ⟨function, fetchFunction_eq_ok.mpr found⟩

theorem Confined.exists_globals (confined : shader.Confined) :
    ∃ declared, (shader.globals.mapM fun id => shader.fetchVariable id) = .ok declared :=
  Checked.exists_mapM fun id global => exists_fetchVariable (confined.globals id global)

theorem Confined.reads_globals (confined : shader.Confined) : Judged.Answers
    (shader.globals.mapM fun id => monadLift (shader.fetchVariable id)) fun _ => True :=
  .mapM fun id global => reads (confined.globals id global)

/-- The globals of some shaders exist. -/
theorem bound_of_globals {shaders : List Shader}
    (each : ∀ shader ∈ shaders, ∀ id ∈ shader.globals, id < shader.vars.size) :
    ∀ pair ∈ shaders.flatMap (fun shader => shader.globals.map fun id => (shader, id)),
      pair.2 < pair.1.vars.size := by
  intro pair listed
  obtain ⟨shader, among, inside⟩ := List.mem_flatMap.mp listed
  obtain ⟨id, global, rfl⟩ := List.mem_map.mp inside
  exact each shader among id global

theorem bound_of_confined {shaders : List Shader} (each : ∀ shader ∈ shaders, shader.Confined) :
    ∀ pair ∈ shaders.flatMap (fun shader => shader.globals.map fun id => (shader, id)),
      pair.2 < pair.1.vars.size :=
  bound_of_globals fun shader among => (each shader among).globals

end Shader

/-! ## Declarations and interfaces -/

namespace Declaration

theorem resolveFrom_answers {uniformsOnly : Bool} {pairs : List (Shader × VariableId)}
    (bound : ∀ pair ∈ pairs, pair.2 < pair.1.vars.size) (errors : List LinkError)
    (resolved : Resolutions) :
    (resolveFrom uniformsOnly errors resolved pairs).Answers fun _ => True := by
  induction pairs generalizing errors resolved with
  | nil => exact .andThen (.rejectAll errors) fun _ => .pure trivial
  | cons pair pairs ih =>
      have ih := ih fun other listed => bound other (List.mem_cons_of_mem _ listed)
      refine .andThen (reads (bound pair (List.mem_cons_self ..))) fun declared => ?_
      split
      · split
        · exact ih _ _
        · split
          · exact .throw _
          · exact ih _ _
      · exact ih _ _

theorem resolve_answers {uniformsOnly : Bool} {shaders : List Shader}
    (each : ∀ shader ∈ shaders, shader.Confined) :
    (resolve uniformsOnly shaders).Answers fun _ => True :=
  resolveFrom_answers (bound_of_confined each) _ _

end Declaration

namespace InterfaceBlock

theorem checkUnitsFrom_answers {pairs : List (Shader × VariableId)}
    (bound : ∀ pair ∈ pairs, pair.2 < pair.1.vars.size) (seen : List Sighting) :
    (checkUnitsFrom seen pairs).Answers fun _ => True := by
  induction pairs generalizing seen with
  | nil => exact .pure trivial
  | cons pair pairs ih =>
      have ih := ih fun other listed => bound other (List.mem_cons_of_mem _ listed)
      refine .andThen (reads (bound pair (List.mem_cons_self ..))) fun declared => ?_
      split
      · exact ih _
      · split
        · exact ih _
        · split
          · exact ih _
          · exact .reject _

theorem checkUnits_answers {units : List Shader} (each : ∀ unit ∈ units, unit.Confined) :
    (checkUnits units).Answers fun _ => True := checkUnitsFrom_answers (bound_of_confined each) _

theorem checkInputs_answers (outputs : NameTable Ty) {ids : List VariableId}
    (bound : ∀ id ∈ ids, id < consumer.vars.size) :
    (checkInputs outputs consumer ids).Answers fun _ => True := by
  induction ids with
  | nil => exact .pure trivial
  | cons id ids ih =>
      have ih := ih fun other listed => bound other (List.mem_cons_of_mem _ listed)
      refine .andThen (reads (bound id (List.mem_cons_self ..))) fun declared => ?_
      split
      · exact ih
      · split
        · exact ih
        · split
          · exact ih
          · exact .reject _

theorem checkBoundary_answers (producer_confined : producer.Confined)
    (consumer_confined : consumer.Confined) :
    (checkBoundary producer consumer).Answers fun _ => True :=
  .andThen producer_confined.reads_globals fun _ => checkInputs_answers _ consumer_confined.globals

end InterfaceBlock

namespace Boundary

theorem check_answers (producer_confined : producer.Confined)
    (consumer_confined : consumer.Confined) :
    (check producer consumer).Answers fun _ => True :=
  .andThen producer_confined.reads_globals fun _ =>
    .andThen consumer_confined.reads_globals fun _ => .rejectAll _

end Boundary

/-! ## Definitions -/

namespace Definition

theorem exists_definesFirst (sturdy : other.Sturdy) {name : String} {id : FunctionId}
    (bound : other.symbols.functions.get? name = some id) (types : List Ty) :
    ∃ answer, definesFirst other id types = .ok answer := by
  obtain ⟨position, looks⟩ := sturdy.exists_findSignature bound types
  rw [definesFirst, looks, Checked.ok_bind]
  cases position with
  | none => exact ⟨false, rfl⟩
  | some place => exact ⟨_, rfl⟩

theorem exists_duplicatesOf (sturdy : other.Sturdy) {name : String} {id : FunctionId}
    (bound : other.symbols.functions.get? name = some id) {signatures : List Signature}
    (inside : ∀ signature ∈ signatures, ∀ parameter ∈ signature.parameters,
      parameter < shader.vars.size) :
    ∃ found, duplicatesOf shader other name id signatures = .ok found := by
  induction signatures with
  | nil => exact ⟨[], rfl⟩
  | cons signature signatures ih =>
      obtain ⟨later, runs_later⟩ := ih fun one listed => inside one (List.mem_cons_of_mem _ listed)
      rw [duplicatesOf, runs_later, Checked.ok_bind]
      split
      · obtain ⟨types, typed⟩ := exists_typesOf (inside signature (List.mem_cons_self ..))
        obtain ⟨answer, decides⟩ := exists_definesFirst sturdy bound types
        rw [typed, Checked.ok_bind, decides, Checked.ok_bind]
        cases answer <;> exact ⟨_, rfl⟩
      · exact ⟨later, rfl⟩

theorem exists_duplicates (confined : shader.Confined) (sturdy : other.Sturdy)
    {ids : List FunctionId} (bound : ∀ id ∈ ids, id < shader.functions.size) :
    ∃ found, duplicates shader other ids = .ok found := by
  induction ids with
  | nil => exact ⟨[], rfl⟩
  | cons id ids ih =>
      obtain ⟨later, runs_later⟩ := ih fun one listed => bound one (List.mem_cons_of_mem _ listed)
      obtain ⟨function, fetched⟩ := exists_fetchFunction (bound id (List.mem_cons_self ..))
      rw [duplicates, fetched, Checked.ok_bind]
      cases counterpart : other.symbols.functions.get? function.name with
      | none => exact ⟨later, by simp [runs_later]⟩
      | some target =>
          have inside := confined.parameters id
          rw [signaturesOf_eq (fetchFunction_eq_ok.mp fetched)] at inside
          obtain ⟨found, runs⟩ := exists_duplicatesOf sturdy counterpart inside
          refine ⟨found ++ later, ?_⟩
          dsimp only
          rw [runs, Checked.ok_bind, runs_later]
          rfl

theorem exists_duplicatesAmong (confined : shader.Confined) {others : List Shader}
    (each : ∀ other ∈ others, other.Sturdy) :
    ∃ found, duplicatesAmong shader others = .ok found := by
  induction others with
  | nil => exact ⟨[], rfl⟩
  | cons first others ih =>
      obtain ⟨later, runs_later⟩ := ih fun one listed => each one (List.mem_cons_of_mem _ listed)
      obtain ⟨found, runs⟩ :=
        exists_duplicates confined (each first (List.mem_cons_self ..)) confined.declaredFunctions
      refine ⟨found ++ later, ?_⟩
      rw [duplicatesAmong, runs, Checked.ok_bind, runs_later]
      rfl

theorem exists_allDuplicates {units : List Shader}
    (each : ∀ unit ∈ units, unit.Confined ∧ unit.Sturdy) :
    ∃ found, allDuplicates units = .ok found := by
  induction units with
  | nil => exact ⟨[], rfl⟩
  | cons unit units ih =>
      have later_each := fun one listed => each one (List.mem_cons_of_mem unit listed)
      obtain ⟨later, runs_later⟩ := ih later_each
      obtain ⟨found, runs⟩ := exists_duplicatesAmong (each unit (List.mem_cons_self ..)).1
        fun other listed => (later_each other listed).2
      refine ⟨found ++ later, ?_⟩
      rw [allDuplicates, runs, Checked.ok_bind, runs_later]
      rfl

theorem check_answers {units : List Shader} (each : ∀ unit ∈ units, unit.Confined ∧ unit.Sturdy) :
    (check units).Answers fun _ => True :=
  .andThen (.of_ok (exists_allDuplicates each)) fun _ => .rejectAll _

end Definition

/-! ## Static use -/

namespace Shader

/-- The place that a call could write through occurs in the argument. -/
theorem mem_nodes_writtenPlace {expression : Expr} {place : Place} :
    expression.writtenPlace? = some place → Node.place (.whole place.root) ∈ expression.nodes := by
  induction expression using Expr.writtenPlace?.induct with
  | case1 loaded =>
      intro written
      obtain rfl := Option.some.inj written
      exact List.mem_cons_of_mem _ (Semantics.mem_nodes_root loaded)
  | case2 value components ty ih =>
      intro written
      exact List.mem_cons_of_mem _ (ih written)
  | case3 expression not_load not_swizzle =>
      intro written
      unfold Expr.writtenPlace? at written
      split at written
      · exact absurd rfl (not_load _)
      · exact absurd rfl (not_swizzle _ _ _)
      · cases written

theorem exists_optionLiesIn (name : String) {place : Option Place}
    (inside : ∀ target ∈ place, target.root < shader.vars.size) :
    ∃ answer, shader.optionLiesIn name place = .ok answer := by
  cases place with
  | none => exact ⟨false, rfl⟩
  | some target =>
      obtain ⟨declared, fetched⟩ := exists_fetchVariable (inside target rfl)
      exact ⟨_, Checked.bind_eq_ok.mpr ⟨declared, fetched, rfl⟩⟩

theorem exists_argumentsWrite (name : String) {arguments : List Expr} {parameters : List VariableId}
    (mentioned : Mentioned shader.vars (arguments.flatMap Expr.nodes))
    (inside : ∀ parameter ∈ parameters, parameter < shader.vars.size) :
    ∃ answer, shader.argumentsWrite name arguments parameters = .ok answer := by
  induction arguments generalizing parameters with
  | nil => exact ⟨false, by simp [argumentsWrite]⟩
  | cons argument arguments ih =>
      cases parameters with
      | nil => exact ⟨false, by simp [argumentsWrite]⟩
      | cons parameter parameters =>
          obtain ⟨declared, fetched⟩ :=
            exists_fetchVariable (inside parameter (List.mem_cons_self ..))
          have written : ∀ target ∈ argument.writtenPlace?, target.root < shader.vars.size :=
            fun target written => mentioned _ (List.mem_flatMap.mpr
              ⟨argument, List.mem_cons_self .., mem_nodes_writtenPlace written⟩)
          obtain ⟨here, decides⟩ := exists_optionLiesIn name written
          obtain ⟨later, decides_later⟩ := ih
            (mentioned.mono fun node listed => List.mem_append_right _ listed)
            fun other listed => inside other (List.mem_cons_of_mem _ listed)
          rw [argumentsWrite, fetched, Checked.ok_bind]
          split
          · rw [decides, Checked.ok_bind]
            cases here with
            | true => exact ⟨true, rfl⟩
            | false => exact ⟨later, decides_later⟩
          · exact ⟨later, decides_later⟩

theorem Enclosed.exists_nodeWrites (enclosed : shader.Enclosed) (name : String) {node : Node}
    (listed : node ∈ shader.nodes) : ∃ answer, shader.nodeWrites name node = .ok answer := by
  obtain ⟨body, in_bodies, own⟩ := exists_body listed
  have encloses := enclosed.bodies body in_bodies
  have operands : ∀ instruction, node = .instruction instruction →
      Mentioned shader.vars instruction.operandNodes := by
    rintro instruction rfl id inside
    exact encloses.within.mentions id (Block.operands_of_mem body own _ inside)
  unfold nodeWrites
  split
  · next target value guard =>
      obtain ⟨declared, fetched⟩ := exists_fetchVariable (operands _ rfl target.root
        (List.mem_append_left _ (List.mem_append_left _ (Semantics.mem_nodes_root target))))
      exact ⟨_, Checked.bind_eq_ok.mpr ⟨declared, fetched, rfl⟩⟩
  · next callee arguments result =>
      obtain ⟨signature, there⟩ := encloses.calls callee (mem_callees own)
      have mentioned := operands _ rfl
      obtain ⟨through, decides⟩ := exists_argumentsWrite name
        (mentioned.mono fun node inside => List.mem_append_left _ inside)
        (enclosed.parameters _ signature (List.mem_of_getElem? there))
      have result_inside : ∀ target ∈ result, target.root < shader.vars.size :=
        fun target is_result => mentioned target.root (List.mem_append_right _ (List.mem_flatMap.mpr
          ⟨target, Option.mem_toList.mpr is_result, Semantics.mem_nodes_root target⟩))
      obtain ⟨answer, decides_result⟩ := exists_optionLiesIn name result_inside
      rw [fetchSignature_eq_ok.mpr there, Checked.ok_bind]
      dsimp only
      rw [decides, Checked.ok_bind]
      cases through with
      | true => exact ⟨true, rfl⟩
      | false => exact ⟨answer, decides_result⟩
  · exact ⟨false, rfl⟩

/-- Whether a shader writes to a variable can be told if it is enclosed. -/
theorem Enclosed.exists_writes (enclosed : shader.Enclosed) (name : String) :
    ∃ answer, shader.writes name = .ok answer :=
  Checked.exists_anyM fun _ listed => enclosed.exists_nodeWrites name listed

theorem Confined.exists_mentions (confined : shader.Confined) (name : String) :
    ∃ answer, shader.mentions name = .ok answer := by
  refine Checked.exists_anyM fun node listed => ?_
  unfold nodeMentions
  split
  · next id =>
      obtain ⟨declared, fetched⟩ := exists_fetchVariable (confined.mentions listed)
      exact ⟨_, Checked.bind_eq_ok.mpr ⟨declared, fetched, rfl⟩⟩
  · exact ⟨false, rfl⟩

end Shader

namespace StageRules

theorem clipUsage_answers (enclosed : shader.Enclosed) (version : Nat) (isEs : Bool) :
    (clipUsage shader version isEs).Answers fun _ => True := by
  unfold clipUsage
  split
  · exact .pure trivial
  · refine .andThen (.of_ok (enclosed.exists_writes _)) fun vertex => ?_
    refine .andThen (.of_ok (enclosed.exists_writes _)) fun distance => ?_
    split
    · exact .andThen (.reject _) fun _ => .pure trivial
    · exact .pure trivial

theorem checkVertex_answers (enclosed : shader.Enclosed) (version : Nat) (isEs : Bool) :
    (checkVertex shader version isEs).Answers fun _ => True := by
  unfold checkVertex
  split
  · refine .andThen (.of_ok (enclosed.exists_writes _)) fun writes => ?_
    split
    · exact clipUsage_answers enclosed version isEs
    · exact .andThen (.reject _) fun _ => clipUsage_answers enclosed version isEs
  · exact clipUsage_answers enclosed version isEs

theorem checkFragment_answers (enclosed : shader.Enclosed) :
    (checkFragment shader).Answers fun _ => True := by
  refine .andThen (.of_ok (enclosed.exists_writes _)) fun color => ?_
  split
  · refine .andThen (.of_ok (enclosed.exists_writes _)) fun data => ?_
    split
    · exact .reject _
    · exact .pure trivial
  · exact .pure trivial

/-- The rules of a stage can be checked on an enclosed executable. -/
theorem check_answers (enclosed : shader.Enclosed) (version : Nat) (isEs : Bool) :
    (check shader version isEs).Answers fun _ => True := by
  unfold check
  split
  · exact .andThen (checkVertex_answers enclosed version isEs) fun _ => .pure trivial
  · refine .andThen ?_ fun _ => .pure trivial
    exact .andThen (clipUsage_answers enclosed version isEs) fun _ => .pure trivial
  · exact .andThen (checkFragment_answers enclosed) fun _ => .pure trivial

end StageRules

/-! ## Recursion -/

namespace Recursion

theorem exists_definedSignatures {ids : List FunctionId}
    (bound : ∀ id ∈ ids, id < shader.functions.size) :
    ∃ signatures, definedSignatures shader ids = .ok signatures := by
  induction ids with
  | nil => exact ⟨[], rfl⟩
  | cons id ids ih =>
      obtain ⟨later, runs_later⟩ := ih fun one listed => bound one (List.mem_cons_of_mem _ listed)
      obtain ⟨function, fetched⟩ := exists_fetchFunction (bound id (List.mem_cons_self ..))
      rw [definedSignatures, fetched, Checked.ok_bind, runs_later]
      exact ⟨_, rfl⟩

theorem exists_calls {callers : List Callee}
    (each : ∀ caller ∈ callers, shader.HasSignature caller) :
    ∃ edges, calls shader callers = .ok edges := by
  induction callers with
  | nil => exact ⟨[], rfl⟩
  | cons caller callers ih =>
      obtain ⟨later, runs_later⟩ := ih fun one listed => each one (List.mem_cons_of_mem _ listed)
      obtain ⟨signature, there⟩ := each caller (List.mem_cons_self ..)
      rw [calls, fetchSignature_eq_ok.mpr there, Checked.ok_bind, runs_later]
      exact ⟨_, rfl⟩

/-- Recursion can be looked for in a confined executable. -/
theorem check_answers (confined : shader.Confined) : (check shader).Answers fun _ => True := by
  obtain ⟨signatures, lists⟩ := exists_definedSignatures confined.declaredFunctions
  have each : ∀ callee ∈ signatures, callee.function < shader.functions.size ∧
      shader.HasSignature callee := by
    intro callee listed
    obtain ⟨is_declared, signature, there, -⟩ := (mem_definedSignatures lists).mp listed
    exact ⟨confined.declaredFunctions _ is_declared, signature, there⟩
  have listing : Judged.Answers (monadLift (definedSignatures shader shader.declaredFunctions))
      fun found => found = signatures := .lift ⟨signatures, lists, rfl⟩
  refine .bind listing fun found same => ?_
  subst same
  refine .andThen (.of_ok (exists_calls fun callee listed => (each callee listed).2))
    fun edges => ?_
  refine .andThen (.mapM fun callee listed => ?_) fun names => .rejectAll _
  have inside := (each callee (List.mem_filter.mp listed).1).1
  exact .andThen (.of_ok (exists_fetchFunction inside)) fun _ => .pure trivial

end Recursion
end StageLink
