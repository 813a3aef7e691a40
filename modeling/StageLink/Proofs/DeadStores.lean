import StageLink.Optimize.Pass
import StageLink.Proofs.Passes
import StageLink.Proofs.Pruning

/-!
# Runs without dead stores

What removing dead code leaves of a body runs like the body: the runs take the same choices, make
the same calls, emit the same and end in the same way.  Their stores agree throughout, except on the
variables that have lost their assignments, which nothing reads and no call passes back.
-/

namespace StageLink

open Semantics

variable {semantics : Semantics} {lost : VariableId → Prop}

/-! ## Instructions -/

/-- An instruction reads no lost variable, and calls what is allowed. -/
structure Instruction.Harmless (lost : VariableId → Prop) (allowed : Callee → Prop)
    (instruction : Instruction) : Prop where
  reads : Avoids lost instruction.readNodes
  calls : ∀ callee arguments result, instruction = .call callee arguments result → allowed callee

/-- What the operands of a call say agrees in stores that agree on what occurs in them. -/
def CallsAgree (lost : VariableId → Prop) (allowed : Callee → Prop)
    (invoke other : Callee → List Expr → Option Place → semantics.Store → semantics.Run) : Prop :=
  ∀ callee arguments result store reached, AgreeOff lost store reached → allowed callee →
    Avoids lost (Instruction.call callee arguments result).operandNodes →
    Run.Agree lost (invoke callee arguments result store) (other callee arguments result reached)

section Blocks

variable {targets declarations : List VariableId} {allowed : Callee → Prop}
variable {invoke other : Callee → List Expr → Option Place → semantics.Store → semantics.Run}
variable {store reached : semantics.Store}

theorem permits_eq (agree : AgreeOff lost store reached) (guard : Option Expr)
    (avoids : Avoids lost (guard.toList.flatMap Expr.nodes)) :
    (operationsOf other).permits guard reached = (operationsOf invoke).permits guard store := by
  cases guard with
  | none => rfl
  | some condition =>
      have same := value_eq agree condition (avoids.mono fun node listed => by simpa using listed)
      exact congrArg (fun given => some (semantics.holds given)) same.symm

/-- An assignment that stays has the same effect; one to a lost variable has no other effect. -/
theorem Instruction.agree_assign (bound : Nat) (agree : AgreeOff (· ∈ targets) store reached)
    (target : Place) (value : Expr) (guard : Option Expr)
    (avoids : Avoids (· ∈ targets) (Instruction.assign target value guard).readNodes) :
    Run.Agree (· ∈ targets)
      ((Instruction.assign target value guard).execute (operationsOf invoke) bound store)
      (Block.execute (operationsOf other) bound
        (Block.prune targets declarations [.assign target value guard]) reached) := by
  have guarded : Avoids (· ∈ targets) (guard.toList.flatMap Expr.nodes) :=
    avoids.mono fun _ => List.mem_append_right _
  have operands : Avoids (· ∈ targets) (indexNodes target ++ value.nodes) :=
    avoids.mono fun _ => List.mem_append_left _
  rw [Block.prune_assign]
  by_cases dead : target.root ∈ targets
  · rw [if_pos dead, Block.execute, Instruction.execute]
    split
    · next nothing => cases guard <;> cases nothing
    · exact .done agree .complete
    · exact .done (agree.put_lost dead _) .complete
  · have same_value := value_eq agree value (operands.mono fun _ => List.mem_append_right _)
    have same_place := locate_eq agree (operands.mono fun _ => List.mem_append_left _)
    have permitted : (operationsOf other).permits guard reached =
        (operationsOf invoke).permits guard store := permits_eq agree guard guarded
    rw [if_neg dead, Block.execute_singleton, Instruction.execute, Instruction.execute, permitted]
    split
    · exact .done agree .undefined
    · exact .done agree .complete
    · refine .done ?_ .complete
      rw [← same_value, ← same_place]
      exact agree.put dead _

mutual

theorem Instruction.agree_prune (bound : Nat)
    (calls : CallsAgree (· ∈ targets) allowed invoke other) : (instruction : Instruction) →
    (∀ inner, Node.instruction inner ∈ instruction.nodes (fun _ => []) →
      inner.Harmless (· ∈ targets) allowed) →
    ∀ store reached, AgreeOff (· ∈ targets) store reached →
      Run.Agree (· ∈ targets) (instruction.execute (operationsOf invoke) bound store)
        (Block.execute (operationsOf other) bound
          (Block.prune targets declarations [instruction]) reached)
  | .declare id, _, store, reached, agree => by
      rw [Block.prune_declare]
      by_cases dead : id ∈ declarations
      · rw [if_pos dead]
        exact .done agree .complete
      · rw [if_neg dead, Block.execute_singleton]
        exact .done agree .complete
  | .assign target value guard, harmless, store, reached, agree =>
      Instruction.agree_assign bound agree target value guard
        (harmless _ (List.mem_cons_self ..)).reads
  | .call callee arguments result, harmless, store, reached, agree => by
      have here := harmless _ (List.mem_cons_self ..)
      change Run.Agree _ _ (Block.execute _ bound [.call callee arguments result] reached)
      rw [Block.execute_singleton]
      exact calls callee arguments result store reached agree (here.calls _ _ _ rfl) here.reads
  | .branch condition accept reject, harmless, store, reached, agree => by
      have same := value_eq agree condition (harmless _ (List.mem_cons_self ..)).reads
      have first := Block.agree_prune bound calls accept fun inner listed =>
        harmless inner (by simp [Instruction.nodes, Block.ownNodes] at listed ⊢; simp [listed])
      have second := Block.agree_prune bound calls reject fun inner listed =>
        harmless inner (by simp [Instruction.nodes, Block.ownNodes] at listed ⊢; simp [listed])
      have conditions : (operationsOf other).holds condition reached =
          (operationsOf invoke).holds condition store :=
        congrArg (fun given => some (semantics.holds given)) same.symm
      rw [Block.prune_branch, Block.execute_singleton, Instruction.execute, Instruction.execute,
        conditions]
      split
      · exact .done agree .undefined
      · exact (first store reached agree).following (.cons .decided .nil)
      · exact (second store reached agree).following (.cons .decided .nil)
  | .loop body, harmless, store, reached, agree => by
      have turn := Block.agree_prune bound calls body fun inner listed =>
        harmless inner (List.mem_cons_of_mem _ listed)
      rw [Block.prune_loop, Block.execute_singleton, Instruction.execute, Instruction.execute]
      exact Execution.Related.turns (fun state later related =>
        (turn state later related).following (.cons .decided .nil)) bound agree
  | .yield none, _, store, reached, agree => .done agree (.yield none)
  | .yield (some value), harmless, store, reached, agree => by
      have here : Avoids (· ∈ targets) value.nodes :=
        (harmless _ (List.mem_cons_self ..)).reads.mono fun node listed => by
          simpa [Instruction.readNodes, Instruction.operandNodes] using listed
      have same := value_eq agree value here
      change Run.Agree _ _ (Block.execute _ bound [.yield (some value)] reached)
      rw [Block.execute_singleton, Instruction.execute, Instruction.execute]
      change Run.Agree _ ⟨store, [], .yield (some (Semantics.value store value))⟩
        ⟨reached, [], .yield (some (Semantics.value reached value))⟩
      rw [← same]
      exact .done agree _
  | .function _, _, _, _, agree => .done agree .complete
  | .leave, _, _, _, agree => .done agree .leave
  | .next, _, _, _, agree => .done agree .next
  | .discard, _, _, _, agree => .done agree .discard
  | .emitVertex, _, _, _, agree => ⟨agree, .cons (.emitVertex agree) .nil, rfl⟩
  | .endPrimitive, _, _, _, agree => ⟨agree, .cons (.endPrimitive agree) .nil, rfl⟩

/-- What is left of a list does what the list does, apart from the variables that are lost. -/
theorem Block.agree_prune (bound : Nat)
    (calls : CallsAgree (· ∈ targets) allowed invoke other) : (block : List Instruction) →
    (∀ inner, Node.instruction inner ∈ Block.ownNodes block →
      inner.Harmless (· ∈ targets) allowed) →
    ∀ store reached, AgreeOff (· ∈ targets) store reached →
      Run.Agree (· ∈ targets) (Block.execute (operationsOf invoke) bound block store)
        (Block.execute (operationsOf other) bound (Block.prune targets declarations block) reached)
  | [], _, _, _, agree => .done agree .complete
  | instruction :: rest, harmless, store, reached, agree => by
      rw [Block.prune_cons, Block.execute_append, Block.execute]
      exact (Instruction.agree_prune bound calls instruction
        (fun inner listed => harmless inner (List.mem_append_left _ listed)) store reached
        agree).andThen (Block.agree_prune bound calls rest fun inner listed =>
          harmless inner (List.mem_append_right _ listed))

end

end Blocks

/-! ## Calls -/

section Calls

variable {store reached : semantics.Store}

theorem mem_nodes_of_locate? : (expression : Expr) → {location : Location semantics.Value} →
    locate? store expression = some location →
      Node.place (.whole location.root) ∈ expression.nodes
  | .load place, location, found => by
      obtain rfl := Option.some.inj found
      exact List.mem_cons_of_mem _ (mem_nodes_root place)
  | .swizzle inner positions ty, location, found => by
      obtain ⟨whole, found_inner, rfl⟩ := Option.map_eq_some_iff.mp found
      have here : Node.place (.whole whole.root) ∈ inner.nodes :=
        mem_nodes_of_locate? inner found_inner
      exact List.mem_cons_of_mem _ here
  | .constant _, _, found | .unary _ _ _, _, found | .binary _ _ _ _, _, found
  | .compose _ _, _, found | .texture _ _ _, _, found => by cases found

theorem passedBack_eq {before after : Shader} (same_vars : after.vars = before.vars)
    (agree : AgreeOff lost store reached) (parameters : List VariableId) (arguments : List Expr)
    (avoids : Avoids lost (arguments.flatMap Expr.nodes)) :
    passedBack after reached parameters arguments =
      passedBack before store parameters arguments := by
  unfold passedBack
  rw [same_vars]
  refine List.filterMap_congr fun pair listed => ?_
  have argument_listed : pair.2 ∈ arguments := (List.of_mem_zip listed).2
  have same := locate?_eq agree pair.2
    (avoids.mono fun node here => List.mem_flatMap.mpr ⟨_, argument_listed, here⟩)
  rw [same]

theorem kept_of_passedBack {shader : Shader}
    (outputs : ∀ id declaration, shader.vars.get? id = some declaration →
      declaration.isOutput = true → ¬ lost id) {parameters : List VariableId}
    {arguments : List Expr} (avoids : Avoids lost (arguments.flatMap Expr.nodes)) :
    ∀ pair ∈ passedBack shader store parameters arguments, ¬ lost pair.1 ∧ ¬ lost pair.2.root := by
  intro pair listed
  obtain ⟨⟨parameter, argument⟩, zipped, chosen⟩ := List.mem_filterMap.mp listed
  dsimp only at chosen
  split at chosen
  · next declaration found =>
      split at chosen
      · next mode =>
          obtain ⟨location, located, rfl⟩ := Option.map_eq_some_iff.mp chosen
          have is_output : declaration.isOutput = true := by
            rcases mode with out | inout
            · rw [Variable.isOutput, out]
            · rw [Variable.isOutput, inout]
          have here := mem_nodes_of_locate? argument located
          exact ⟨outputs _ declaration found is_output,
            avoids _ (List.mem_flatMap.mpr ⟨argument, (List.of_mem_zip zipped).2, here⟩)⟩
      · cases chosen
  · cases chosen

theorem call_agree {before after : Shader} (same_vars : after.vars = before.vars)
    (outputs : ∀ id declaration, before.vars.get? id = some declaration →
      declaration.isOutput = true → ¬ lost id)
    {change : Block → Block} {callee : Callee}
    (signatures : after.signaturesOf callee.function = (before.signaturesOf callee.function).map
      fun signature => { signature with body := change signature.body })
    {run other : Block → semantics.Store → semantics.Run}
    (runs : ∀ signature ∈ before.signaturesOf callee.function, ∀ store reached,
      AgreeOff lost store reached →
        Run.Agree lost (run signature.body store) (other (change signature.body) reached))
    (arguments : List Expr) (result : Option Place) (agree : AgreeOff lost store reached)
    (avoids : Avoids lost (Instruction.call callee arguments result).operandNodes) :
    Run.Agree lost (call before run callee arguments result store)
      (call after other callee arguments result reached) := by
  have in_arguments : Avoids lost (arguments.flatMap Expr.nodes) :=
    avoids.mono fun _ => List.mem_append_left _
  have in_result : ∀ place ∈ result, Avoids lost place.nodes := fun place chosen =>
    avoids.mono fun node here => List.mem_append_right _
      (List.mem_flatMap.mpr ⟨place, by simpa using chosen, here⟩)
  have same_values : values reached arguments = values store arguments :=
    (values_eq agree arguments (by rwa [Expr.nodesOfAll_eq_flatMap])).symm
  have same_target : result.map (locate reached) = result.map (locate store) := by
    cases result with
    | none => rfl
    | some place =>
        exact congrArg some (locate_eq agree
          ((in_result place rfl).mono (mem_nodes_of_mem_indexNodes place))).symm
  have kept_target : ∀ location ∈ result.map (locate store), ¬ lost location.root := by
    intro location chosen
    obtain ⟨place, there, rfl⟩ := Option.map_eq_some_iff.mp chosen
    exact in_result place there _ (mem_nodes_root place)
  rw [call, call, signatures, List.getElem?_map]
  cases found : (before.signaturesOf callee.function)[callee.signature]? with
  | none => exact .done agree .undefined
  | some signature =>
      have entered := agree.entry signature.parameters (values store arguments)
      simp only [Option.map_some, same_values, same_target,
        passedBack_eq same_vars agree signature.parameters arguments in_arguments]
      refine (Execution.Related.returning ?_ fun left later returned inner =>
        agree.exit (kept_of_passedBack outputs in_arguments) kept_target inner returned).following
          (.cons .called .nil)
      split
      · exact runs signature (List.mem_of_getElem? found) _ _ entered
      · exact .done (entered.bind _ _) _

end Calls

/-! ## Shaders -/

namespace Shader

def Declares (shader : Shader) (callee : Callee) : Prop :=
  Instruction.function callee.function ∈ shader.topLevel

/-- Calls in the instructions of a shader are made to declared functions. -/
def CallsDeclared (shader : Shader) : Prop :=
  ∀ callee ∈ callees shader.nodes, shader.Declares callee

/-- Runs of the declared functions go as before, apart from the variables that have lost
assignments. -/
def RunsAs (before after : Shader) : Prop :=
  ∀ (semantics : Semantics) (bound depth : Nat) (callee : Callee) (store : semantics.Store),
    before.Declares callee →
      Run.Agree (LosesStores before after) (semantics.run before bound depth callee store)
        (semantics.run after bound depth callee store)

section RemoveDeadCode

variable {shader : Shader} (keepUniforms : Bool)

theorem harmless_of_declared (declared_calls : shader.CallsDeclared) {callee : Callee}
    (declared : shader.Declares callee) {signature : Signature}
    (listed : signature ∈ shader.signaturesOf callee.function) :
    ∀ inner, Node.instruction inner ∈ signature.body.ownNodes →
      inner.Harmless (· ∈ shader.deadTargets) shader.Declares := by
  intro inner here
  have there := nodes_of_body (mem_declaredFunctions.mpr declared) listed _ here
  constructor
  · intro id mentioned dead
    obtain ⟨_, -, unread, -, -⟩ := mem_deadTargets.mp dead
    exact avoids_of_isUnread unread there mentioned
  · rintro called arguments result rfl
    exact declared_calls called (mem_callees there)

theorem not_dead_of_isOutput : ∀ id declaration, shader.vars.get? id = some declaration →
    declaration.isOutput = true → id ∉ shader.deadTargets := by
  intro id declaration found is_output dead
  obtain ⟨other, found_too, -, -, no_output⟩ := mem_deadTargets.mp dead
  obtain rfl : declaration = other := Option.some.inj (found.symm.trans found_too)
  rw [is_output] at no_output
  cases no_output

theorem callsAgree_removeDeadCode (declared_calls : shader.CallsDeclared) (bound depth : Nat) :
    CallsAgree (· ∈ shader.deadTargets) shader.Declares (semantics.calls shader bound depth)
      (semantics.calls (shader.removeDeadCode keepUniforms) bound depth) := by
  induction depth with
  | zero => exact fun _ _ _ _ _ agree _ _ => .done agree .exhausted
  | succ depth ih =>
      intro callee arguments result store reached agree declared avoids
      have same_vars : (shader.removeDeadCode keepUniforms).vars = shader.vars := rfl
      refine call_agree same_vars not_dead_of_isOutput
        (shader.signaturesOf_removeDeadCode keepUniforms callee.function) ?_ arguments result agree
        avoids
      exact fun signature listed => Block.agree_prune bound ih signature.body
        (harmless_of_declared declared_calls declared listed)

/-- Without dead code, all functions run as before. -/
theorem runsAs_removeDeadCode (declared_calls : shader.CallsDeclared) :
    shader.RunsAs (shader.removeDeadCode keepUniforms) := by
  intro semantics bound depth callee store declared
  have lost : ∀ id, id ∈ shader.deadTargets →
      LosesStores shader (shader.removeDeadCode keepUniforms) id :=
    fun _ => losesStores_removeDeadCode.mpr
  refine Run.Agree.mono ?_ lost
  rw [Semantics.run, Semantics.run, signaturesOf_removeDeadCode, List.getElem?_map]
  cases found : (shader.signaturesOf callee.function)[callee.signature]? with
  | none => exact .done (.refl store) .undefined
  | some signature =>
      exact Block.agree_prune bound
        (callsAgree_removeDeadCode keepUniforms declared_calls bound depth) signature.body
        (harmless_of_declared declared_calls declared (List.mem_of_getElem? found)) store store
        (.refl store)

theorem declares_removeDeadCode {callee : Callee} (declared : shader.Declares callee) :
    (shader.removeDeadCode keepUniforms).Declares callee := by
  have kept : ∀ block : Block, Instruction.function callee.function ∈ block →
      Instruction.function callee.function ∈
        block.prune shader.deadTargets (shader.deadDeclarations keepUniforms) := by
    intro block listed
    induction block with
    | nil => cases listed
    | cons instruction rest ih =>
        rw [Block.prune_cons, List.mem_append]
        rcases List.mem_cons.mp listed with rfl | later
        · exact .inl (List.mem_cons_self ..)
        · exact .inr (ih later)
  exact kept shader.topLevel declared

end RemoveDeadCode

/-- What holds between a shader and what is left of it without dead code. -/
structure Relieved (before after : Shader) : Prop where
  vars : after.vars = before.vars
  calls : before.CallsDeclared → after.CallsDeclared
  declares : ∀ callee, before.Declares callee → after.Declares callee
  stores : ∀ id, after.nodes.countP (Node.assignsTo id) ≤ before.nodes.countP (Node.assignsTo id)
  inner : ∀ id declaration, LosesStores before after id → before.vars.get? id = some declaration →
    declaration.isOutput = false
  runs : before.CallsDeclared → before.RunsAs after

namespace Relieved

variable {first second third : Shader}

theorem refl (shader : Shader) : Relieved shader shader where
  vars := rfl
  calls declared := declared
  declares _ declared := declared
  stores _ := Nat.le_refl _
  inner _ _ fewer := absurd fewer (Nat.lt_irrefl _)
  runs _ _ _ _ _ _ _ := Run.Agree.refl _

theorem trans (one : Relieved first second) (other : Relieved second third) :
    Relieved first third where
  vars := other.vars.trans one.vars
  calls declared := other.calls (one.calls declared)
  declares callee declared := other.declares callee (one.declares callee declared)
  stores id := (other.stores id).trans (one.stores id)
  inner id declaration fewer found := by
    by_cases fewer_at_once : LosesStores first second id
    · exact one.inner id declaration fewer_at_once found
    · have same := Nat.le_antisymm (one.stores id) (Nat.le_of_not_lt fewer_at_once)
      refine other.inner id declaration ?_ (one.vars ▸ found)
      rw [LosesStores, same]
      exact fewer
  runs declared semantics bound depth callee store declares := by
    have early := one.runs declared semantics bound depth callee store declares
    have late := other.runs (one.calls declared) semantics bound depth callee store
      (one.declares callee declares)
    exact (early.mono fun id fewer => Nat.lt_of_le_of_lt (other.stores id) fewer).trans
      (late.mono fun id fewer => Nat.lt_of_lt_of_le fewer (one.stores id))

end Relieved

theorem relieved_removeDeadCode (shader : Shader) (keepUniforms : Bool) :
    Relieved shader (shader.removeDeadCode keepUniforms) where
  vars := rfl
  calls declared callee listed := by
    rw [callees_removeDeadCode] at listed
    exact declares_removeDeadCode keepUniforms (declared callee listed)
  declares _ := declares_removeDeadCode keepUniforms
  stores := stores_removeDeadCode_le shader keepUniforms
  inner id declaration fewer found := by
    cases is_output : declaration.isOutput with
    | false => rfl
    | true =>
        exact absurd (losesStores_removeDeadCode.mp fewer)
          (not_dead_of_isOutput id declaration found is_output)
  runs := runsAs_removeDeadCode keepUniforms

theorem relieved_removeAllDeadCode (shader : Shader) : Relieved shader shader.removeAllDeadCode :=
  exhaust_keeps (fun between so_far => so_far.trans (relieved_removeDeadCode between false)) shader
    (Relieved.refl shader)

/-- Removing dead code, once or as far as possible, keeps the meaning of a shader: all declared
functions run as before, apart from variables that have lost assignments, and these are no
outputs. -/
theorem removeDeadCode_keeps_meaning (shader after : Shader) (declared_calls : shader.CallsDeclared)
    (removed : (∃ keepUniforms, after = shader.removeDeadCode keepUniforms) ∨
      after = shader.removeAllDeadCode) :
    shader.RunsAs after ∧
      ∀ id declaration, LosesStores shader after id → shader.vars.get? id = some declaration →
        declaration.mode ≠ .shaderOut ∧ declaration.mode ≠ .functionOut ∧
          declaration.mode ≠ .functionInout := by
  have relieved : Relieved shader after := by
    rcases removed with ⟨keepUniforms, rfl⟩ | rfl
    · exact relieved_removeDeadCode shader keepUniforms
    · exact relieved_removeAllDeadCode shader
  refine ⟨relieved.runs declared_calls, fun id declaration fewer found => ?_⟩
  have no_output := relieved.inner id declaration fewer found
  refine ⟨?_, ?_, ?_⟩ <;> intro mode <;> simp [Variable.isOutput, mode] at no_output

/-- A shader that lets a function set its output, after storing something that is never read. -/
def scribbling : Shader :=
  { stage := .fragment, version := 330
    vars := ⟨[{ name := "color", ty := .float, mode := .shaderOut },
      { name := "scratch", ty := .float, mode := .temporary },
      { name := "level", ty := .float, mode := .functionOut }]⟩
    functions := ⟨[
      { name := "set"
        signatures := [.define .void [2] [.store (.whole 2) (.constant (.float .negativeZero))]] },
      { name := "main"
        signatures := [.define .void [] [.declare 1,
          .store (.whole 1) (.unary .negate (.ofVariable 0) .float),
          .call ⟨0, 0⟩ [.ofVariable 0] none]] }]⟩
    topLevel := [.declare 0, .function 0, .function 1] }

theorem scribbling_runs_as_before :
    scribbling.CallsDeclared ∧ LosesStores scribbling (scribbling.removeDeadCode false) 1 ∧
      scribbling.RunsAs (scribbling.removeDeadCode false) := by
  have declared : scribbling.CallsDeclared := by
    have only : callees scribbling.nodes = [⟨0, 0⟩] := rfl
    intro callee listed
    rw [only, List.mem_singleton] at listed
    rw [listed]
    exact .tail _ (.head _)
  exact ⟨declared, by decide +kernel,
    (removeDeadCode_keeps_meaning scribbling _ declared (.inl ⟨false, rfl⟩)).1⟩

end Shader
end StageLink
