import StageLink.Proofs.Problems
import StageLink.Proofs.Recasting
import StageLink.Proofs.Resolving

/-!
# Drafts of executables

While units are merged, the executable of their stage has only declarations at its top level, its
calls lead to declared functions, and it has a place to begin.  Cloning lets it grow and gives
bodies to what was announced, both of which keep it so.  Once the calls are settled, it can run by
itself.
-/

namespace StageLink
namespace Shader

/-- A shader with only declarations at its top level, whose symbol table says what its names stand
for, and which has a place to begin. -/
structure Sketch (shader : Shader) : Prop where
  coherent : shader.Coherent
  flat : shader.topLevel.Flat
  main : ∃ main, shader.HasMain main

/-- A shader that may call what is only announced: it has only declarations at its top level,
functions are declared nowhere else, what is called is declared, and there is a place to begin. -/
structure Draft (shader : Shader) : Prop where
  coherent : shader.Coherent
  flat : shader.topLevel.Flat
  free : ∀ {callee signature}, callee.function ∈ shader.declaredFunctions →
    shader.At callee signature → signature.body.FunctionFree
  calls : ∀ {caller callee}, shader.Invokes caller callee →
    callee.function ∈ shader.declaredFunctions
  main : ∃ main, shader.HasMain main

theorem Draft.sketch {shader : Shader} (draft : shader.Draft) : shader.Sketch :=
  ⟨draft.coherent, draft.flat, draft.main⟩

/-- Functions are declared only at the top level, and what is called is declared. -/
structure WellCalled (shader : Shader) : Prop where
  on_top : shader.FunctionsOnTop
  calls : ∀ callee ∈ callees shader.nodes, shader.HasCallee callee

/-- Functions are declared only at the top level, and each function that is called is declared.
That a call leads to one of the signatures of its function is not required. -/
structure DeclaresCalls (shader : Shader) : Prop where
  on_top : shader.FunctionsOnTop
  calls : ∀ callee ∈ callees shader.nodes, callee.function ∈ shader.declaredFunctions

/-- What the symbol table has for `main` is the last function that is declared by this name. -/
def KnowsMain (shader : Shader) : Prop :=
  ∀ id ∈ shader.symbols.functions.get? "main", shader.lastNamed "main" = some id

instance (shader : Shader) : Decidable shader.KnowsMain :=
  inferInstanceAs (Decidable (∀ id ∈ shader.symbols.functions.get? "main",
    shader.lastNamed "main" = some id))

theorem WellCalled.declaresCalls {shader : Shader} (called : shader.WellCalled) :
    shader.DeclaresCalls :=
  ⟨called.on_top, fun callee listed => (called.calls callee listed).1⟩

variable {source before after shader : Shader} {free : VariableId → Prop} {callee : Callee}

theorem WellFormed.wellCalled (formed : shader.WellFormed) : shader.WellCalled where
  on_top := formed.on_top
  calls callee listed := by
    obtain ⟨arguments, result, there⟩ := mem_callees_iff.mp listed
    exact formed.holds.calls callee arguments result there

/-- Whether the calls of a shader are as they should be does not depend on its symbol table. -/
theorem wellCalled_of_check (check : shader.isWellFormed = true) : shader.WellCalled := by
  have nodes : shader.populateSymbols.nodes = shader.nodes := nodes_congr rfl rfl
  have check_populated : shader.populateSymbols.isWellFormed = true := by
    rw [isWellFormed, nodes]
    exact check
  have formed := wellFormed_of_check check_populated (populated_populateSymbols shader)
  refine ⟨⟨formed.on_top.statements, formed.on_top.bodies⟩, ?_⟩
  rw [← nodes]
  exact formed.wellCalled.calls

/-! ## Growing -/

theorem Growth.isNamed (growth : Growth source free before after) {name : String} {id : FunctionId}
    (bound : before.symbols.functions.get? name = some id) :
    after.isNamed name = before.isNamed name := by
  funext other
  cases growth with
  | copy _ => rfl
  | global _ _ _ => rfl
  | @function added unknown =>
      have different : added ≠ name := by
        rintro rfl
        rw [unknown] at bound
        cases bound
      simp only [Shader.isNamed, declareFunction, unknown, Arena.get?_push]
      split
      · next last => simp [last, different, (before.functions.get?_eq_none_iff _).mpr
          (Nat.le_refl _)]
      · rfl
  | @announce target function signature parameters lacks =>
      simp only [Shader.isNamed, Shader.announce, Arena.get?_modify]
      split
      · next same => simp [← same, lacks.found]
      · rw [Option.map_id']

theorem Growth.lastNamed (growth : Growth source free before after) {name : String}
    {id : FunctionId} (bound : before.symbols.functions.get? name = some id) :
    after.lastNamed name = before.lastNamed name := by
  rw [Shader.lastNamed, growth.isNamed bound, Shader.lastNamed]
  cases growth with
  | copy _ => rfl
  | global _ _ _ => rfl
  | function unknown =>
      have nameless : before.isNamed name before.functions.size = false := by
        simp [Shader.isNamed, (before.functions.get?_eq_none_iff _).mpr (Nat.le_refl _)]
      simp [Shader.declaredFunctions, declareFunction, unknown, List.filterMap_append, nameless]
  | announce _ => rfl

theorem HasMain.grows (grows : Grows source free before after) {main : Callee}
    (has : before.HasMain main) : ∃ main, after.HasMain main := by
  have bound := grows.functionNamed has.bound
  have last : after.lastNamed "main" = some main.function := by
    induction grows with
    | refl => exact has.last
    | tail so_far growth ih =>
        have known := Grows.functionNamed so_far has.bound
        rw [growth.lastNamed known]
        exact ih known
  obtain ⟨signature, there, is_entry⟩ := has.exists_at
  obtain ⟨_, has_main, -⟩ :=
    HasMain.of_entry bound last
      ⟨signature, List.mem_of_getElem? ((at_grows grows).1 there), is_entry⟩
  exact ⟨_, has_main⟩

theorem Grows.flat (grows : Grows source free before after) (flat : before.topLevel.Flat) :
    after.topLevel.Flat := by
  induction grows with
  | refl => exact flat
  | tail _ growth ih => exact growth.flat ih

/-- What has been declared and is there has been there before, or is announced. -/
theorem Grows.at_declared (grows : Grows source free before after) {signature : Signature}
    (is_declared : callee.function ∈ after.declaredFunctions) (there : after.At callee signature) :
    callee.function ∈ before.declaredFunctions ∧ before.At callee signature ∨
      signature.body = [] := by
  rcases (at_grows grows).2 there with was | announced
  · refine .inl ⟨(grows.mem_declaredFunctions is_declared).resolve_right fun beyond => ?_, was⟩
    obtain ⟨function, found, -⟩ := was.function
    exact Nat.not_le_of_lt (Arena.lt_of_get? found) beyond
  · exact .inr announced.body

theorem Sketch.grows (sketch : before.Sketch) (grows : Grows source free before after) :
    after.Sketch := by
  obtain ⟨main, has⟩ := sketch.main
  exact ⟨grows.coherent sketch.coherent, grows.flat sketch.flat, has.grows grows⟩

theorem Draft.grows (draft : before.Draft) (grows : Grows source free before after) :
    after.Draft where
  coherent := (draft.sketch.grows grows).coherent
  flat := (draft.sketch.grows grows).flat
  free := by
    intro callee signature is_declared there
    rcases grows.at_declared is_declared there with ⟨was_declared, was⟩ | empty
    · exact draft.free was_declared was
    · rw [empty]
      intro id listed
      cases listed
  calls := by
    rintro caller callee ⟨is_declared, signature, there, called⟩
    rcases grows.at_declared is_declared there with ⟨was_declared, was⟩ | empty
    · exact grows.declaredFunctions (draft.calls ⟨was_declared, signature, was, called⟩)
    · rw [empty] at called
      cases called
  main := (draft.sketch.grows grows).main

/-! ## Changing a body -/

variable {target : Callee} {change : Signature → Signature}

/-- A change that takes no definition away leaves a place to begin. -/
theorem Sketch.modifySignature (sketch : shader.Sketch) (target : Callee)
    (advances : Merge.Advances change) : (shader.modifySignature target change).Sketch where
  coherent := Merge.coherent_modifySignature sketch.coherent target change
  flat := sketch.flat
  main := by
    obtain ⟨main, has⟩ := sketch.main
    have named : (shader.modifySignature target change).isNamed "main" = shader.isNamed "main" := by
      refine isNamed_of_names (fun id => ?_) "main"
      rw [Shader.modifySignature, Arena.get?_modify]
      cases shader.functions.get? id <;> simp [apply_ite Function.name]
    have bound : (shader.modifySignature target change).symbols.functions.get? "main" =
        some main.function := has.bound
    have last : (shader.modifySignature target change).lastNamed "main" = some main.function := by
      rw [lastNamed, named]
      exact has.last
    obtain ⟨signature, there, is_entry⟩ := has.exists_at
    have there_now : (shader.modifySignature target change).At main _ :=
      at_modifySignature.mpr ⟨signature, there, rfl⟩
    have entry_now : isEntry (if main = target then change signature else signature) = true := by
      split
      · obtain ⟨no_parameters, defined⟩ := Bool.and_eq_true_iff.mp is_entry
        exact Bool.and_eq_true_iff.mpr
          ⟨(advances signature).1 ▸ no_parameters, (advances signature).2 defined⟩
      · exact is_entry
    obtain ⟨_, has_main, -⟩ :=
      HasMain.of_entry bound last ⟨_, List.mem_of_getElem? there_now, entry_now⟩
    exact ⟨_, has_main⟩

/-- A body without function declarations that calls what is declared makes no difference. -/
theorem Draft.modifySignature (draft : shader.Draft) (advances : Merge.Advances change)
    (changed_free : ∀ {signature}, target.function ∈ shader.declaredFunctions →
      shader.At target signature → (change signature).body.FunctionFree)
    (changed_calls : ∀ {signature}, target.function ∈ shader.declaredFunctions →
      shader.At target signature → ∀ callee ∈ callees (change signature).body.ownNodes,
        callee.function ∈ shader.declaredFunctions) :
          (shader.modifySignature target change).Draft where
  coherent := (draft.sketch.modifySignature target advances).coherent
  flat := draft.flat
  free := by
    intro callee signature is_declared there
    obtain ⟨old, was, rfl⟩ := at_modifySignature.mp there
    split
    · next same =>
        subst same
        exact changed_free is_declared was
    · exact draft.free is_declared was
  calls := by
    rintro caller callee ⟨is_declared, signature, there, called⟩
    obtain ⟨old, was, rfl⟩ := at_modifySignature.mp there
    split at called
    · next same =>
        subst same
        exact changed_calls is_declared was callee called
    · exact draft.calls ⟨is_declared, old, was, called⟩
  main := (draft.sketch.modifySignature target advances).main

/-! ## Settled calls -/

/-- Once all its calls have definitions, a draft can run by itself. -/
theorem Draft.selfContained (draft : shader.Draft) (answered : Resolution.Answered shader) :
    shader.SelfContained where
  flat := draft.flat
  free := draft.free
  settled := by
    intro caller callee invokes
    refine ⟨draft.calls invokes, answered callee ?_⟩
    obtain ⟨caller_declared, body, caller_there, called⟩ := invokes
    obtain ⟨arguments, result, inner⟩ := mem_callees_iff.mp called
    exact mem_callees (nodes_of_body caller_declared (List.mem_of_getElem? caller_there) _ inner)
  main := draft.main

/-- Revising variables makes no difference to calls. -/
theorem SelfContained.revised {relation : Variable → Variable → Prop}
    (contained : before.SelfContained) (revised : Revised relation before after) :
    after.SelfContained :=
  (recast_of_revised contained.flat revised).noNewCalls.selfContained contained

/-- Neither do uniform blocks and the layout of a geometry stage. -/
theorem DeclaresCalls.adorn (called : shader.DeclaresCalls) (blocks : List UniformBlock)
    (layout : GeometryLayout) :
    DeclaresCalls { shader with uniformBlocks := blocks, geometry := layout } := by
  have on_top : FunctionsOnTop { shader with uniformBlocks := blocks, geometry := layout } :=
    ⟨called.on_top.statements, called.on_top.bodies⟩
  refine ⟨on_top, fun callee listed => ?_⟩
  have inside := (mem_callees_nodes on_top).mp listed
  exact called.calls callee ((mem_callees_nodes called.on_top).mpr inside)

end Shader

/-! ## Merging -/

namespace CloneM

variable {source target extended : Shader} {free : VariableId → Prop} {block clone : Block}

theorem declared_of_alike {final : Cloning} (coherent : final.target.Coherent)
    (alike : Block.Alike (correspondence source free final) block clone) :
    ∀ callee ∈ Shader.callees clone.ownNodes,
      callee.function ∈ final.target.declaredFunctions := by
  intro callee listed
  obtain ⟨original, -, name, types, -, finds⟩ := exists_of_forall₂ alike.callees listed
  exact (finds.hasCallee coherent).1

theorem drafted_of_block (draft : target.Draft)
    (runs : (CloneM.block source block).runOn target [] = .ok (clone, extended)) :
    extended.Draft ∧ clone.FunctionFree ∧
      ∀ callee ∈ Shader.callees clone.ownNodes, callee.function ∈ extended.declaredFunctions := by
  obtain ⟨final, rfl, copied, alike⟩ :=
    block_eq_ok draft.coherent (declaredFirst_of_free (fun _ => .inr trivial) _) runs
  have extended_draft := draft.grows copied.grows
  exact ⟨extended_draft, (Block.withoutFunctions_free block).alike alike,
    declared_of_alike extended_draft.coherent alike⟩

end CloneM

namespace Merge

open Shader

variable {shader result : Shader}

theorem callees_ownNodes_append (block more : Block) :
    callees (Block.ownNodes (block ++ more)) = callees block.ownNodes ++ callees more.ownNodes := by
  rw [Block.ownNodes_append, callees_append]

theorem functionFree_append {block more : Block} (free : block.FunctionFree)
    (more_free : more.FunctionFree) : Block.FunctionFree (block ++ more) := by
  intro id listed
  rw [Block.ownNodes_append] at listed
  exact (List.mem_append.mp listed).elim (free id) (more_free id)

theorem cloneStatements_drafted {units : List Shader} :
    ∀ {target extended : Shader} {cloned : Block}, target.Draft →
      cloneStatements units target = .ok (cloned, extended) →
      extended.Draft ∧ target.declaredFunctions ⊆ extended.declaredFunctions ∧
        cloned.FunctionFree ∧
        ∀ callee ∈ callees cloned.ownNodes, callee.function ∈ extended.declaredFunctions := by
  induction units with
  | nil =>
      intro target extended cloned draft runs
      obtain ⟨rfl, rfl⟩ : [] = cloned ∧ target = extended := by simpa [cloneStatements] using runs
      exact ⟨draft, List.Subset.refl _, fun _ listed => (by cases listed),
        fun _ listed => (by cases listed)⟩
  | cons unit units ih =>
      intro target extended cloned draft runs
      obtain ⟨first, later, halfway, rfl, clones, clones_later⟩ := cloneStatements_cons_eq_ok runs
      have grows := CloneM.grows_of_block draft.coherent clones
      obtain ⟨halfway_draft, first_free, first_calls⟩ := CloneM.drafted_of_block draft clones
      obtain ⟨reached_draft, carried, later_free, later_calls⟩ := ih halfway_draft clones_later
      refine ⟨reached_draft, fun _ is_declared => carried (grows.declaredFunctions is_declared),
        functionFree_append first_free later_free, fun callee listed => ?_⟩
      rw [callees_ownNodes_append] at listed
      rcases List.mem_append.mp listed with early | late
      · exact carried (first_calls callee early)
      · exact later_calls callee late

theorem declaredFunctions_filter (shader : Shader) :
    ({ shader with topLevel := shader.topLevel.filter (declaresGlobal shader) } :
      Shader).declaredFunctions = shader.declaredFunctions := by
  simp only [declaredFunctions, List.filterMap_filter]
  refine List.filterMap_congr fun instruction _ => ?_
  cases instruction <;> simp [declaresGlobal]

/-- Dropping what is not declared for good leaves a place to begin, if the symbol table is
rebuilt. -/
theorem sketch_of_main {main : Callee} (has_main : shader.mainSignature? = some main)
    (known : shader.lastNamed "main" = some main.function)
    (bound : ∀ id ∈ shader.globals, id < shader.vars.size) :
    ({ shader with topLevel := shader.topLevel.filter (declaresGlobal shader) } :
      Shader).populateSymbols.Sketch := by
  let bare : Shader := { shader with topLevel := shader.topLevel.filter (declaresGlobal shader) }
  obtain ⟨-, entry⟩ := mainSignature?_eq_some.mp has_main
  have last : bare.lastNamed "main" = some main.function := by
    rw [lastNamed, declaredFunctions_filter]
    exact known
  exact
    { coherent := populateSymbols_coherent (bound_declarations bound)
      flat := flat_declarations shader shader.topLevel
      main := ⟨main, (populateSymbols_function "main").trans last, last, entry⟩ }

/-- Dropping what is not declared for good leaves a draft, if the symbol table is rebuilt. -/
theorem draft_of_declaresCalls {main : Callee} (has_main : shader.mainSignature? = some main)
    (called : shader.DeclaresCalls) (known : shader.KnowsMain)
    (bound : ∀ id ∈ shader.globals, id < shader.vars.size) :
    ({ shader with topLevel := shader.topLevel.filter (declaresGlobal shader) } :
      Shader).populateSymbols.Draft := by
  let bare : Shader := { shader with topLevel := shader.topLevel.filter (declaresGlobal shader) }
  have declared : bare.declaredFunctions = shader.declaredFunctions :=
    declaredFunctions_filter shader
  have sketch := sketch_of_main has_main (known _ (mainSignature?_eq_some.mp has_main).1) bound
  exact
    { coherent := sketch.coherent
      flat := sketch.flat
      free := fun is_declared there =>
        called.on_top.bodies _ (declared ▸ is_declared) _ (List.mem_of_getElem? there)
      calls := by
        rintro caller callee ⟨is_declared, signature, there, listed⟩
        have inside : callee ∈ callees shader.nodes := (mem_callees_nodes called.on_top).mpr
          (.inr ⟨_, declared ▸ is_declared, signature, List.mem_of_getElem? there, listed⟩)
        exact declared.symm ▸ called.calls callee inside
      main := sketch.main }

theorem moveStatements_draft {others : List Shader} (has_main : shader.mainSignature?.isSome = true)
    (called : shader.DeclaresCalls) (known : shader.KnowsMain)
    (runs : moveStatements shader others = .ok result) : result.Draft := by
  obtain ⟨main, found⟩ := Option.isSome_iff_exists.mp has_main
  obtain ⟨bound, cloned, extended, clones, rfl⟩ := moveStatements_of_main found runs
  have bare_draft := draft_of_declaresCalls found called known bound
  obtain ⟨draft, carried, cloned_free, cloned_calls⟩ := cloneStatements_drafted bare_draft clones
  have own_free : Block.FunctionFree (shader.topLevel.filter (!declaresGlobal shader ·)) := by
    intro id listed
    obtain ⟨instruction, there, inner⟩ := Block.mem_ownNodes.mp listed
    obtain ⟨in_top, kept⟩ := List.mem_filter.mp there
    refine called.on_top.statements id (Block.mem_ownNodes.mpr ⟨instruction, ?_, inner⟩)
    refine List.mem_filter.mpr ⟨in_top, ?_⟩
    cases instruction <;> first | rfl | cases kept
  have own_calls : ∀ callee ∈ callees (Block.ownNodes
      (shader.topLevel.filter (!declaresGlobal shader ·))),
      callee.function ∈ extended.declaredFunctions := by
    intro callee listed
    have inside : callee ∈ callees shader.topLevel.ownNodes :=
      ((Block.ownNodes_sublist List.filter_sublist).filterMap _).subset listed
    have is_declared := called.calls callee ((mem_callees_nodes called.on_top).mpr (.inl inside))
    exact carried ((declaredFunctions_filter shader).symm ▸ is_declared)
  refine draft.modifySignature (fun _ => ⟨rfl, fun defined => defined⟩)
    (fun is_declared there => ?_)
    fun {signature} is_declared there callee listed => ?_
  · exact functionFree_append (functionFree_append own_free cloned_free)
      (draft.free is_declared there)
  · rw [callees_ownNodes_append, callees_ownNodes_append] at listed
    rcases List.mem_append.mp listed with moved | old
    · exact (List.mem_append.mp moved).elim (own_calls callee) (cloned_calls callee)
    · exact draft.calls ⟨is_declared, signature, there, old⟩

/-- Giving a body to an announced signature keeps a draft one. -/
theorem define_draft {library : Shader} {target : Callee} {definition : Signature}
    (draft : shader.Draft)
    (runs : Resolution.define shader target library definition = .ok result) :
    result.Draft := by
  obtain ⟨announced, body, final, -, copied, alike, rfl⟩ :=
    Resolution.define_eq_ok draft.coherent runs
  have grown := draft.grows copied.grows
  refine grown.modifySignature (fun _ => ⟨rfl, fun _ => rfl⟩) (fun _ _ => ?_) fun _ _ => ?_
  · exact (Block.withoutFunctions_free definition.body).alike alike
  · exact CloneM.declared_of_alike grown.coherent alike

/-- Resolving the calls of a draft lets it run by itself. -/
theorem resolveCalls_selfContained {libraries : List Shader} (draft : shader.Draft)
    (grants : (Resolution.resolveCalls libraries shader).Grants result) : result.SelfContained := by
  obtain ⟨main, has⟩ := draft.main
  obtain ⟨signature, there, is_entry⟩ := has.exists_at
  have answered := Resolution.resolveCalls_answers draft.coherent there
    (Bool.and_eq_true_iff.mp is_entry).2 grants
  refine Draft.selfContained ?_ answered
  refine Resolution.resolveCalls_keeps (fun shader resolved draft grants => ?_) draft grants
  obtain ⟨_, _, _, library, _, -, -, -, -, defines⟩ := Resolution.step_grants grants
  exact define_draft draft defines

/-! ## Executables -/

theorem recast_fitStageInputs {stage : Stage} {fitted : Shader} {misfits : List LinkError}
    (flat : shader.topLevel.Flat) (runs : fitStageInputs stage shader = .ok (fitted, misfits)) :
    Recast Eq shader fitted := by
  obtain rfl | ⟨_, sized, fits, retypes⟩ := fitStageInputs_cases runs
  · exact recast_of_revised flat (Revised.refl (fun _ => trivial) _ : Revised (fun _ _ => True) _ _)
  · have recast := recast_of_revised flat (fitInputs_revises fits)
    exact Recast.trans (fun _ _ _ before after => before.trans after) recast
      (recast_retypeElements recast.flat retypes)

/-- The executable of a stage can run by itself if the functions that its units call are declared
and the units know what `main` is. -/
theorem link_selfContained {stage : Stage} {version : Nat} {limits : Limits}
    {units : List TranslationUnit} (called : ∀ unit ∈ units, unit.shader.DeclaresCalls)
    (known : ∀ unit ∈ units, unit.shader.KnowsMain)
    (grants : (link stage version limits units).Grants result) : result.SelfContained := by
  obtain ⟨resolutions, blocks, main, others, -, -, splits, assembles⟩ := link_grants grants
  obtain ⟨main_listed, -, has_main⟩ := splitMain?_eq_some splits
  obtain ⟨merged, resolved, agreed, fitted, misfits, moves, resolves, adopts, fits, sizes, -⟩ :=
    assemble_grants assembles
  obtain ⟨unit, unit_listed, rfl⟩ := List.mem_map.mp main_listed
  have draft : merged.Draft := by
    refine moveStatements_draft ?_ ((called unit unit_listed).adorn blocks _) ?_ moves
    · exact has_main
    · exact known unit unit_listed
  have agreed_contained : agreed.SelfContained :=
    (resolveCalls_selfContained draft resolves).revised (adoptResolutions_revises adopts)
  exact ((recast_fitStageInputs agreed_contained.flat fits).noNewCalls.selfContained
    agreed_contained).revised (sizeArrays_revises sizes)

end Merge
end StageLink
