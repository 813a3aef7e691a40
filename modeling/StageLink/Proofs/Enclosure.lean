import StageLink.Proofs.Answering
import StageLink.Proofs.Confinement
import StageLink.Proofs.Drafts

/-!
# Merging without faults

A shader is enclosed if its handles point into its arenas and every signature that it calls exists.
What is cloned from an enclosed source into an enclosed target is enclosed by the target as it has
grown, so units that are enclosed can be merged, and their calls be resolved, without coming upon a
handle that points nowhere.
-/

namespace StageLink
namespace Shader

/-- The callee points to some signature. -/
def HasSignature (shader : Shader) (callee : Callee) : Prop :=
  ∃ signature, shader.At callee signature

/-- The second shader has room for all handles of the first. -/
structure Contains (before after : Shader) : Prop where
  vars : before.vars.size ≤ after.vars.size
  functions : before.functions.size ≤ after.functions.size
  signatures : ∀ callee, before.HasSignature callee → after.HasSignature callee

theorem Contains.refl (shader : Shader) : Contains shader shader :=
  ⟨Nat.le_refl _, Nat.le_refl _, fun _ has => has⟩

theorem Contains.trans {first second third : Shader} (one : Contains first second)
    (other : Contains second third) : Contains first third :=
  ⟨Nat.le_trans one.vars other.vars, Nat.le_trans one.functions other.functions,
    fun callee has => other.signatures callee (one.signatures callee has)⟩

/-- The handles of an instruction list point somewhere, and what it calls exists. -/
structure Encloses (shader : Shader) (block : Block) : Prop where
  within : Block.Within shader.vars.size shader.functions.size block
  calls : ∀ callee ∈ callees block.ownNodes, shader.HasSignature callee

/-- All handles of a shader point somewhere, and whatever is called in it exists. -/
structure Enclosed (shader : Shader) : Prop where
  bodies : ∀ body ∈ shader.bodies, shader.Encloses body
  parameters : ∀ id, ∀ signature ∈ shader.signaturesOf id,
    ∀ parameter ∈ signature.parameters, parameter < shader.vars.size

section Enclosing

variable {shader before after : Shader} {block more : Block}

namespace Encloses

theorem mono (encloses : before.Encloses block) (contains : Contains before after) :
    after.Encloses block :=
  ⟨encloses.within.mono contains.vars contains.functions,
    fun callee listed => contains.signatures callee (encloses.calls callee listed)⟩

theorem nil : shader.Encloses [] := ⟨Block.within_nil, fun _ listed => nomatch listed⟩

theorem append (encloses : shader.Encloses block) (more_too : shader.Encloses more) :
    shader.Encloses (block ++ more) where
  within := encloses.within.append more_too.within
  calls callee listed := by
    rw [Block.ownNodes_append, callees_append] at listed
    exact (List.mem_append.mp listed).elim (encloses.calls callee) (more_too.calls callee)

theorem sublist (encloses : shader.Encloses block) (fewer : more.Sublist block) :
    shader.Encloses more where
  within := encloses.within.of_subset (Block.ownNodes_sublist fewer).subset
  calls callee listed :=
    encloses.calls callee (((Block.ownNodes_sublist fewer).filterMap _).subset listed)

theorem declare {id : VariableId} (inside : id < shader.vars.size) :
    shader.Encloses [.declare id] := by
  have only : Block.ownNodes [.declare id] = [.instruction (.declare id)] := rfl
  refine ⟨⟨?_, ?_, ?_, ?_⟩, ?_⟩
  all_goals simp [only, callees, inside]

theorem function {id : FunctionId} (inside : id < shader.functions.size) :
    shader.Encloses [.function id] := by
  have only : Block.ownNodes [.function id] = [.instruction (.function id)] := rfl
  refine ⟨⟨?_, ?_, ?_, ?_⟩, ?_⟩
  all_goals simp [only, callees, inside]

end Encloses

namespace Enclosed

theorem confined (enclosed : shader.Enclosed) : shader.Confined :=
  ⟨fun body listed => (enclosed.bodies body listed).within, enclosed.parameters⟩

theorem topLevel (enclosed : shader.Enclosed) : shader.Encloses shader.topLevel :=
  enclosed.bodies _ (mem_bodies.mpr (.inl rfl))

theorem body (enclosed : shader.Enclosed) {id : FunctionId} {signature : Signature}
    (listed : signature ∈ shader.signaturesOf id) : shader.Encloses signature.body :=
  enclosed.bodies _ (mem_bodies.mpr (.inr ⟨id, signature, listed, rfl⟩))

/-- Whatever the shader calls exists. -/
theorem calls (enclosed : shader.Enclosed) {callee : Callee}
    (listed : callee ∈ callees shader.nodes) :
    shader.HasSignature callee := by
  obtain ⟨arguments, result, there⟩ := mem_callees_iff.mp listed
  obtain ⟨body, in_bodies, own⟩ := exists_body there
  exact (enclosed.bodies body in_bodies).calls callee (mem_callees own)

theorem sturdy (enclosed : shader.Enclosed) (coherent : shader.Coherent) : shader.Sturdy :=
  ⟨coherent, fun id _ => enclosed.parameters id⟩

theorem exists_hasKey (enclosed : shader.Enclosed) {callee : Callee}
    (has : shader.HasSignature callee) :
    ∃ name types, shader.HasKey callee name types := by
  obtain ⟨signature, there⟩ := has
  obtain ⟨function, found, held⟩ := there.function
  obtain ⟨types, typed⟩ :=
    exists_typesOf (enclosed.parameters _ signature (List.mem_of_getElem? there))
  exact ⟨function.name, types, function, signature, found, rfl, held, typed⟩

theorem provides (enclosed : shader.Enclosed) (encloses : shader.Encloses block) :
    shader.Provides block.ownNodes :=
  ⟨encloses.within.declares, encloses.within.mentions, fun callee _ _ listed =>
    enclosed.exists_hasKey (encloses.calls callee (mem_callees listed))⟩

/-- Uniform blocks, the layout of a geometry stage and the symbol table make no difference. -/
theorem adorn (enclosed : shader.Enclosed) (blocks : List UniformBlock) (layout : GeometryLayout) :
    Enclosed { shader with uniformBlocks := blocks, geometry := layout } :=
  ⟨fun body listed => ⟨(enclosed.bodies body listed).within, (enclosed.bodies body listed).calls⟩,
    enclosed.parameters⟩

/-- Neither do instructions that leave the top level. -/
theorem bare (enclosed : shader.Enclosed) (fewer : block.Sublist shader.topLevel) :
    Enclosed ({ shader with topLevel := block }.populateSymbols) := by
  refine ⟨fun body listed => ?_, enclosed.parameters⟩
  have here : shader.Encloses body := by
    rcases mem_bodies.mp listed with rfl | ⟨id, signature, inside, rfl⟩
    · exact enclosed.topLevel.sublist fewer
    · exact enclosed.body inside
  exact ⟨here.within, here.calls⟩

end Enclosed

/-! ## Growing -/

variable {source : Shader} {free : VariableId → Prop}

theorem Grows.contains (grows : Grows source free before after) : Contains before after where
  vars := grows.size_le
  functions := grows.functions_size_le
  signatures callee has := by
    obtain ⟨signature, there⟩ := has
    exact ⟨signature, (at_grows grows).1 there⟩

/-- The signatures of a shader that has grown have been there before, or are announced. -/
theorem Growth.signature_origin (growth : Growth source free before after) {id : FunctionId}
    {signature : Signature} (listed : signature ∈ after.signaturesOf id) :
    signature ∈ before.signaturesOf id ∨ Announced before.vars.size after.vars.size signature := by
  rcases growth.signaturesOf id with same | ⟨-, added, extended, announced⟩
  · exact .inl (same ▸ listed)
  · rw [extended] at listed
    rcases List.mem_append.mp listed with old | new
    · exact .inl old
    · exact .inr (List.mem_singleton.mp new ▸ announced)

/-- What a shader gains by growing is enclosed by it. -/
theorem Enclosed.growth (enclosed : before.Enclosed) (growth : Growth source free before after) :
    after.Enclosed := by
  have contains := Grows.contains (Relation.ReflTransGen.single growth)
  refine ⟨fun body listed => ?_, fun id signature listed parameter inside => ?_⟩
  · rcases mem_bodies.mp listed with rfl | ⟨id, signature, inside, rfl⟩
    · have old := enclosed.topLevel.mono contains
      cases growth with
      | copy _ => exact old
      | global _ _ _ => exact (Encloses.declare (by simp [declareFirst])).append old
      | function unknown =>
          simp only [declareFunction, unknown] at old ⊢
          exact old.append (Encloses.function (by simp))
      | announce _ => exact old
    · rcases growth.signature_origin inside with old | announced
      · exact (enclosed.body old).mono contains
      · rw [announced.body]
        exact .nil
  · rcases growth.signature_origin listed with old | announced
    · exact Nat.lt_of_lt_of_le (enclosed.parameters id signature old parameter inside) contains.vars
    · exact (announced.parameters parameter inside).2

theorem Enclosed.grows (enclosed : before.Enclosed) (grows : Grows source free before after) :
    after.Enclosed := by
  induction grows with
  | refl => exact enclosed
  | tail _ growth ih => exact ih.growth growth

/-! ## Changing a signature -/

variable {target : Callee} {change : Signature → Signature}

theorem contains_modifySignature : Contains shader (shader.modifySignature target change) where
  vars := Nat.le_refl _
  functions := by simp [modifySignature]
  signatures callee has := by
    obtain ⟨signature, there⟩ := has
    exact ⟨_, at_modifySignature.mpr ⟨signature, there, rfl⟩⟩

/-- A signature has been there before, or is the one that has been changed. -/
theorem exists_of_modifySignature {id : FunctionId} {signature : Signature}
    (listed : signature ∈ (shader.modifySignature target change).signaturesOf id) :
    ∃ old ∈ shader.signaturesOf id, signature = old ∨ shader.At target old ∧
      signature = change old := by
  obtain ⟨position, there⟩ := List.mem_iff_getElem?.mp listed
  have there : (shader.modifySignature target change).At ⟨id, position⟩ signature := there
  obtain ⟨old, was, rfl⟩ := at_modifySignature.mp there
  refine ⟨old, List.mem_of_getElem? was, ?_⟩
  split
  · next here => exact .inr ⟨here ▸ was, rfl⟩
  · exact .inl rfl

theorem Enclosed.modifySignature (enclosed : shader.Enclosed)
    (same : ∀ signature, (change signature).parameters = signature.parameters)
    (renewed : ∀ signature, shader.At target signature → shader.Encloses (change signature).body) :
    (shader.modifySignature target change).Enclosed := by
  refine ⟨fun body listed => ?_, fun id signature listed parameter inside => ?_⟩
  · rcases mem_bodies.mp listed with rfl | ⟨id, signature, inside, rfl⟩
    · exact enclosed.topLevel.mono contains_modifySignature
    · refine Encloses.mono ?_ contains_modifySignature
      obtain ⟨old, was, rfl | ⟨there, rfl⟩⟩ := exists_of_modifySignature inside
      · exact enclosed.body was
      · exact renewed old there
  · obtain ⟨old, was, rfl | ⟨-, rfl⟩⟩ := exists_of_modifySignature listed
    · exact enclosed.parameters id signature was parameter inside
    · exact enclosed.parameters id old was parameter (same old ▸ inside)

/-! ## Revising and retyping -/

variable {result : Shader}

/-- Revising variables leaves all handles and calls as they are. -/
theorem Enclosed.revised {relation : Variable → Variable → Prop} (enclosed : before.Enclosed)
    (revised : Revised relation before after) : after.Enclosed := by
  have same := revised.same
  have size := revised.size
  generalize after.vars = vars at same size
  subst same
  have size : vars.size = before.vars.size := size
  have contains : Contains before { before with vars := vars } :=
    ⟨Nat.le_of_eq size.symm, Nat.le_refl _, fun _ has => has⟩
  refine ⟨fun body listed => (enclosed.bodies body listed).mono contains,
    fun id signature listed parameter inside => ?_⟩
  exact Nat.lt_of_lt_of_le (enclosed.parameters id signature listed parameter inside) contains.vars

/-- Retyping does too. -/
theorem Enclosed.retyped (enclosed : shader.Enclosed)
    (runs : ArraySize.retypeElements shader = .ok result) : result.Enclosed := by
  have reworks := reworks_retypeElements runs
  have contains : Contains shader result := by
    refine ⟨Nat.le_of_eq reworks.vars.symm, Nat.le_of_eq reworks.functions.symm,
      fun callee has => ?_⟩
    obtain ⟨signature, there⟩ := has
    obtain ⟨retyped, there_now, -⟩ :=
      exists_getElem?_of_forall₂ (signaturesOf_retypeElements runs callee.function) there
    exact ⟨retyped, there_now⟩
  refine ⟨fun body listed => ?_, fun id signature listed parameter inside => ?_⟩
  · obtain ⟨original, was, alike⟩ := reworks.bodies body listed
    have encloses := (enclosed.bodies original was).mono contains
    refine ⟨alike.noFarther _ _ encloses.within, fun callee called => ?_⟩
    obtain ⟨_, originally, rfl⟩ := exists_of_forall₂ alike.callees called
    exact encloses.calls _ originally
  · obtain ⟨original, was, same⟩ := reworks.parameters id signature listed
    rw [reworks.vars]
    exact enclosed.parameters id original was parameter (same ▸ inside)

end Enclosing
end Shader

/-! ## Cloning -/

namespace CloneM

open Shader

/-- A source that provides what an instruction list needs has a clone of it, which the target
encloses if the counterparts given are variables of the target. -/
theorem exists_encloses {source target : Shader} {block : Block}
    {renamed : List (VariableId × VariableId)} (sturdy : target.Sturdy)
    (provides : source.Provides block.ownNodes)
    (bound : ∀ pair ∈ renamed, pair.2 < target.vars.size) :
    ∃ clone extended, (CloneM.block source block).runOn target renamed = .ok (clone, extended) ∧
      Grows source (fun _ => True) target extended ∧ extended.Encloses clone := by
  obtain ⟨clone, extended, runs⟩ := exists_block renamed sturdy provides
  obtain ⟨final, rfl, copied, alike⟩ :=
    block_eq_ok sturdy.coherent (declaredFirst_of_free (fun _ => .inr trivial) _) runs
  have coherent := copied.grows.coherent sturdy.coherent
  have given : ∀ id counterpart, (id, counterpart) ∈ final.renamed →
      counterpart < final.target.vars.size := by
    intro id counterpart listed
    obtain ⟨fresh, news, -, -⟩ := copied.fresh
    rw [news.renamed] at listed
    rcases List.mem_append.mp listed with new | old
    · exact (news.new _ new).2.1
    · exact Nat.lt_of_lt_of_le (bound _ old) copied.grows.size_le
  have called : ∀ callee counterpart, SameKey source final.target callee counterpart →
      final.target.HasCallee counterpart := by
    rintro callee counterpart ⟨name, types, -, finds⟩
    exact finds.hasCallee coherent
  refine ⟨clone, _, runs, copied.grows, ?_, fun callee listed => ?_⟩
  · refine alike.within (fun id other _ related => given id other related) ?_ ?_ ?_
    · rintro id other - (related | ⟨-, global, -⟩)
      · exact given id other related
      · exact coherent.bound other global
    · exact fun id _ listed _ => absurd listed (Block.withoutFunctions_free block id)
    · exact fun callee other _ related => (called callee other related).inside
  · obtain ⟨original, -, related⟩ := exists_of_forall₂ alike.callees listed
    obtain ⟨-, signature, -, there, -⟩ := (called original callee related).exists_at
    exact ⟨signature, there⟩

end CloneM

/-! ## Statements at the top level -/

namespace Merge

open Shader

theorem splitTopLevel_eq {shader : Shader} {block : Block}
    (bound : ∀ id, Instruction.declare id ∈ block → id < shader.vars.size) :
    splitTopLevel shader block =
      .ok (block.filter (declaresGlobal shader), block.filter (!declaresGlobal shader ·)) := by
  have exists_split : ∃ parts, splitTopLevel shader block = .ok parts := by
    induction block with
    | nil => exact ⟨([], []), rfl⟩
    | cons instruction rest ih =>
        obtain ⟨parts, splits⟩ := ih fun id listed => bound id (List.mem_cons_of_mem _ listed)
        have decides : ∃ answer, isGlobalDeclaration shader instruction = .ok answer := by
          cases instruction with
          | declare id =>
              obtain ⟨declared, fetched⟩ := exists_fetchVariable (bound id (List.mem_cons_self ..))
              exact ⟨_, Checked.bind_eq_ok.mpr ⟨declared, fetched, rfl⟩⟩
          | _ => exact ⟨_, rfl⟩
        obtain ⟨answer, decides⟩ := decides
        rw [splitTopLevel, splits, Checked.ok_bind]
        dsimp only
        rw [decides, Checked.ok_bind]
        cases answer <;> exact ⟨_, rfl⟩
  obtain ⟨⟨declarations, statements⟩, splits⟩ := exists_split
  obtain ⟨rfl, rfl, -⟩ := splitTopLevel_eq_ok splits
  exact splits

theorem split_of_enclosed {shader : Shader} (enclosed : shader.Enclosed) :
    splitTopLevel shader shader.topLevel = .ok (shader.topLevel.filter (declaresGlobal shader),
      shader.topLevel.filter (!declaresGlobal shader ·)) :=
  splitTopLevel_eq fun id listed => enclosed.confined.globals id (mem_globals.mpr listed)

/-- The statements of enclosed units can be cloned, and the target encloses what they become. -/
theorem exists_cloneStatements {units : List Shader} (each : ∀ unit ∈ units, unit.Enclosed) :
    ∀ {target : Shader}, target.Enclosed → target.Coherent →
      ∃ clones extended, cloneStatements units target = .ok (clones, extended) ∧ extended.Enclosed ∧
        extended.Coherent ∧ Contains target extended ∧ extended.Encloses clones := by
  induction units with
  | nil => exact fun {target} enclosed coherent =>
      ⟨[], target, rfl, enclosed, coherent, .refl target, .nil⟩
  | cons unit units ih =>
      intro target enclosed coherent
      have unit_enclosed := each unit (List.mem_cons_self ..)
      have statements := unit_enclosed.topLevel.sublist
        (@List.filter_sublist _ (!declaresGlobal unit ·) unit.topLevel)
      have unnamed : ∀ pair ∈ ([] : List (VariableId × VariableId)), pair.2 < target.vars.size :=
        fun _ listed => nomatch listed
      obtain ⟨cloned, halfway, clones, grows, encloses⟩ := CloneM.exists_encloses
        (enclosed.sturdy coherent) (unit_enclosed.provides statements) unnamed
      obtain ⟨later, extended, clones_later, still_enclosed, still_coherent,
        contains, encloses_later⟩ :=
        ih (fun other listed => each other (List.mem_cons_of_mem _ listed)) (enclosed.grows grows)
          (grows.coherent coherent)
      refine ⟨cloned ++ later, extended, ?_, still_enclosed, still_coherent,
        grows.contains.trans contains, (encloses.mono contains).append encloses_later⟩
      rw [cloneStatements, split_of_enclosed unit_enclosed, Checked.ok_bind]
      dsimp only
      rw [clones, Checked.ok_bind]
      dsimp only
      rw [clones_later]
      rfl

theorem exists_moveStatements {shader : Shader} {others : List Shader} (enclosed : shader.Enclosed)
    (coherent : shader.Coherent) (each : ∀ unit ∈ others, unit.Enclosed) :
    ∃ merged, moveStatements shader others = .ok merged ∧ merged.Enclosed ∧ merged.Coherent := by
  unfold moveStatements
  cases entry : shader.mainSignature? with
  | none => exact ⟨shader, rfl, enclosed, coherent⟩
  | some main =>
      let declarations := shader.topLevel.filter (declaresGlobal shader)
      let statements : Block := shader.topLevel.filter (!declaresGlobal shader ·)
      have bare_enclosed : Enclosed ({ shader with topLevel := declarations }.populateSymbols) :=
        enclosed.bare List.filter_sublist
      obtain ⟨clones, extended, clones_all, still_enclosed, still_coherent, contains, encloses⟩ :=
        exists_cloneStatements each bare_enclosed
          (populateSymbols_coherent (bound_declarations enclosed.confined.globals))
      refine ⟨extended.modifySignature main fun signature =>
        { signature with body := statements ++ clones ++ signature.body }, ?_, ?_,
        coherent_modifySignature still_coherent _ _⟩
      · dsimp only
        rw [split_of_enclosed enclosed, Checked.ok_bind]
        dsimp only
        rw [clones_all]
        rfl
      · refine still_enclosed.modifySignature (fun _ => rfl) fun signature there => ?_
        have own : shader.Encloses statements := enclosed.topLevel.sublist List.filter_sublist
        have own_bare :
          Encloses ({ shader with topLevel := declarations }.populateSymbols) statements :=
          ⟨own.within, own.calls⟩
        exact ((own_bare.mono contains).append encloses).append
          (still_enclosed.body (List.mem_of_getElem? there))

end Merge

/-! ## Calls -/

namespace Resolution

open Shader

/-- Looking for a definition gives an answer, and what is found is a signature of the library. -/
theorem exists_definitionIn {library : Shader} (sturdy : library.Sturdy) (name : String)
    (types : List Ty) : ∃ answer, definitionIn library name types = .ok answer ∧
      ∀ definition, answer = some definition → ∃ id, definition ∈ library.signaturesOf id := by
  unfold definitionIn
  cases bound : library.symbols.functions.get? name with
  | none => exact ⟨none, rfl, fun _ found => nomatch found⟩
  | some id =>
      obtain ⟨position, looks⟩ := sturdy.exists_findSignature bound types
      dsimp only
      rw [looks, Checked.ok_bind]
      cases position with
      | none => exact ⟨none, rfl, fun _ found => nomatch found⟩
      | some place =>
          refine ⟨_, rfl, fun definition found => ⟨id, ?_⟩⟩
          have there : (library.signaturesOf id)[place]? = some definition :=
            (Option.filter_eq_some_iff.mp found).1
          exact List.mem_of_getElem? there

theorem exists_definitionAmong {libraries : List Shader}
    (each : ∀ library ∈ libraries, library.Sturdy) (name : String) (types : List Ty) :
    ∃ answer, definitionAmong name types libraries = .ok answer ∧
      ∀ library definition, answer = some (library, definition) →
        library ∈ libraries ∧ ∃ id, definition ∈ library.signaturesOf id := by
  induction libraries with
  | nil => exact ⟨none, rfl, fun _ _ found => nomatch found⟩
  | cons first libraries ih =>
      obtain ⟨here, looks, from_first⟩ :=
        exists_definitionIn (each first (List.mem_cons_self ..)) name types
      rw [definitionAmong, looks, Checked.ok_bind]
      cases here with
      | some signature =>
          refine ⟨_, rfl, fun library definition found => ?_⟩
          obtain ⟨rfl, rfl⟩ := Prod.mk.inj (Option.some.inj found)
          exact ⟨List.mem_cons_self .., from_first _ rfl⟩
      | none =>
          obtain ⟨answer, looks_on, from_later⟩ :=
            ih fun library listed => each library (List.mem_cons_of_mem _ listed)
          refine ⟨answer, looks_on, fun library definition found => ?_⟩
          obtain ⟨listed, inside⟩ := from_later library definition found
          exact ⟨List.mem_cons_of_mem _ listed, inside⟩

theorem exists_define_enclosed {library shader : Shader} {target : Callee} {definition : Signature}
    {id : FunctionId} (library_enclosed : library.Enclosed) (enclosed : shader.Enclosed)
    (coherent : shader.Coherent) (has : shader.HasSignature target)
    (listed : definition ∈ library.signaturesOf id) :
    ∃ resolved, define shader target library definition = .ok resolved ∧ resolved.Enclosed ∧
      resolved.Coherent := by
  obtain ⟨announced, there⟩ := has
  have counterparts : ∀ pair ∈ (definition.parameters.zip announced.parameters).reverse,
      pair.2 < shader.vars.size := by
    intro pair inside
    exact enclosed.parameters _ announced (List.mem_of_getElem? there) pair.2
      (List.of_mem_zip (List.mem_reverse.mp inside)).2
  obtain ⟨body, extended, clones, grows, encloses⟩ :=
    CloneM.exists_encloses (enclosed.sturdy coherent)
    (library_enclosed.provides (library_enclosed.body listed)) counterparts
  refine ⟨extended.modifySignature target (settled definition body), ?_, ?_,
    Merge.coherent_modifySignature (grows.coherent coherent) _ _⟩
  · rw [define, fetchSignature_eq_ok.mpr there, Checked.ok_bind]
    dsimp only
    rw [clones]
    rfl
  · exact (enclosed.grows grows).modifySignature (fun _ => rfl) fun _ _ => encloses

variable {libraries : List Shader} {shader : Shader}

theorem step_answers (each : ∀ library ∈ libraries, library.Enclosed ∧ library.Coherent)
    (enclosed : shader.Enclosed) (coherent : shader.Coherent) :
    (step libraries shader).Answers fun next =>
      ∀ resolved, next = some resolved → resolved.Enclosed ∧ resolved.Coherent := by
  have found : ∃ answer, firstUndefined shader (callees shader.nodes) = .ok answer ∧
      ∀ target, answer = some target → shader.HasSignature target := by
    obtain ⟨answer, looks⟩ := exists_firstUndefined fun callee listed => enclosed.calls listed
    refine ⟨answer, looks, fun target same => ?_⟩
    subst same
    obtain ⟨-, announced, there, -⟩ := firstUndefined_eq_some looks
    exact ⟨announced, there⟩
  refine .bind (.lift found) fun answer has => ?_
  cases answer with
  | none => exact .pure fun _ same => nomatch same
  | some target =>
      have has := has target rfl
      obtain ⟨name, types, key⟩ := enclosed.exists_hasKey has
      obtain ⟨signature, there, typed⟩ := key.exists_at
      obtain ⟨function, -, held, -⟩ := key
      refine .andThen (.of_ok ⟨function, fetchFunction_eq_ok.mpr held⟩) fun function => ?_
      have typed : shader.parameterTypes target = .ok types := by
        rw [parameterTypes, fetchSignature_eq_ok.mpr there, Checked.ok_bind, typed]
      refine .andThen (.of_ok ⟨types, typed⟩) fun types => ?_
      refine .bind (.lift (exists_definitionAmong
        (fun library listed => (each library listed).1.sturdy (each library listed).2) _ types)) ?_
      intro definitions from_libraries
      cases definitions with
      | none => exact .reject _
      | some pair =>
          obtain ⟨library, definition⟩ := pair
          obtain ⟨listed, id, inside⟩ := from_libraries library definition rfl
          obtain ⟨resolved, defines, still⟩ :=
            exists_define_enclosed (each library listed).1 enclosed coherent has inside
          have completed : Judged.Answers (monadLift (define shader target library definition))
              fun resolved => resolved.Enclosed ∧ resolved.Coherent :=
                .lift ⟨resolved, defines, still⟩
          refine .bind completed fun resolved still => ?_
          refine .pure fun other same => ?_
          obtain rfl := Option.some.inj same
          exact still

/-- Calls are resolved from enclosed libraries, or the one that cannot be is reported. -/
theorem resolveCalls_decides (each : ∀ library ∈ libraries, library.Enclosed ∧ library.Coherent)
    (enclosed : shader.Enclosed) (coherent : shader.Coherent) :
    (resolveCalls libraries shader).Answers Enclosed := by
  rw [resolveCalls]
  generalize signatureCount shader + total (libraries.map signatureCount) = count
  induction count generalizing shader with
  | zero => exact .pure enclosed
  | succ count ih =>
      refine .bind (step_answers each enclosed coherent) fun next still => ?_
      cases next with
      | none => exact .pure enclosed
      | some resolved =>
          obtain ⟨still_enclosed, still_coherent⟩ := still resolved rfl
          exact ih still_enclosed still_coherent

end Resolution
end StageLink
