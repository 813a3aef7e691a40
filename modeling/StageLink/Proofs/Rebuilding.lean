import StageLink.Proofs.Faultless
import StageLink.Proofs.Relabeling
import StageLink.Proofs.Symbols

/-!
# Cloning as relabeling

An instruction list is cloned with the counterparts that its variables have at the time.  If no
variable is declared twice, or after it has been used, these are the counterparts in the end.  The
clone is then the list with other handles: what is declared in it becomes new variables, what has
been given a counterpart becomes that, what is left becomes globals of the same names, and each
callee becomes one with its name and parameter types.
-/

namespace StageLink

/-! ## Undisturbed variables -/

/-- The variable that occurs. -/
def Occurrence.variable? : Occurrence → Option VariableId
  | declares id => some id
  | mentions id => some id
  | calls _ => none

/-- No variable is declared after it has been declared or mentioned. -/
def Undisturbed (items : List Occurrence) : Prop :=
  items.Pairwise fun earlier later => ∀ id ∈ later.declared?, earlier.variable? ≠ some id

instance decidableUndisturbed (items : List Occurrence) : Decidable (Undisturbed items) :=
  inferInstanceAs (Decidable (List.Pairwise _ items))

/-- A variable occurs. -/
def Touched (items : List Occurrence) (id : VariableId) : Prop :=
  ∃ occurrence ∈ items, occurrence.variable? = some id

theorem touched_append {items more : List Occurrence} {id : VariableId} :
    Touched (items ++ more) id ↔ Touched items id ∨ Touched more id := by
  simp only [Touched, List.mem_append, or_and_right, exists_or]

theorem touched_of_declared {nodes : List Node} {id : VariableId}
    (listed : id ∈ Shader.declaredIn nodes) : Touched (occurrences nodes) id :=
  ⟨_, declares_mem.mpr (mem_declaredIn.mp listed), rfl⟩

theorem touched_of_mentioned {nodes : List Node} {id : VariableId}
    (listed : Node.place (.whole id) ∈ nodes) : Touched (occurrences nodes) id :=
  ⟨_, mentions_mem.mpr listed, rfl⟩

theorem Undisturbed.append {items : List Occurrence} {nodes : List Node}
    (undisturbed : Undisturbed (items ++ occurrences nodes)) :
    Undisturbed items ∧ Undisturbed (occurrences nodes) ∧
      ∀ id, Touched items id → id ∉ Shader.declaredIn nodes := by
  obtain ⟨first, rest, apart⟩ := List.pairwise_append.mp undisturbed
  refine ⟨first, rest, fun id ⟨earlier, listed, same⟩ declared => ?_⟩
  have later := declares_mem.mpr (mem_declaredIn.mp declared)
  exact apart earlier listed _ later id rfl same

/-! ## What stands for what in the end -/

theorem lookup_append_of_not_mem {added before : List (VariableId × VariableId)} {id : VariableId}
    (missing : id ∉ added.map (·.1)) : (added ++ before).lookup id = before.lookup id := by
  rw [List.lookup_append, List.lookup_eq_none_iff.mpr, Option.none_or]
  intro pair listed
  have differs : id ≠ pair.1 := fun same => missing (same ▸ List.mem_map_of_mem listed)
  simpa using differs

/-- A source cannot leave a variable without a global. -/
abbrev anyVariable : VariableId → Prop := fun _ => True

/-- A name of a variable goes on standing for the same. -/
theorem Shader.Growth.variableNamed {source before after : Shader} {free : VariableId → Prop}
    (growth : Growth source free before after) {name : String} {id : VariableId}
    (bound : before.symbols.vars.get? name = some id) : after.symbols.vars.get? name = some id := by
  cases growth with
  | @global other declared _ _ unknown =>
      have differs : name ≠ declared.name := by
        rintro rfl
        rw [unknown] at bound
        cases bound
      simp only [Shader.declareFirst, SymbolTable.addVariable,
        NameTable.get?_insert_other _ _ differs]
      exact bound
  | function unknown =>
      simp only [declareFunction, unknown]
      exact bound
  | _ => exact bound

theorem Shader.Grows.variableNamed {source before after : Shader} {free : VariableId → Prop}
    (grows : Grows source free before after) {name : String} {id : VariableId}
    (bound : before.symbols.vars.get? name = some id) : after.symbols.vars.get? name = some id := by
  induction grows with
  | refl => exact bound
  | tail _ growth ih => exact growth.variableNamed ih

theorem CloneM.SameKey.unique {source target : Shader} {callee one other : Callee}
    (first : SameKey source target callee one) (second : SameKey source target callee other) :
    one = other := by
  obtain ⟨name, types, has, finds⟩ := first
  obtain ⟨name', types', has', finds'⟩ := second
  obtain ⟨rfl, rfl⟩ := has.unique has'
  exact finds.unique finds'

namespace Cloning

/-- What stands for a variable of the source once cloning has ended: the counterpart that it has
been given last, or the global of its name. -/
def stands (source : Shader) (final : Cloning) (id : VariableId) : VariableId :=
  match final.renamed.lookup id with
  | some counterpart => counterpart
  | none =>
      ((source.vars.get? id).bind fun declared =>
        final.target.symbols.vars.get? declared.name).getD id

open Classical in
/-- What is called in the end in place of a callee of the source. -/
noncomputable def answers (source : Shader) (final : Cloning) (callee : Callee) : Callee :=
  if known : ∃ other, CloneM.SameKey source final.target callee other then known.choose else callee

/-- How a cloning that has ended exchanges handles. -/
noncomputable def relabeling (source : Shader) (final : Cloning) : Relabeling where
  declares := stands source final
  mentions := stands source final
  functions := id
  calls := answers source final

variable {source : Shader} {final : Cloning}

theorem stands_of_lookup {id counterpart : VariableId}
    (given : final.renamed.lookup id = some counterpart) :
    stands source final id = counterpart := by
  rw [stands, given]

theorem stands_of_name {id existing : VariableId} {declared : Variable}
    (not_given : final.renamed.lookup id = none) (found : source.vars.get? id = some declared)
    (bound : final.target.symbols.vars.get? declared.name = some existing) :
    stands source final id = existing := by
  rw [stands, not_given, found]
  exact congrArg (Option.getD · id) bound

theorem sameKey_answers {callee other : Callee}
    (same : CloneM.SameKey source final.target callee other) :
    CloneM.SameKey source final.target callee (answers source final callee) := by
  have known : ∃ other, CloneM.SameKey source final.target callee other := ⟨other, same⟩
  rw [answers, dif_pos known]
  exact known.choose_spec

theorem answers_eq {callee other : Callee}
    (same : CloneM.SameKey source final.target callee other) :
    answers source final callee = other :=
  (sameKey_answers same).unique same

/-- Copying some variables gives no other variable a new counterpart. -/
theorem Copied.lookup {free : VariableId → Prop} {first second : Cloning}
    {ids copies : List VariableId} (copied : Copied source free first second ids copies)
    {id : VariableId} (missing : id ∉ ids) :
    second.renamed.lookup id = first.renamed.lookup id := by
  obtain ⟨-, fresh, news, keys, -⟩ := copied
  rw [news.renamed]
  refine lookup_append_of_not_mem ?_
  rw [keys, List.mem_reverse]
  exact missing

end Cloning

namespace CloneM

open Cloning

/-! ## Steps without new counterparts -/

/-- What a step of cloning without new counterparts ensures, seen from the final state, if the
variables that it looks at keep the counterparts they have. -/
def timely (source : Shader) (final : Cloning) (among : VariableId → Prop) : Ensuring CloneM where
  ensures step post := ∀ before result after, before.target.Coherent →
    step.run before = .ok (result, after) →
    Steady source anyVariable before after ∧
      (Reaches source anyVariable after final →
        (∀ id, among id → final.renamed.lookup id = after.renamed.lookup id) → post result)
  pure := by
    intro _ result post holds before answer after _ runs
    cases runs
    exact ⟨.refl _, fun _ _ => holds⟩
  bind := by
    intro _ _ first next middle post first_ensures next_ensures before result after coherent runs
    rw [StateT.run_bind] at runs
    obtain ⟨⟨part, halfway⟩, runs_first, following⟩ := Checked.bind_eq_ok.mp runs
    obtain ⟨steady, ensured⟩ := first_ensures before part halfway coherent runs_first
    obtain ⟨steady_on, ensured_on⟩ :=
      next_ensures part halfway result after (steady.grows.coherent coherent) following
    refine ⟨steady.trans steady_on, fun reaches same => ensured_on reaches same ?_⟩
    refine ensured (steady_on.reaches.trans reaches) fun id listed => ?_
    rw [same id listed, steady_on.renamed]
  weaken := by
    intro _ _ _ _ implies holds before result after coherent runs
    obtain ⟨steady, ensured⟩ := holds before result after coherent runs
    exact ⟨steady, fun reaches same => implies _ (ensured reaches same)⟩

variable {source : Shader} {final : Cloning} {among : VariableId → Prop}

theorem timely_variableFor {id : VariableId} (listed : among id) :
    (timely source final among).ensures (variableFor source id) (· = stands source final id) := by
  intro before result after coherent runs
  have steady := (quiet_variableFor (Or.inr trivial) before result after coherent
    (fun other none_known => absurd none_known List.not_mem_nil) runs :
      Steady source anyVariable before after ∧ (Reaches source anyVariable after after → _)).1
  refine ⟨steady, fun reaches same => ?_⟩
  have kept := (same id listed).trans (congrArg (List.lookup id) steady.renamed)
  obtain ⟨given, rfl⟩ | ⟨missing, declared, was, outcome⟩ := variableFor_cases runs
  · exact (stands_of_lookup (kept.trans given)).symm
  · have named : after.target.symbols.vars.get? declared.name = some result := by
      obtain ⟨bound, rfl⟩ | ⟨-, rfl, rfl⟩ := outcome
      · exact bound
      · simp [Shader.declareFirst, SymbolTable.addVariable]
    exact (stands_of_name (kept.trans missing) was (reaches.grows.variableNamed named)).symm

theorem timely_place {nodes : List Node}
    (listed : ∀ id, Node.place (.whole id) ∈ nodes → among id) :
    Exchanges (timely source final among) (CloneM.place source) (stands source final) nodes where
  wholes id inside := (timely source final among).bind (timely_variableFor (listed id inside))
    fun _ => (timely source final among).pure fun same => congrArg Place.whole same
  parts place part := by
    cases place with
    | whole id => cases part
    | element array index ty => exact (timely source final among).pure rfl
    | field record name ty => exact (timely source final among).pure rfl

theorem timely_calleeFor {callee : Callee} :
    (timely source final among).ensures (calleeFor source callee)
    (· = answers source final callee) := by
  intro before counterpart after coherent runs
  obtain ⟨steady, name, types, has, finds⟩ := calleeFor_eq_ok coherent runs
  exact ⟨steady, fun reaches _ => (answers_eq ⟨name, types, has, finds.grows reaches.grows⟩).symm⟩

/-- A local variable has its copy as the counterpart given last. -/
theorem lookup_of_localVariable {id copy : VariableId} {before after : Cloning}
    (runs : (localVariable source id).run before = .ok (copy, after)) :
    after.renamed.lookup id = some copy := by
  rw [localVariable, StateT.run_bind] at runs
  obtain ⟨⟨added, halfway⟩, -, following⟩ := Checked.bind_eq_ok.mp runs
  obtain ⟨rfl, rfl⟩ : added = copy ∧
      { halfway with renamed := (id, added) :: halfway.renamed } = after := by
    simpa [rename] using following
  exact List.lookup_cons_self ..

/-- An instruction that declares nothing is rebuilt with other handles. -/
theorem timely_instruction {instruction : Instruction}
    (no_declaration : ∀ id, instruction ≠ .declare id)
    (listed : ∀ id, Node.place (.whole id) ∈ instruction.operandNodes → among id) :
    (timely source final among).ensures (CloneM.instruction source instruction) fun clone =>
      clone.bare = instruction.bare.relabel (relabeling source final) := by
  have others : (∀ callee arguments result, instruction ≠ .call callee arguments result) →
      (timely source final among).ensures (Instruction.mapPlaces (place source) instruction)
        fun clone => clone.bare = instruction.bare.relabel (relabeling source final) := by
    intro no_call
    exact Instruction.mapPlaces_relabel _ instruction (timely_place listed)
      (fun id same => absurd same (no_declaration id)) (fun _ _ => rfl)
      fun _ _ _ same => absurd same (no_call _ _ _)
  cases instruction with
  | declare id => exact absurd rfl (no_declaration id)
  | call callee arguments result =>
      let strict := { relabeling source final with calls := id }
      refine (timely source final among).bind timely_calleeFor fun rebuilt => ?_
      have rest : (timely source final among).ensures
          (Instruction.mapPlaces (place source) (.call rebuilt arguments result)) fun clone =>
            clone.bare = (Instruction.call rebuilt arguments result).bare.relabel strict :=
        Instruction.mapPlaces_relabel _ _ (timely_place listed) (by simp) (by simp)
          fun _ _ _ _ => rfl
      refine (timely source final among).weaken ?_ rest
      rintro clone same rfl
      exact same
  | _ => exact others (by simp)

/-! ## Instruction lists -/

/-- What has been copied once an instruction has been rebuilt apart from the blocks inside it. -/
theorem copied_bare {instruction clone : Instruction} {before after : Cloning}
    (coherent : before.target.Coherent)
    (runs : (CloneM.instruction source instruction).run before = .ok (clone, after)) :
    Copied source anyVariable before after (Shader.declaredIn (instruction.bare.nodes fun _ => []))
      (Shader.declaredIn (clone.bare.nodes fun _ => [])) :=
  (clones_bare instruction before clone after coherent
    (declaredFirst_of_free (fun _ => .inr trivial) _) runs).1

/-- What has been copied once an instruction list has been cloned. -/
theorem copied_block {block clone : Block} {before after : Cloning}
    (coherent : before.target.Coherent)
    (runs : (Block.mapInstructions (CloneM.instruction source) block).run before =
      .ok (clone, after)) :
    Copied source anyVariable before after (Shader.declaredIn block.ownNodes)
      (Shader.declaredIn clone.ownNodes) :=
  (Block.clones block before clone after coherent
    (declaredFirst_of_free (fun _ => .inr trivial) _) runs).1

/-- What is to be shown of a run that clones something: if the variables in it have their final
counterparts afterwards, the clone is the part with other handles. -/
def Rebuilds {Part : Type} (source : Shader) (relabel : Relabeling → Part → Part)
    (nodes : Part → List Node) (part : Part) (step : CloneM Part) : Prop :=
  ∀ before clone after, before.target.Coherent → Undisturbed (occurrences (nodes part)) →
    step.run before = .ok (clone, after) → ∀ final, Reaches source anyVariable after final →
      (∀ id, Touched (occurrences (nodes part)) id →
        final.renamed.lookup id = after.renamed.lookup id) →
      clone = relabel (relabeling source final) part

/-- What has occurred still has its counterparts after more has been copied. -/
theorem settled_before {items : List Occurrence} {nodes : List Node} {copies : List VariableId}
    {first second : Cloning}
    (copied : Copied source anyVariable first second (Shader.declaredIn nodes) copies)
    (apart : ∀ id, Touched items id → id ∉ Shader.declaredIn nodes)
    (same : ∀ id, Touched (items ++ occurrences nodes) id →
      final.renamed.lookup id = second.renamed.lookup id) :
    ∀ id, Touched items id → final.renamed.lookup id = first.renamed.lookup id := fun id touched =>
  (same id (touched_append.mpr (.inl touched))).trans (copied.lookup (apart id touched))

/-- An instruction apart from the blocks inside it. -/
theorem rebuilds_bare {instruction clone : Instruction} {before after : Cloning}
    (coherent : before.target.Coherent)
    (runs : (CloneM.instruction source instruction).run before = .ok (clone, after))
    (reaches : Reaches source anyVariable after final)
    (same : ∀ id, Touched (occurrences (instruction.bare.nodes fun _ => [])) id →
      final.renamed.lookup id = after.renamed.lookup id) :
    clone.bare = instruction.bare.relabel (relabeling source final) := by
  by_cases declares : ∃ id, instruction = .declare id
  · obtain ⟨id, rfl⟩ := declares
    have touched : Touched (occurrences ((Instruction.declare id).bare.nodes fun _ => [])) id :=
      touched_of_declared (mem_declaredIn.mpr (List.mem_cons_self ..))
    rw [CloneM.instruction, StateT.run_bind] at runs
    obtain ⟨⟨copy, halfway⟩, runs_first, following⟩ := Checked.bind_eq_ok.mp runs
    obtain ⟨rfl, rfl⟩ : Instruction.declare copy = clone ∧ halfway = after := by
      simpa using following
    have given := lookup_of_localVariable runs_first
    exact congrArg Instruction.declare (stands_of_lookup ((same id touched).trans given)).symm
  · have no_declaration : ∀ id, instruction ≠ .declare id := fun id is => declares ⟨id, is⟩
    have listed : ∀ id, Node.place (.whole id) ∈ instruction.operandNodes →
        Touched (occurrences (instruction.bare.nodes fun _ => [])) id :=
      fun id inside => touched_of_mentioned (mem_bare_of_mem_operands inside)
    exact (timely_instruction no_declaration listed before clone after coherent runs).2 reaches same

mutual

theorem Instruction.rebuilds : (instruction : Instruction) →
    Rebuilds source Instruction.relabel (fun part => part.nodes fun _ => []) instruction
      (instruction.mapInstructions (CloneM.instruction source))
  | .branch condition accept reject => by
      intro before clone after coherent undisturbed runs final reaches same
      obtain ⟨changed, accept', reject', second, third, rfl, runs_bare, runs_accept, runs_reject⟩ :=
        run_branch_eq_ok runs
      have second_coherent := (copied_bare coherent runs_bare).grows.coherent coherent
      have copied_accept := copied_block second_coherent runs_accept
      have third_coherent := copied_accept.grows.coherent second_coherent
      have copied_reject := copied_block third_coherent runs_reject
      have reaches_third := copied_reject.reaches.trans reaches
      rw [occurrences_branch, ← List.append_assoc] at undisturbed same
      obtain ⟨undisturbed, undisturbed_reject, apart_reject⟩ := undisturbed.append
      obtain ⟨-, undisturbed_accept, apart_accept⟩ := undisturbed.append
      have same_third := settled_before copied_reject apart_reject same
      have head := rebuilds_bare coherent runs_bare (copied_accept.reaches.trans reaches_third)
        (settled_before copied_accept apart_accept same_third)
      rw [Instruction.withBlocks_of_branch head, Instruction.relabel,
        Block.rebuilds accept second accept' third second_coherent undisturbed_accept runs_accept
          final reaches_third fun id touched => same_third id (touched_append.mpr (.inr touched)),
        Block.rebuilds reject third reject' after third_coherent undisturbed_reject runs_reject
          final reaches fun id touched => same id (touched_append.mpr (.inr touched))]
  | .loop body => by
      intro before clone after coherent undisturbed runs final reaches same
      obtain ⟨changed, body', second, rfl, runs_bare, runs_body⟩ := run_loop_eq_ok runs
      have second_coherent := (copied_bare coherent runs_bare).grows.coherent coherent
      have copied_body := copied_block second_coherent runs_body
      rw [occurrences_loop] at undisturbed same
      obtain ⟨-, undisturbed_body, apart_body⟩ := undisturbed.append
      have head := rebuilds_bare coherent runs_bare (copied_body.reaches.trans reaches)
        (settled_before copied_body apart_body same)
      rw [Instruction.withBlocks_of_loop head, Instruction.relabel,
        Block.rebuilds body second body' after second_coherent undisturbed_body runs_body final
          reaches fun id touched => same id (touched_append.mpr (.inr touched))]
  | .declare _ | .function _ | .assign _ _ _ | .call _ _ _ | .leave | .next | .yield _ | .discard
  | .emitVertex | .endPrimitive => by
      intro before clone after coherent undisturbed runs final reaches same
      rw [Instruction.mapInstructions] at runs
      · exact Instruction.eq_relabel_of_bare (rebuilds_bare coherent runs reaches same)
          fun _ _ => rfl
      all_goals simp

theorem Block.rebuilds : (block : List Instruction) →
    Rebuilds source Block.relabel (Block.nodes fun _ => []) block
      (Block.mapInstructions (CloneM.instruction source) block)
  | [] => by
      intro before clone after coherent undisturbed runs final reaches same
      cases runs
      rfl
  | instruction :: rest => by
      intro before clone after coherent undisturbed runs final reaches same
      obtain ⟨head, tail, halfway, rfl, runs_first, runs_rest⟩ := run_cons_eq_ok runs
      have copied := (Instruction.clones instruction before head halfway coherent
        (declaredFirst_of_free (fun _ => .inr trivial) _) runs_first :
          Copied source anyVariable before halfway _ _ ∧ _).1
      have halfway_coherent := copied.grows.coherent coherent
      have copied_rest := copied_block halfway_coherent runs_rest
      simp only [Block.nodes, occurrences_append] at undisturbed same
      obtain ⟨undisturbed_first, undisturbed_rest, apart⟩ := undisturbed.append
      rw [Block.relabel, Instruction.rebuilds instruction before head halfway coherent
          undisturbed_first runs_first final (copied_rest.reaches.trans reaches)
          (settled_before copied_rest apart same),
        Block.rebuilds rest halfway tail after halfway_coherent undisturbed_rest runs_rest final
          reaches fun id touched => same id (touched_append.mpr (.inr touched))]

end

end CloneM

/-! ## Targets that have grown -/

namespace Shader

/-- A shader has got more, and has kept what it had: variables and signatures are in their places,
and what stands at the top level does so in the same order, between new variables and new
functions. -/
structure Extends (before after : Shader) : Prop where
  vars : ∀ {id declared}, before.vars.get? id = some declared → after.vars.get? id = some declared
  functions : ∀ {id function}, before.functions.get? id = some function →
    ∃ grown, after.functions.get? id = some grown ∧ grown.name = function.name ∧
      function.signatures <+: grown.signatures
  topLevel : ∃ (declared : List VariableId) (announced : List FunctionId), after.topLevel =
    declared.map .declare ++ before.topLevel ++ announced.map .function
  rest : after = { before with
    vars := after.vars, functions := after.functions, topLevel := after.topLevel
    symbols := after.symbols }

theorem Extends.refl (shader : Shader) : shader.Extends shader :=
  ⟨fun found => found, fun found => ⟨_, found, rfl, List.prefix_refl _⟩, ⟨[], [], by simp⟩, rfl⟩

theorem Extends.trans {first second third : Shader} (before : first.Extends second)
    (after : second.Extends third) : first.Extends third where
  vars found := after.vars (before.vars found)
  functions found := by
    obtain ⟨grown, halfway, named, longer⟩ := before.functions found
    obtain ⟨last, there, named_on, longer_on⟩ := after.functions halfway
    exact ⟨last, there, named_on.trans named, longer.trans longer_on⟩
  topLevel := by
    obtain ⟨declared, announced, split⟩ := before.topLevel
    obtain ⟨declared_on, announced_on, split_on⟩ := after.topLevel
    refine ⟨declared_on ++ declared, announced ++ announced_on, ?_⟩
    simp [split, split_on]
  rest := by rw [after.rest, before.rest]

theorem Growth.extends {source before after : Shader} {free : VariableId → Prop}
    (growth : Growth source free before after) : before.Extends after where
  vars := growth.get?_of_get?
  functions := growth.signatures
  topLevel := by
    cases growth with
    | @global id declared _ _ _ => exact ⟨[before.vars.size], [], by simp [declareFirst]⟩
    | function unknown =>
        exact ⟨[], [before.functions.size], by simp [declareFunction, unknown]⟩
    | copy _ => exact ⟨[], [], by simp [addVariable]⟩
    | announce _ => exact ⟨[], [], by simp [Shader.announce]⟩
  rest := by
    cases growth with
    | function unknown => simp [declareFunction, unknown]
    | _ => rfl

theorem Grows.extends {source before after : Shader} {free : VariableId → Prop}
    (grows : Grows source free before after) : before.Extends after := by
  induction grows with
  | refl => exact .refl _
  | tail _ growth ih => exact ih.trans growth.extends

end Shader

/-! ## Clones -/

/-- An occurrence with another handle. -/
def Occurrence.relabel (names : Relabeling) : Occurrence → Occurrence
  | declares id => declares (names.declares id)
  | mentions id => mentions (names.mentions id)
  | calls callee => calls (names.calls callee)

theorem occurrences_relabel (names : Relabeling) (nodes : List Node) :
    occurrences (nodes.map (Node.relabel names)) =
      (occurrences nodes).map (Occurrence.relabel names) := by
  rw [occurrences, occurrences, List.filterMap_map, List.map_filterMap]
  refine List.filterMap_congr fun node _ => ?_
  cases node with
  | instruction inner => cases inner <;> rfl
  | expr inner => rfl
  | place inner => cases inner <;> rfl

/-- A clone is an instruction list without function declarations and with other handles, where each
variable and each callee has one that stands for it. -/
structure Represents (source target extended : Shader) (renamed : List (VariableId × VariableId))
    (block clone : Block) (vars : VariableId → VariableId) (calls : Callee → Callee) : Prop where
  same :
    clone = Block.relabel { declares := vars, mentions := vars, functions := id, calls := calls }
    (Block.updateBlocks (List.filter CloneM.isNoFunction) block)
  /-- What is declared becomes a new variable that is no global. -/
  declared : ∀ id ∈ Shader.declaredIn block.ownNodes,
    target.vars.size ≤ vars id ∧ vars id ∉ extended.globals ∧
      ∃ declared, source.vars.get? id = some declared ∧ extended.vars.get? (vars id) = some declared
  apart : ∀ one ∈ Shader.declaredIn block.ownNodes, ∀ other ∈ Shader.declaredIn block.ownNodes,
    vars one = vars other → one = other
  given : ∀ id counterpart, id ∉ Shader.declaredIn block.ownNodes →
    renamed.lookup id = some counterpart → vars id = counterpart
  /-- What is neither declared nor has been given a counterpart becomes a global of its name. -/
  named : ∀ id, Node.place (.whole id) ∈ block.ownNodes → id ∉ Shader.declaredIn block.ownNodes →
    renamed.lookup id = none → vars id ∈ extended.globals ∧ ∃ declared found,
      source.vars.get? id = some declared ∧ extended.vars.get? (vars id) = some found ∧
        found.name = declared.name ∧ extended.symbols.vars.get? declared.name = some (vars id)
  called : ∀ callee arguments result,
    Node.instruction (.call callee arguments result) ∈ block.ownNodes →
      ∃ name types, source.HasKey callee name types ∧ extended.HasKey (calls callee) name types ∧
        extended.HasCallee (calls callee)

namespace Represents

variable {source target extended : Shader} {renamed : List (VariableId × VariableId)}
  {block clone : Block} {vars : VariableId → VariableId} {calls : Callee → Callee}

/-- What occurs in the clone stands for what occurs in the list. -/
theorem occurrences_clone
    (represents : Represents source target extended renamed block clone vars calls) :
    occurrences clone.ownNodes = (occurrences block.ownNodes).map
      (Occurrence.relabel
        { declares := vars, mentions := vars, functions := id, calls := calls }) := by
  have kept := CloneM.Block.withoutFunctions_occurrences block
  rw [represents.same, Block.ownNodes_relabel, occurrences_relabel]
  exact congrArg (List.map _) kept

/-- The handles of the clone point somewhere if the counterparts given do. -/
theorem holds (represents : Represents source target extended renamed block clone vars calls)
    (bound : ∀ id counterpart, renamed.lookup id = some counterpart →
      counterpart < extended.vars.size) : extended.Holds clone.ownNodes where
  declares other listed := by
    have occurs := represents.occurrences_clone ▸ declares_mem.mpr listed
    obtain ⟨occurrence, there, same⟩ := List.mem_map.mp occurs
    cases occurrence with
    | declares id =>
        obtain rfl : vars id = other := Occurrence.declares.inj same
        obtain ⟨-, -, _, -, found⟩ :=
          represents.declared id (mem_declaredIn.mpr (declares_mem.mp there))
        exact Arena.lt_of_get? found
    | _ => cases same
  mentions other listed := by
    have occurs := represents.occurrences_clone ▸ mentions_mem.mpr listed
    obtain ⟨occurrence, there, same⟩ := List.mem_map.mp occurs
    cases occurrence with
    | mentions id =>
        obtain rfl : vars id = other := Occurrence.mentions.inj same
        by_cases is_declared : id ∈ Shader.declaredIn block.ownNodes
        · obtain ⟨-, -, _, -, found⟩ := represents.declared id is_declared
          exact Arena.lt_of_get? found
        · cases known : renamed.lookup id with
          | some counterpart =>
              rw [represents.given id counterpart is_declared known]
              exact bound id counterpart known
          | none =>
              obtain ⟨-, _, _, -, found, -⟩ :=
                represents.named id (mentions_mem.mp there) is_declared known
              exact Arena.lt_of_get? found
    | _ => cases same
  calls other arguments result listed := by
    have occurs := represents.occurrences_clone ▸ calls_mem.mpr ⟨arguments, result, listed⟩
    obtain ⟨occurrence, there, same⟩ := List.mem_map.mp occurs
    cases occurrence with
    | calls callee =>
        obtain rfl : calls callee = other := Occurrence.calls.inj same
        obtain ⟨arguments', result', call⟩ := calls_mem.mp there
        obtain ⟨_, _, -, -, has⟩ := represents.called callee arguments' result' call
        exact has
    | _ => cases same

end Represents

namespace CloneM

open Cloning

variable {source : Shader} {final : Cloning}

theorem lookup_of_added {added : List (VariableId × VariableId)} {id : VariableId}
    (listed : id ∈ added.map (·.1)) (before : List (VariableId × VariableId)) :
    ∃ counterpart, (added ++ before).lookup id = some counterpart ∧ (id, counterpart) ∈ added := by
  cases found : added.lookup id with
  | none =>
      obtain ⟨pair, inside, rfl⟩ := List.mem_map.mp listed
      simpa using List.lookup_eq_none_iff.mp found pair inside
  | some counterpart =>
      obtain ⟨earlier, later, rfl, -⟩ := List.lookup_eq_some_iff.mp found
      exact ⟨counterpart, by rw [List.lookup_append, found, Option.some_or], by simp⟩

/-- If no variable is declared after it has occurred, the clone represents the instruction list. -/
theorem represents_of_block {block clone : Block} {target : Shader}
    {renamed : List (VariableId × VariableId)} (coherent : target.Coherent)
    (undisturbed : Undisturbed (occurrences block.ownNodes))
    (runs : (CloneM.block source block).run ⟨target, renamed⟩ = .ok (clone, final)) :
    Represents source target final.target renamed block clone (stands source final)
      (answers source final) := by
  have kept := Block.withoutFunctions_occurrences block
  have kept_declared : Shader.declaredIn (Block.nodes (fun _ => [])
      (Block.updateBlocks (List.filter isNoFunction) block)) =
      Shader.declaredIn block.ownNodes := by
    rw [declaredIn_eq_filterMap, kept, ← declaredIn_eq_filterMap, Block.ownNodes]
  obtain ⟨copied, alike⟩ := Block.clones _ ⟨target, renamed⟩ clone final coherent
    (declaredFirst_of_free (fun _ => .inr trivial) _) runs
  have final_coherent := copied.grows.coherent coherent
  have related := (alike final (.refl final)).ownNodes
  obtain ⟨-, fresh, news, keys, -⟩ := copied
  rw [kept_declared] at keys
  have is_fresh : ∀ id ∈ Shader.declaredIn block.ownNodes,
      ∃ counterpart, stands source final id = counterpart ∧ (id, counterpart) ∈ fresh := by
    intro id listed
    obtain ⟨counterpart, given, inside⟩ :=
      lookup_of_added (keys ▸ List.mem_reverse.mpr listed) renamed
    exact ⟨counterpart, stands_of_lookup (news.renamed ▸ given), inside⟩
  have not_fresh : ∀ id ∉ Shader.declaredIn block.ownNodes,
      final.renamed.lookup id = renamed.lookup id := by
    intro id missing
    rw [news.renamed]
    refine lookup_append_of_not_mem ?_
    rw [keys, List.mem_reverse]
    exact missing
  constructor
  case same =>
    exact Block.rebuilds _ _ clone final coherent (kept ▸ undisturbed) runs final (.refl final)
      fun _ _ => rfl
  case declared =>
    intro id listed
    obtain ⟨counterpart, stands, inside⟩ := is_fresh id listed
    obtain ⟨new, -, no_global⟩ := news.new _ inside
    rw [stands]
    exact ⟨new, no_global, news.copies _ inside⟩
  case apart =>
    intro one listed other listed_other same
    obtain ⟨counterpart, stands, inside⟩ := is_fresh one listed
    obtain ⟨counterpart', stands', inside'⟩ := is_fresh other listed_other
    obtain rfl : counterpart = counterpart' := stands.symm.trans (same.trans stands')
    exact congrArg Prod.fst (List.inj_on_of_nodup_map news.once inside inside' rfl)
  case given =>
    exact fun id counterpart missing known => stands_of_lookup ((not_fresh id missing).trans known)
  case named =>
    intro id listed missing unknown
    have occurs : Occurrence.mentions id ∈ occurrences (Block.ownNodes
        (Block.updateBlocks (List.filter isNoFunction) block)) := kept ▸ mentions_mem.mpr listed
    obtain ⟨node, -, alike_node⟩ := exists_of_forall₂ related.flip (mentions_mem.mp occurs)
    have not_given := (not_fresh id missing).trans unknown
    cases alike_node with
    | place alike_place =>
        cases alike_place with
        | @whole _ counterpart stands =>
            rcases stands with given | ⟨-, global, declared, found, was, there, same⟩
            · simpa using List.lookup_eq_none_iff.mp not_given _ given
            · obtain ⟨existing, bound⟩ := Option.isSome_iff_exists.mp
                (final_coherent.known counterpart global found there)
              obtain ⟨existing_global, entry, held, named⟩ := final_coherent.variable_of bound
              rw [same] at bound named
              rw [stands_of_name not_given was bound]
              exact ⟨existing_global, declared, entry, was, held, named, bound⟩
  case called =>
    intro callee arguments result listed
    have occurs : Occurrence.calls callee ∈ occurrences (Block.ownNodes
        (Block.updateBlocks (List.filter isNoFunction) block)) :=
      kept ▸ calls_mem.mpr ⟨arguments, result, listed⟩
    obtain ⟨arguments', result', there⟩ := calls_mem.mp occurs
    obtain ⟨node, -, alike_node⟩ := exists_of_forall₂ related.flip there
    cases alike_node with
    | instruction alike_call =>
        cases alike_call with
        | call same _ _ =>
            obtain ⟨name, types, has, finds⟩ := sameKey_answers same
            exact ⟨name, types, has, finds.hasKey final_coherent, finds.hasCallee final_coherent⟩

/-- Cloning an instruction list into a sturdy target, where no variable is declared twice or after
it has been used, gives the list with other handles that all point somewhere, and leaves in the
target what has been there. -/
theorem block_represents {block : Block} {target : Shader}
    {renamed : List (VariableId × VariableId)} (sturdy : target.Sturdy)
    (bound : ∀ pair ∈ renamed, pair.2 < target.vars.size)
    (provides : source.Provides block.ownNodes)
    (undisturbed : Undisturbed (occurrences block.ownNodes)) :
    ∃ clone extended vars calls,
      (CloneM.block source block).runOn target renamed = .ok (clone, extended) ∧
      Represents source target extended renamed block clone vars calls ∧
      extended.Holds clone.ownNodes ∧ target.Extends extended := by
  obtain ⟨clone, extended, runs⟩ := exists_block renamed sturdy provides
  obtain ⟨⟨found, final⟩, runs_block, finish⟩ := Checked.bind_eq_ok.mp runs
  obtain ⟨rfl, rfl⟩ : found = clone ∧ final.target = extended := by simpa using finish
  have represents := represents_of_block sturdy.coherent undisturbed runs_block
  have grows := grows_of_block sturdy.coherent runs
  refine ⟨found, final.target, _, _, runs, represents, represents.holds ?_, grows.extends⟩
  intro id counterpart known
  obtain ⟨earlier, later, split, -⟩ := List.lookup_eq_some_iff.mp known
  exact Nat.lt_of_lt_of_le (bound (id, counterpart) (by simp [split])) grows.size_le

/-! ## Examples -/

/-- A fragment shader whose function scales something by a parameter and the global tint. -/
def scaling : Shader :=
  ({ stage := .fragment, version := 150
     vars := ⟨[.ofType "tint" .float .uniform, .ofType "amount" .float .functionIn,
       .ofType "scaled" .float .temporary, .ofType "x" .float .functionIn]⟩
     functions := ⟨[{ name := "helper", signatures := [.announce .void [3]] }]⟩
     topLevel := [.declare 0, .function 0] } : Shader).populateSymbols

/-- A local variable is declared, computed from the parameter and the tint, and passed on in a
loop. -/
def scale : Block :=
  [.declare 2,
    .store (.whole 2) (.binary .multiply (.load (.whole 1)) (.load (.whole 0)) .float),
    .loop [.call ⟨0, 0⟩ [.load (.whole 2)] none, .leave]]

/-- A fragment shader with a result, to which something is to be moved. -/
def resulting : Shader :=
  ({ stage := .fragment, version := 150, vars := ⟨[.ofType "result" .float .shaderOut]⟩
     topLevel := [.declare 0] } : Shader).populateSymbols

theorem sturdy_resulting : resulting.Sturdy where
  coherent := Shader.populateSymbols_coherent (by decide +kernel)
  parameters := by decide +kernel

theorem scale_represents :
    resulting.Sturdy ∧
      (∀ pair ∈ [((1 : VariableId), (0 : VariableId))], pair.2 < resulting.vars.size) ∧
    scaling.Provides scale.ownNodes ∧ Undisturbed (occurrences scale.ownNodes) ∧
    ∃ clone extended vars calls,
      (CloneM.block scaling scale).runOn resulting [(1, 0)] = .ok (clone, extended) ∧
      Represents scaling resulting extended [(1, 0)] scale clone vars calls ∧
      extended.Holds clone.ownNodes ∧ resulting.Extends extended := by
  have bound : ∀ pair ∈ [((1 : VariableId), (0 : VariableId))], pair.2 < resulting.vars.size := by
    decide +kernel
  have occurring : occurrences scale.ownNodes =
      [.declares 2, .mentions 2, .mentions 1, .mentions 0, .calls ⟨0, 0⟩, .mentions 2] := rfl
  have provides : scaling.Provides scale.ownNodes := by
    refine ⟨fun id listed => ?_, fun id listed => ?_, fun callee arguments result listed => ?_⟩
    · have occurs := declares_mem.mpr listed
      obtain rfl : id = 2 := by simpa [occurring] using occurs
      decide +kernel
    · have occurs := mentions_mem.mpr listed
      obtain rfl | rfl | rfl | rfl : id = 2 ∨ id = 1 ∨ id = 0 ∨ id = 2 := by
        simpa [occurring] using occurs
      all_goals decide +kernel
    · have occurs := calls_mem.mpr ⟨arguments, result, listed⟩
      obtain rfl : callee = ⟨0, 0⟩ := by simpa [occurring] using occurs
      exact ⟨"helper", [.float], _, .announce .void [3], rfl, rfl, rfl, rfl⟩
  have undisturbed : Undisturbed (occurrences scale.ownNodes) := by decide +kernel
  exact ⟨sturdy_resulting, bound, provides, undisturbed,
    block_represents sturdy_resulting bound provides undisturbed⟩

/-- A fragment shader with a variable for counting. -/
def counting : Shader :=
  ({ stage := .fragment, version := 150, vars := ⟨[.ofType "count" .float .temporary]⟩ } :
    Shader).populateSymbols

/-- The variable is declared before each of its uses, but twice. -/
def recount : Block :=
  [.declare 0, .store (.whole 0) (.constant (.float .one)),
    .declare 0, .store (.whole 0) (.constant (.float .one))]

/-- The two declarations of a variable become different variables, so that none stands for it. -/
theorem recount_is_not_relabeled :
    resulting.Sturdy ∧ counting.Provides recount.ownNodes ∧
    DeclaredFirst (fun _ => False) [] (occurrences recount.ownNodes) ∧
    ∃ clone extended, (CloneM.block counting recount).runOn resulting [] = .ok (clone, extended) ∧
      ∀ names,
        clone ≠ Block.relabel names (Block.updateBlocks (List.filter isNoFunction) recount) := by
  have occurring : occurrences recount.ownNodes =
      [.declares 0, .mentions 0, .declares 0, .mentions 0] := rfl
  refine ⟨sturdy_resulting, ⟨fun id listed => ?_, fun id listed => ?_, fun callee _ _ listed => ?_⟩,
    by decide +kernel, _, _, rfl, fun names same => ?_⟩
  · have occurs := declares_mem.mpr listed
    obtain rfl : id = 0 := by simpa [occurring] using occurs
    decide +kernel
  · have occurs := mentions_mem.mpr listed
    obtain rfl : id = 0 := by simpa [occurring] using occurs
    decide +kernel
  · have occurs := calls_mem.mpr ⟨_, _, listed⟩
    simp [occurring] at occurs
  · have first : Instruction.declare 1 = .declare (names.declares 0) := (List.cons.inj same).1
    have second : Instruction.declare 2 = .declare (names.declares 0) :=
      congrArg (·.getD 2 .leave) same
    exact absurd (first.trans second.symm) (by simp)

end CloneM
end StageLink
