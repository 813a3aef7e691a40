import StageLink.Proofs.Growth
import StageLink.Proofs.Occurrences

/-!
# What cloning gives

Cloning an instruction list gives one that is alike.  What is declared in it are new variables, no
two of them the same, that are no globals; what is mentioned in it has been given a counterpart, or
is the global of the name; and whatever is called is what the target finds by the name and the
parameter types.
-/

namespace StageLink

def ByName (source target : Shader) (id counterpart : VariableId) : Prop :=
  counterpart ∈ target.globals ∧ ∃ declared found, source.vars.get? id = some declared ∧
    target.vars.get? counterpart = some found ∧ found.name = declared.name

theorem ByName.grows {source before after : Shader} {id counterpart : VariableId}
    (by_name : ByName source before counterpart id)
    (grows : Shader.Grows source free before after) :
    ByName source after counterpart id := by
  obtain ⟨global, declared, found, was, is_there, named⟩ := by_name
  exact ⟨grows.globals.1 global, declared, found, was, grows.get?_of_get? is_there, named⟩

namespace Cloning

/-- The target has grown, and no variable has been given a counterpart. -/
structure Steady (source : Shader) (free : VariableId → Prop) (before after : Cloning) : Prop where
  grows : Shader.Grows source free before.target after.target
  renamed : after.renamed = before.renamed

/-- New counterparts: copies of variables of the source that have been added in between and are no
globals, each the counterpart of one variable. -/
structure Fresh (source : Shader) (before after : Cloning)
    (fresh : List (VariableId × VariableId)) : Prop where
  renamed : after.renamed = fresh ++ before.renamed
  once : (fresh.map (·.2)).Nodup
  new : ∀ pair ∈ fresh, before.target.vars.size ≤ pair.2 ∧ pair.2 < after.target.vars.size ∧
    pair.2 ∉ after.target.globals
  copies : ∀ pair ∈ fresh, ∃ declared, source.vars.get? pair.1 = some declared ∧
    after.target.vars.get? pair.2 = some declared

/-- The target has grown, and some variables have been given new counterparts. -/
structure Reaches (source : Shader) (free : VariableId → Prop) (before after : Cloning) : Prop where
  grows : Shader.Grows source free before.target after.target
  fresh : ∃ fresh, Fresh source before after fresh

variable {source : Shader} {free : VariableId → Prop} {first second third : Cloning}

theorem Steady.refl (cloning : Cloning) : Steady source free cloning cloning := ⟨.refl, rfl⟩

theorem Steady.trans (before : Steady source free first second)
    (after : Steady source free second third) :
    Steady source free first third :=
  ⟨before.grows.trans after.grows, after.renamed.trans before.renamed⟩

theorem Steady.fresh (steady : Steady source free first second) : Fresh source first second [] :=
  ⟨steady.renamed, List.nodup_nil, by simp, by simp⟩

theorem Fresh.trans {one other : List (VariableId × VariableId)}
    (before : Fresh source first second one) (after : Fresh source second third other)
    (grows : Shader.Grows source free first.target second.target)
    (grows_on : Shader.Grows source free second.target third.target) :
    Fresh source first third (other ++ one) where
  renamed := by rw [after.renamed, before.renamed, List.append_assoc]
  once := by
    rw [List.map_append, List.nodup_append]
    refine ⟨after.once, before.once, ?_⟩
    intro later in_other earlier in_one same
    obtain ⟨pair, listed, rfl⟩ := List.mem_map.mp in_other
    obtain ⟨old, listed_old, rfl⟩ := List.mem_map.mp in_one
    have above := (after.new pair listed).1
    have below := (before.new old listed_old).2.1
    rw [same] at above
    exact Nat.not_le_of_lt below above
  new := by
    intro pair listed
    rcases List.mem_append.mp listed with later | earlier
    · obtain ⟨above, below, no_global⟩ := after.new pair later
      exact ⟨Nat.le_trans grows.size_le above, below, no_global⟩
    · obtain ⟨above, below, no_global⟩ := before.new pair earlier
      refine ⟨above, Nat.lt_of_lt_of_le below grows_on.size_le, fun global => ?_⟩
      rcases grows_on.globals.2 global with old | new
      · exact no_global old
      · exact Nat.not_le_of_lt below new
  copies := by
    intro pair listed
    rcases List.mem_append.mp listed with later | earlier
    · exact after.copies pair later
    · obtain ⟨declared, was, copied⟩ := before.copies pair earlier
      exact ⟨declared, was, grows_on.get?_of_get? copied⟩

theorem Reaches.refl (cloning : Cloning) : Reaches source free cloning cloning :=
  ⟨.refl, [], ⟨rfl, List.nodup_nil, by simp, by simp⟩⟩

theorem Reaches.trans (before : Reaches source free first second)
    (after : Reaches source free second third) : Reaches source free first third := by
  obtain ⟨grows, one, fresh⟩ := before
  obtain ⟨grows_on, other, fresh_on⟩ := after
  exact ⟨grows.trans grows_on, other ++ one, fresh.trans fresh_on grows grows_on⟩

theorem Steady.reaches (steady : Steady source free first second) :
    Reaches source free first second :=
  ⟨steady.grows, [], steady.fresh⟩

/-- What stands for a variable of the source in the end: the counterpart it has been given, or, if
it may be found by name, the global of its name. -/
def Counterpart (source : Shader) (free : VariableId → Prop) (final : Cloning)
    (id counterpart : VariableId) : Prop :=
  (id, counterpart) ∈ final.renamed ∨ free id ∧ ByName source final.target id counterpart

theorem Counterpart.reaches {id counterpart : VariableId}
    (stands : Counterpart source free first id counterpart)
    (reaches : Reaches source free first second) :
    Counterpart source free second id counterpart := by
  obtain ⟨grows, fresh, news⟩ := reaches
  rcases stands with given | ⟨is_free, by_name⟩
  · exact .inl (by rw [news.renamed]; exact List.mem_append_right _ given)
  · exact .inr ⟨is_free, by_name.grows grows⟩

/-- The target has grown, and the variables listed have been given the new counterparts listed, in
this order. -/
structure Copied (source : Shader) (free : VariableId → Prop) (before after : Cloning)
    (ids copies : List VariableId) : Prop where
  grows : Shader.Grows source free before.target after.target
  fresh : ∃ fresh, Fresh source before after fresh ∧ fresh.map (·.1) = ids.reverse ∧
    fresh.map (·.2) = copies.reverse

theorem Steady.copied (steady : Steady source free first second) :
    Copied source free first second [] [] :=
  ⟨steady.grows, [], steady.fresh, rfl, rfl⟩

theorem Copied.trans {ids copies more others : List VariableId}
    (before : Copied source free first second ids copies)
    (after : Copied source free second third more others) :
    Copied source free first third (ids ++ more) (copies ++ others) := by
  obtain ⟨grows, one, fresh, keys, values⟩ := before
  obtain ⟨grows_on, other, fresh_on, keys_on, values_on⟩ := after
  refine ⟨grows.trans grows_on, other ++ one, fresh.trans fresh_on grows grows_on, ?_, ?_⟩
  · rw [List.map_append, keys, keys_on, List.reverse_append]
  · rw [List.map_append, values, values_on, List.reverse_append]

theorem Copied.reaches {ids copies : List VariableId}
    (copied : Copied source free first second ids copies) : Reaches source free first second := by
  obtain ⟨grows, fresh, news, -⟩ := copied
  exact ⟨grows, fresh, news⟩

/-- The variables that have been given a counterpart. -/
def known (cloning : Cloning) : List VariableId := cloning.renamed.map (·.1)

theorem Copied.known {ids copies : List VariableId}
    (copied : Copied source free first second ids copies) :
    second.known = ids.reverse ++ first.known := by
  obtain ⟨-, fresh, news, keys, -⟩ := copied
  rw [Cloning.known, news.renamed, List.map_append, keys]
  rfl

end Cloning

namespace CloneM

open Cloning

/-! ## Steps without new counterparts -/

/-- What a step of cloning without new counterparts ensures when the variables known have been given
counterparts before; its result is looked at from the final state of the cloning. -/
def quiet (source : Shader) (free : VariableId → Prop) (final : Cloning)
    (known : List VariableId) : Ensuring CloneM where
  ensures step post := ∀ before result after, before.target.Coherent →
    (∀ id ∈ known, ∃ counterpart, (id, counterpart) ∈ before.renamed) →
    step.run before = .ok (result, after) →
    Steady source free before after ∧ (Reaches source free after final → post result)
  pure := by
    intro _ result post holds before answer after _ _ runs
    cases runs
    exact ⟨.refl _, fun _ => holds⟩
  bind := by
    intro _ _ first next middle post first_ensures next_ensures before result after coherent knows
      runs
    rw [StateT.run_bind] at runs
    obtain ⟨⟨part, halfway⟩, runs_first, following⟩ := Checked.bind_eq_ok.mp runs
    obtain ⟨steady, ensured⟩ := first_ensures before part halfway coherent knows runs_first
    have halfway_coherent := steady.grows.coherent coherent
    have halfway_knows : ∀ id ∈ known, ∃ counterpart, (id, counterpart) ∈ halfway.renamed := by
      rw [steady.renamed]
      exact knows
    obtain ⟨steady_on, ensured_on⟩ :=
      next_ensures part halfway result after halfway_coherent halfway_knows following
    exact ⟨steady.trans steady_on,
      fun reaches => ensured_on reaches (ensured (steady_on.reaches.trans reaches))⟩
  weaken := by
    intro _ _ _ _ implies holds before result after coherent knows runs
    obtain ⟨steady, ensured⟩ := holds before result after coherent knows runs
    exact ⟨steady, fun reaches => implies _ (ensured reaches)⟩

variable {source : Shader} {final : Cloning} {known : List VariableId} {free : VariableId → Prop}

/-- A variable has a counterpart already, or has the name of a global of the target, or becomes a
global there. -/
theorem variableFor_cases {id result : VariableId} {before after : Cloning}
    (runs : (variableFor source id).run before = .ok (result, after)) :
    before.renamed.lookup id = some result ∧ after = before ∨
    before.renamed.lookup id = none ∧ ∃ declared, source.vars.get? id = some declared ∧
      (before.target.symbols.vars.get? declared.name = some result ∧ after = before ∨
        before.target.symbols.vars.get? declared.name = none ∧ result = before.target.vars.size ∧
          after = { before with target := before.target.declareFirst declared }) := by
  unfold variableFor at runs
  cases given : before.renamed.lookup id with
  | some counterpart =>
      obtain ⟨rfl, rfl⟩ : counterpart = result ∧ before = after := by simpa [given] using runs
      exact .inl ⟨rfl, rfl⟩
  | none =>
      simp only [StateT.run_bind, StateT.run_get, pure_bind, given, StateT.run_monadLift,
        monadLift_self, bind_pure_comp, bind_map_left] at runs
      obtain ⟨declared, fetched, following⟩ := Checked.bind_eq_ok.mp runs
      refine .inr ⟨rfl, declared, Shader.fetchVariable_eq_ok.mp fetched, ?_⟩
      cases bound : before.target.symbols.vars.get? declared.name with
      | some existing =>
          obtain ⟨rfl, rfl⟩ : existing = result ∧ before = after := by
            simpa [bound] using following
          exact .inl ⟨rfl, rfl⟩
      | none =>
          obtain ⟨rfl, rfl⟩ : before.target.vars.size = result ∧
              { before with target := before.target.declareFirst declared } = after := by
            simpa [bound, declareFirst, addVariable, Shader.addVariable, Shader.declareFirst]
              using following
          exact .inr ⟨rfl, rfl, rfl⟩

theorem quiet_variableFor {id : VariableId} (found : id ∈ known ∨ free id) :
    (quiet source free final known).ensures (variableFor source id)
      (Counterpart source free final id) := by
  intro before result after coherent knows runs
  obtain ⟨given, rfl⟩ | ⟨missing, declared, was, outcome⟩ := variableFor_cases runs
  · obtain ⟨earlier, later, split, -⟩ := List.lookup_eq_some_iff.mp given
    have stands : Counterpart source free after id result := .inl (by simp [split])
    exact ⟨.refl _, stands.reaches⟩
  · have is_free : free id := by
      rcases found with is_known | is_free
      · obtain ⟨counterpart, listed⟩ := knows id is_known
        simpa using List.lookup_eq_none_iff.mp missing _ listed
      · exact is_free
    obtain ⟨bound, rfl⟩ | ⟨unbound, rfl, rfl⟩ := outcome
    · obtain ⟨global, entry, is_there, named⟩ := coherent.variable_of bound
      have by_name : ByName source after.target id result :=
        ⟨global, declared, entry, was, is_there, named⟩
      exact ⟨.refl _, fun reaches => .inr ⟨is_free, by_name.grows reaches.grows⟩⟩
    · have growth : Shader.Grows source free before.target (before.target.declareFirst declared) :=
        .single (.global is_free was unbound)
      have by_name : ByName source (before.target.declareFirst declared) id
          before.target.vars.size :=
        ⟨List.mem_cons_self .., declared, declared, was, Arena.get?_push_size _ _, rfl⟩
      exact ⟨⟨growth, rfl⟩, fun reaches => .inr ⟨is_free, by_name.grows reaches.grows⟩⟩

theorem quiet_place {nodes : List Node}
    (found : ∀ id, Node.place (.whole id) ∈ nodes → id ∈ known ∨ free id) :
    Faithful (quiet source free final known) (CloneM.place source)
      (Counterpart source free final) nodes where
  wholes id listed := (quiet source free final known).bind (quiet_variableFor (found id listed))
    fun _ => (quiet source free final known).pure .whole
  parts after part := by
    cases after with
    | whole id => cases part
    | element array index ty => exact (quiet source free final known).pure fun _ same => same
    | field record name ty => exact (quiet source free final known).pure fun _ same => same

/-! ## Callees -/

theorem functionNamed_eq_ok {before after : Cloning} {name : String} {function : FunctionId}
    (coherent : before.target.Coherent)
    (runs : (functionNamed name).run before = .ok (function, after)) :
    Steady source free before after ∧ after.target.symbols.functions.get? name = some function ∧
      function ∈ after.target.declaredFunctions := by
  obtain ⟨rfl, rfl⟩ : (before.target.declareFunction name).2 = function ∧
      { before with target := (before.target.declareFunction name).1 } = after := by
    simpa [functionNamed] using runs
  cases bound : before.target.symbols.functions.get? name with
  | some existing =>
      simp only [Shader.declareFunction, bound]
      exact ⟨.refl _, trivial, (coherent.function_of bound).1⟩
  | none =>
      refine ⟨⟨.single (.function bound), rfl⟩, ?_⟩
      simp [Shader.declareFunction, bound, Shader.mem_declaredFunctions, SymbolTable.addFunction]

theorem copyVariable_eq_ok {before after : Cloning} {id copy : VariableId}
    (runs : (copyVariable source id).run before = .ok (copy, after)) :
    ∃ declared, source.vars.get? id = some declared ∧ copy = before.target.vars.size ∧
      after = { before with target := (before.target.addVariable declared).1 } := by
  simp only [copyVariable, addVariable, StateT.run_bind] at runs
  obtain ⟨declared, fetched, equal⟩ : ∃ declared, source.fetchVariable id = .ok declared ∧
      ((before.target.addVariable declared).2,
        { before with target := (before.target.addVariable declared).1 }) = (copy, after) := by
    simpa using runs
  obtain ⟨rfl, rfl⟩ := Prod.mk.inj equal
  exact ⟨declared, Shader.fetchVariable_eq_ok.mp fetched, rfl, rfl⟩

/-- Copies of some variables take the next positions in order. -/
theorem copies_eq_ok {ids copies : List VariableId} {before after : Cloning}
    (runs : (ids.mapM (copyVariable source)).run before = .ok (copies, after)) :
    ∃ declared : List Variable,
      List.Forall₂ (fun id entry => source.vars.get? id = some entry) ids declared ∧
      copies = List.range' before.target.vars.size declared.length ∧
      after =
        { before with
          target := { before.target with vars := before.target.vars.append declared } } := by
  induction ids generalizing before copies with
  | nil =>
      cases runs
      exact ⟨[], .nil, rfl, by simp [Arena.append]⟩
  | cons id ids ih =>
      rw [List.mapM_cons, StateT.run_bind] at runs
      obtain ⟨⟨copy, halfway⟩, runs_first, following⟩ := Checked.bind_eq_ok.mp runs
      rw [StateT.run_bind] at following
      obtain ⟨⟨others, reached⟩, runs_rest, finish⟩ := Checked.bind_eq_ok.mp following
      obtain ⟨rfl, rfl⟩ : copy :: others = copies ∧ reached = after := by simpa using finish
      obtain ⟨declared, found, rfl, rfl⟩ := copyVariable_eq_ok runs_first
      obtain ⟨rest, copied, rfl, rfl⟩ := ih runs_rest
      refine ⟨declared :: rest, .cons found copied, ?_, ?_⟩
      · simp [Shader.addVariable, List.range'_succ]
      · simp [Shader.addVariable, Arena.append, Arena.push]

theorem typesOf_copied {ids : List VariableId} {declared : List Variable}
    (copied : List.Forall₂ (fun id entry => source.vars.get? id = some entry) ids declared) :
    source.typesOf ids = .ok (declared.map (·.ty)) := by
  refine Shader.typesOf_eq_ok.mpr (List.forall₂_map_right_iff.mpr ?_)
  exact copied.imp fun _ entry found => ⟨entry, found, rfl⟩

theorem announce_eq_ok {before after : Cloning} {function : FunctionId} {signature : Signature}
    {original callee : Callee} {name : String} {types : List Ty}
    (there : source.At original signature) (has : source.HasKey original name types)
    (typed : source.typesOf signature.parameters = .ok types)
    (bound : before.target.symbols.functions.get? name = some function)
    (is_declared : function ∈ before.target.declaredFunctions)
    (lacking : before.target.findSignature function types = .ok none)
    (runs : (announce source function signature).run before = .ok (callee, after)) :
    Steady source free before after ∧ after.target.Finds name types callee := by
  rw [announce, StateT.run_bind] at runs
  obtain ⟨⟨parameters, halfway⟩, runs_first, following⟩ := Checked.bind_eq_ok.mp runs
  obtain ⟨declared, copied, rfl, rfl⟩ := copies_eq_ok runs_first
  simp [Signature.announce, Shader.addSignature] at following
  obtain ⟨entry, fetched, rfl, rfl⟩ := following
  obtain rfl : declared.map (·.ty) = types :=
    Except.ok.inj ((typesOf_copied copied).symm.trans typed)
  have lacks : Shader.Lacks source before.target function entry signature declared :=
    { origin := ⟨original, name, has, there, bound⟩
      found := Shader.fetchFunction_eq_ok.mp fetched
      is_declared := is_declared
      copied := copied
      lacking := lacking }
  exact ⟨⟨.single (.announce lacks), rfl⟩, lacks.finds bound⟩

theorem calleeFor_eq_ok {before after : Cloning} {callee counterpart : Callee}
    (coherent : before.target.Coherent)
    (runs : (calleeFor source callee).run before = .ok (counterpart, after)) :
    Steady source free before after ∧ ∃ name types, source.HasKey callee name types ∧
      after.target.Finds name types counterpart := by
  simp [calleeFor] at runs
  obtain ⟨function, fetched, following⟩ := Checked.bind_eq_ok.mp runs
  obtain ⟨signature, fetched_signature, following⟩ := Checked.bind_eq_ok.mp following
  obtain ⟨types, typed, following⟩ := Checked.bind_eq_ok.mp following
  obtain ⟨⟨named, halfway⟩, runs_named, following⟩ := Checked.bind_eq_ok.mp following
  obtain ⟨position, found, finish⟩ := Checked.bind_eq_ok.mp following
  obtain ⟨steady, bound, is_declared⟩ := functionNamed_eq_ok coherent runs_named
  have there := Shader.fetchSignature_eq_ok.mp fetched_signature
  have has : source.HasKey callee function.name types := by
    obtain ⟨owner, held, at_position⟩ := there.function
    obtain rfl : function = owner :=
      Option.some.inj ((Shader.fetchFunction_eq_ok.mp fetched).symm.trans held)
    exact ⟨function, signature, held, rfl, at_position, typed⟩
  cases position with
  | some position =>
      obtain ⟨rfl, rfl⟩ : Callee.mk named position = counterpart ∧ halfway = after := by
        simpa using finish
      exact ⟨steady, function.name, types, has, bound, found⟩
  | none =>
      obtain ⟨steady_on, finds⟩ := announce_eq_ok there has typed bound is_declared found finish
      exact ⟨steady.trans steady_on, function.name, types, has, finds⟩

/-- Callees correspond if what one stands for is found by the name and parameter types of the
other. -/
def SameKey (source target : Shader) (callee counterpart : Callee) : Prop :=
  ∃ name types, source.HasKey callee name types ∧ target.Finds name types counterpart

theorem quiet_calleeFor {callee : Callee} :
    (quiet source free final known).ensures (calleeFor source callee)
      (SameKey source final.target callee) := by
  intro before counterpart after coherent _ runs
  obtain ⟨steady, name, types, has, finds⟩ := calleeFor_eq_ok coherent runs
  exact ⟨steady, fun reaches => ⟨name, types, has, finds.grows reaches.grows⟩⟩

/-! ## Instructions -/

/-- How an instruction list corresponds to its clone. -/
def correspondence (source : Shader) (free : VariableId → Prop) (final : Cloning) : Renaming where
  declares id counterpart := (id, counterpart) ∈ final.renamed
  mentions := Counterpart source free final
  functions := Eq
  calls := SameKey source final.target

/-- An instruction that declares nothing is rebuilt without new counterparts. -/
theorem quiet_instruction {instruction : Instruction}
    (no_declaration : ∀ id, instruction ≠ .declare id)
    (found : ∀ id, Node.place (.whole id) ∈ instruction.operandNodes → id ∈ known ∨ free id) :
    (quiet source free final known).ensures (CloneM.instruction source instruction) fun clone =>
      Instruction.Alike (correspondence source free final) instruction.bare clone.bare := by
  have others : (∀ callee arguments result, instruction ≠ .call callee arguments result) →
      (quiet source free final known).ensures (Instruction.mapPlaces (place source) instruction)
        fun clone => Instruction.Alike (correspondence source free final) instruction.bare
          clone.bare := fun no_call =>
    Instruction.mapPlaces_alike _ instruction (quiet_place found)
      (fun id same => absurd same (no_declaration id)) (fun _ _ => rfl)
      fun _ _ _ same => absurd same (no_call _ _ _)
  cases instruction with
  | declare id => exact absurd rfl (no_declaration id)
  | call callee arguments result =>
      let strict := { correspondence source free final with calls := Eq }
      refine (quiet source free final known).bind quiet_calleeFor fun rebuilt => ?_
      have rest : (quiet source free final known).ensures
          (Instruction.mapPlaces (place source) (.call rebuilt arguments result)) fun clone =>
            Instruction.Alike strict (Instruction.call rebuilt arguments result).bare clone.bare :=
        Instruction.mapPlaces_alike _ _ (quiet_place found) (by simp) (by simp)
          fun _ _ _ _ => rfl
      refine (quiet source free final known).weaken ?_ rest
      intro clone alike has
      cases clone with
      | call _ _ _ =>
          cases alike with
          | call same arguments_alike result_alike =>
              obtain rfl : rebuilt = _ := same
              exact .call has arguments_alike result_alike
      | _ => cases alike
  | _ => exact others (by simp)

theorem localVariable_eq_ok {before after : Cloning} {id copy : VariableId}
    (coherent : before.target.Coherent)
    (runs : (localVariable source id).run before = .ok (copy, after)) :
    Copied source free before after [id] [copy] ∧ (id, copy) ∈ after.renamed := by
  rw [localVariable, StateT.run_bind] at runs
  obtain ⟨⟨added, halfway⟩, runs_first, following⟩ := Checked.bind_eq_ok.mp runs
  obtain ⟨declared, found, rfl, rfl⟩ := copyVariable_eq_ok runs_first
  obtain ⟨rfl, rfl⟩ : before.target.vars.size = copy ∧
      { target := (before.target.addVariable declared).1,
        renamed := (id, before.target.vars.size) :: before.renamed } = after := by
    simpa [rename] using following
  refine ⟨⟨.single (.copy found), [(id, before.target.vars.size)], ⟨rfl, ?_, ?_, ?_⟩, rfl, rfl⟩, ?_⟩
  · exact List.nodup_singleton _
  · intro pair listed
    obtain rfl := List.mem_singleton.mp listed
    refine ⟨Nat.le_refl _, by simp [Shader.addVariable], fun global => ?_⟩
    exact Nat.lt_irrefl _ (coherent.bound _ global)
  · intro pair listed
    obtain rfl := List.mem_singleton.mp listed
    exact ⟨declared, found, Arena.get?_push_size _ _⟩
  · exact List.mem_cons_self ..

/-- What is to be shown of a run that clones something: what has been copied, and that the clone is
alike in the end. -/
def Clones {Part : Type} (source : Shader) (free : VariableId → Prop)
    (alike : Renaming → Part → Part → Prop) (nodes : Part → List Node) (part : Part)
    (step : CloneM Part) : Prop :=
  ∀ before clone after, before.target.Coherent →
    DeclaredFirst free before.known (occurrences (nodes part)) →
    step.run before = .ok (clone, after) →
    Copied source free before after (Shader.declaredIn (nodes part))
      (Shader.declaredIn (nodes clone)) ∧
      ∀ final, Reaches source free after final → alike (correspondence source free final) part clone

theorem Instruction.Alike.no_declaration {renames : Renaming} {instruction other : Instruction}
    (alike : Instruction.Alike renames instruction.bare other.bare)
    (no_declaration : ∀ id, instruction ≠ .declare id) (id : VariableId) : other ≠ .declare id := by
  rintro rfl
  cases instruction with
  | declare id => exact no_declaration id rfl
  | _ => cases alike

/-- An instruction apart from the blocks inside it. -/
theorem clones_bare (instruction : Instruction) :
    Clones source free
      (fun renames before after => Instruction.Alike renames before.bare after.bare)
      (fun part => part.bare.nodes fun _ => []) instruction
      (CloneM.instruction source instruction) := by
  intro before clone after coherent first runs
  by_cases declares : ∃ id, instruction = .declare id
  · obtain ⟨id, rfl⟩ := declares
    rw [CloneM.instruction, StateT.run_bind] at runs
    obtain ⟨⟨copy, halfway⟩, runs_first, following⟩ := Checked.bind_eq_ok.mp runs
    obtain ⟨rfl, rfl⟩ : Instruction.declare copy = clone ∧ halfway = after := by
      simpa using following
    obtain ⟨copied, given⟩ := localVariable_eq_ok coherent runs_first
    refine ⟨copied, fun final reaches => .declare ?_⟩
    obtain ⟨-, fresh, news⟩ := reaches
    change _ ∈ final.renamed
    rw [news.renamed]
    exact List.mem_append_right _ given
  · have no_declaration : ∀ id, instruction ≠ .declare id := fun id same => declares ⟨id, same⟩
    have found : ∀ id, Node.place (.whole id) ∈ instruction.operandNodes →
        id ∈ before.known ∨ free id := by
      intro id listed
      refine first.mentioned ?_ (mentions_mem.mpr (mem_bare_of_mem_operands listed))
      intro other inside
      have := mem_declaredIn.mpr (declares_mem.mp inside)
      rw [declaredIn_bare no_declaration] at this
      cases this
    have knows : ∀ id ∈ before.known, ∃ counterpart, (id, counterpart) ∈ before.renamed := by
      intro id listed
      obtain ⟨pair, inside, rfl⟩ := List.mem_map.mp listed
      exact ⟨pair.2, inside⟩
    have result := fun final : Cloning =>
      @quiet_instruction _ final _ _ _ no_declaration found before clone after coherent knows runs
    have steady := (result after).1
    have other := Instruction.Alike.no_declaration ((result after).2 (.refl after)) no_declaration
    rw [declaredIn_bare no_declaration, declaredIn_bare other]
    exact ⟨steady.copied, fun final => (result final).2⟩

/-! ## Runs over nested lists -/

section Runs

variable {change : Instruction → CloneM Instruction} {before after : Cloning}

theorem run_branch_eq_ok {condition : Expr} {accept reject : List Instruction} {clone : Instruction}
    (runs : ((Instruction.branch condition accept reject).mapInstructions change).run before =
      .ok (clone, after)) :
    ∃ changed accept' reject' second third, clone = changed.withBlocks accept' reject' ∧
      (change (.branch condition accept reject)).run before = .ok (changed, second) ∧
      (Block.mapInstructions change accept).run second = .ok (accept', third) ∧
      (Block.mapInstructions change reject).run third = .ok (reject', after) := by
  rw [Instruction.mapInstructions, StateT.run_bind] at runs
  obtain ⟨⟨changed, second⟩, runs_bare, following⟩ := Checked.bind_eq_ok.mp runs
  rw [StateT.run_bind] at following
  obtain ⟨⟨accept', third⟩, runs_accept, following⟩ := Checked.bind_eq_ok.mp following
  rw [StateT.run_bind] at following
  obtain ⟨⟨reject', reached⟩, runs_reject, finish⟩ := Checked.bind_eq_ok.mp following
  obtain ⟨rfl, rfl⟩ : changed.withBlocks accept' reject' = clone ∧ reached = after := by
    simpa using finish
  exact ⟨changed, accept', reject', second, third, rfl, runs_bare, runs_accept, runs_reject⟩

theorem run_loop_eq_ok {body : List Instruction} {clone : Instruction}
    (runs : ((Instruction.loop body).mapInstructions change).run before = .ok (clone, after)) :
    ∃ changed body' second, clone = changed.withBlocks body' [] ∧
      (change (.loop body)).run before = .ok (changed, second) ∧
      (Block.mapInstructions change body).run second = .ok (body', after) := by
  rw [Instruction.mapInstructions, StateT.run_bind] at runs
  obtain ⟨⟨changed, second⟩, runs_bare, following⟩ := Checked.bind_eq_ok.mp runs
  rw [StateT.run_bind] at following
  obtain ⟨⟨body', reached⟩, runs_body, finish⟩ := Checked.bind_eq_ok.mp following
  obtain ⟨rfl, rfl⟩ : changed.withBlocks body' [] = clone ∧ reached = after := by
    simpa using finish
  exact ⟨changed, body', second, rfl, runs_bare, runs_body⟩

theorem run_cons_eq_ok {instruction : Instruction} {rest clone : List Instruction}
    (runs : (Block.mapInstructions change (instruction :: rest)).run before = .ok (clone, after)) :
    ∃ head tail halfway, clone = head :: tail ∧
      (instruction.mapInstructions change).run before = .ok (head, halfway) ∧
      (Block.mapInstructions change rest).run halfway = .ok (tail, after) := by
  rw [Block.mapInstructions, StateT.run_bind] at runs
  obtain ⟨⟨head, halfway⟩, runs_first, following⟩ := Checked.bind_eq_ok.mp runs
  rw [StateT.run_bind] at following
  obtain ⟨⟨tail, reached⟩, runs_rest, finish⟩ := Checked.bind_eq_ok.mp following
  obtain ⟨rfl, rfl⟩ : head :: tail = clone ∧ reached = after := by simpa using finish
  exact ⟨head, tail, halfway, rfl, runs_first, runs_rest⟩

end Runs

/-- What occurs in a conditional occurs apart from its blocks or in one of them. -/
theorem occurrences_branch (condition : Expr) (accept reject : List Instruction) :
    occurrences ((Instruction.branch condition accept reject).nodes fun _ => []) =
      occurrences ((Instruction.branch condition accept reject).bare.nodes fun _ => []) ++
        (occurrences (Block.ownNodes accept) ++ occurrences (Block.ownNodes reject)) := by
  simp [Instruction.bare, Instruction.withBlocks, Instruction.nodes, Block.nodes,
    occurrences_cons, Node.occurrence?, Block.ownNodes]

theorem occurrences_loop (body : List Instruction) :
    occurrences ((Instruction.loop body).nodes fun _ => []) =
      occurrences ((Instruction.loop body).bare.nodes fun _ => []) ++
        occurrences (Block.ownNodes body) := by
  simp [Instruction.bare, Instruction.withBlocks, Instruction.nodes, Block.nodes,
    occurrences_cons, Node.occurrence?, Block.ownNodes]

mutual

theorem Instruction.clones : (instruction : Instruction) →
    Clones source free Instruction.Alike (fun part => part.nodes fun _ => []) instruction
      (instruction.mapInstructions (CloneM.instruction source))
  | .branch condition accept reject => by
      intro before clone after coherent first runs
      obtain ⟨changed, accept', reject', second, third, rfl, runs_bare, runs_accept, runs_reject⟩ :=
        run_branch_eq_ok runs
      rw [occurrences_branch, declaredFirst_append, declaredFirst_append, ← declaredIn_eq_filterMap,
        ← declaredIn_eq_filterMap] at first
      obtain ⟨copied, alike⟩ := clones_bare _ before changed second coherent first.1 runs_bare
      obtain ⟨copied_accept, alike_accept⟩ := Block.clones accept second accept' third
        (copied.grows.coherent coherent) (copied.known ▸ first.2.1) runs_accept
      have known_third : third.known = (Shader.declaredIn (Block.ownNodes accept)).reverse ++ _ :=
        copied_accept.known
      obtain ⟨copied_reject, alike_reject⟩ := Block.clones reject third reject' after
        ((copied.trans copied_accept).grows.coherent coherent)
        (known_third ▸ copied.known ▸ first.2.2) runs_reject
      have last := copied_accept.reaches.trans copied_reject.reaches
      obtain ⟨condition', _, _, rfl⟩ := (alike second (.refl second)).is_branch
      refine ⟨?_, fun final reaches => ?_⟩
      · have all := copied.trans (copied_accept.trans copied_reject)
        simpa [Instruction.withBlocks, declaredIn_branch, declaredIn_bare] using all
      · exact (alike final (last.trans reaches)).branch_of_bare
          (alike_accept final (copied_reject.reaches.trans reaches)) (alike_reject final reaches)
  | .loop body => by
      intro before clone after coherent first runs
      obtain ⟨changed, body', second, rfl, runs_bare, runs_body⟩ := run_loop_eq_ok runs
      rw [occurrences_loop, declaredFirst_append, ← declaredIn_eq_filterMap] at first
      obtain ⟨copied, alike⟩ := clones_bare _ before changed second coherent first.1 runs_bare
      obtain ⟨copied_body, alike_body⟩ := Block.clones body second body' after
        (copied.grows.coherent coherent) (copied.known ▸ first.2) runs_body
      obtain ⟨_, rfl⟩ := (alike second (.refl second)).is_loop
      refine ⟨?_, fun final reaches => ?_⟩
      · have all := copied.trans copied_body
        simpa [Instruction.withBlocks, declaredIn_loop, declaredIn_bare] using all
      · exact (alike final (copied_body.reaches.trans reaches)).loop_of_bare
          (alike_body final reaches)
  | .declare _ | .function _ | .assign _ _ _ | .call _ _ _ | .leave | .next | .yield _ | .discard
  | .emitVertex | .endPrimitive => by
      intro before clone after coherent first runs
      rw [Instruction.mapInstructions] at runs
      · obtain ⟨copied, alike⟩ := clones_bare _ before clone after coherent first runs
        have bare := (alike after (.refl after)).bare_eq fun _ _ => rfl
        simp only [bare.1, bare.2] at copied
        exact ⟨copied, fun final reaches => (alike final reaches).of_bare fun _ _ => rfl⟩
      all_goals simp

theorem Block.clones : (block : List Instruction) →
    Clones source free Block.Alike (Block.nodes fun _ => []) block
      (Block.mapInstructions (CloneM.instruction source) block)
  | [] => by
      intro before clone after coherent first runs
      cases runs
      exact ⟨(Steady.refl _).copied, fun _ _ => .nil⟩
  | instruction :: rest => by
      intro before clone after coherent first runs
      obtain ⟨head, tail, halfway, rfl, runs_first, runs_rest⟩ := run_cons_eq_ok runs
      simp only [Block.nodes, occurrences_append, declaredIn_append, declaredFirst_append,
        ← declaredIn_eq_filterMap] at first ⊢
      obtain ⟨copied, alike⟩ := Instruction.clones instruction before head halfway coherent first.1
        runs_first
      obtain ⟨copied_rest, alike_rest⟩ := Block.clones rest halfway tail after
        (copied.grows.coherent coherent) (copied.known ▸ first.2) runs_rest
      exact ⟨copied.trans copied_rest, fun final reaches =>
        .cons (alike final (copied_rest.reaches.trans reaches)) (alike_rest final reaches)⟩

end

/-! ## Instruction lists -/

mutual

theorem Instruction.withoutFunctions_occurrences : (instruction : Instruction) →
    occurrences ((Id.run (instruction.mapInnerBlocks fun inner =>
      pure (List.filter isNoFunction inner))).nodes fun _ => []) =
      occurrences (instruction.nodes fun _ => [])
  | .branch condition accept reject => by
      have first := Block.withoutFunctions_occurrences accept
      have second := Block.withoutFunctions_occurrences reject
      simp only [Block.updateBlocks, Block.mapBlocks, Id.run_bind, Id.run_pure] at first second
      simp [Instruction.mapInnerBlocks, Instruction.nodes, occurrences_cons, Node.occurrence?,
        first, second]
  | .loop body => by
      have inner := Block.withoutFunctions_occurrences body
      simp only [Block.updateBlocks, Block.mapBlocks, Id.run_bind, Id.run_pure] at inner
      simp [Instruction.mapInnerBlocks, Instruction.nodes, occurrences_cons, Node.occurrence?,
        inner]
  | .declare _ | .function _ | .assign _ _ _ | .call _ _ _ | .leave | .next | .yield _ | .discard
  | .emitVertex | .endPrimitive => rfl

/-- Function declarations hold no handles that count. -/
theorem Block.withoutFunctions_occurrences : (block : List Instruction) →
    occurrences (Block.nodes (fun _ => [])
      (Block.updateBlocks (List.filter isNoFunction) block)) =
      occurrences (Block.nodes (fun _ => []) block)
  | [] => rfl
  | instruction :: rest => by
      have head := Instruction.withoutFunctions_occurrences instruction
      have tail := Block.withoutFunctions_occurrences rest
      simp only [Block.updateBlocks, Block.mapBlocks, Block.mapInnerBlocks, Id.run_bind,
        Id.run_pure, List.filter_cons] at head tail ⊢
      rw [Block.nodes, occurrences_append, ← head, ← tail]
      split
      · rw [Block.nodes, occurrences_append]
      · next dropped =>
          cases form : Id.run (instruction.mapInnerBlocks fun inner =>
            pure (List.filter isNoFunction inner)) with
          | function id => rfl
          | _ => exact absurd (by rw [form]; rfl) dropped

end

theorem block_eq_ok {block clone : Block} {target extended : Shader}
    {renamed : List (VariableId × VariableId)} (coherent : target.Coherent)
    (first : DeclaredFirst free (renamed.map (·.1)) (occurrences (Block.ownNodes block)))
    (runs : (CloneM.block source block).runOn target renamed = .ok (clone, extended)) :
    ∃ final : Cloning, final.target = extended ∧
      Copied source free ⟨target, renamed⟩ final (Shader.declaredIn (Block.ownNodes block))
        (Shader.declaredIn (Block.ownNodes clone)) ∧
      Block.Alike (correspondence source free final)
        (Block.updateBlocks (List.filter isNoFunction) block) clone := by
  obtain ⟨⟨found, final⟩, runs_block, finish⟩ := Checked.bind_eq_ok.mp runs
  obtain ⟨rfl, rfl⟩ : found = clone ∧ final.target = extended := by simpa using finish
  have same := Block.withoutFunctions_occurrences block
  have first_filtered : DeclaredFirst free (Cloning.known ⟨target, renamed⟩)
      (occurrences (Block.nodes (fun _ => [])
        (Block.updateBlocks (List.filter isNoFunction) block))) := same ▸ first
  obtain ⟨copied, alike⟩ := Block.clones _ _ found final coherent first_filtered runs_block
  rw [declaredIn_eq_filterMap, same, ← declaredIn_eq_filterMap] at copied
  exact ⟨final, rfl, copied, alike final (.refl final)⟩

/-- However variables are declared, cloning an instruction list lets the target grow. -/
theorem grows_of_block {block clone : Block} {target extended : Shader}
    {renamed : List (VariableId × VariableId)} (coherent : target.Coherent)
    (runs : (CloneM.block source block).runOn target renamed = .ok (clone, extended)) :
    Shader.Grows source (fun _ => True) target extended := by
  obtain ⟨final, rfl, copied, -⟩ :=
    block_eq_ok coherent (declaredFirst_of_free (fun _ => .inr trivial) _) runs
  exact copied.grows

end CloneM
end StageLink
