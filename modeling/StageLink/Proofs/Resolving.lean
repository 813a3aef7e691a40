import StageLink.Proofs.Libraries

/-!
# Resolution of calls

While calls are resolved, a shader keeps what it has and gets definitions that are cloned from the
first library that has one.  Every call without definition is one that has to be defined, so the
calls can be resolved exactly if some library defines each of these.
-/

namespace StageLink
namespace Shader

/-! ## What is kept -/

/-- Variables, globals, functions and statements stay, and signatures are found as before. -/
structure Evolves (before after : Shader) : Prop where
  vars : KeepsVariables before after
  size : before.vars.size ≤ after.vars.size
  globals : ∀ {id}, (id ∈ before.globals → id ∈ after.globals) ∧
    (id ∈ after.globals → id ∈ before.globals ∨ before.vars.size ≤ id)
  declared : ∀ {id}, (id ∈ before.declaredFunctions → id ∈ after.declaredFunctions) ∧
    (id ∈ after.declaredFunctions → id ∈ before.declaredFunctions ∨ before.functions.size ≤ id)
  functions : before.functions.size ≤ after.functions.size
  named : ∀ {name id}, before.symbols.functions.get? name = some id →
    after.symbols.functions.get? name = some id
  statements : ∀ {node}, node ∈ before.topLevel.ownNodes → node ∈ after.topLevel.ownNodes
  finds : ∀ {name types callee}, before.Finds name types callee → after.Finds name types callee
  hasKey : ∀ {callee name types}, before.HasKey callee name types → after.HasKey callee name types

theorem Evolves.refl (shader : Shader) : Evolves shader shader :=
  ⟨fun _ _ found => found, Nat.le_refl _, ⟨id, .inl⟩, ⟨id, .inl⟩, Nat.le_refl _, id, id, id, id⟩

theorem Evolves.trans {first second third : Shader} (one : Evolves first second)
    (other : Evolves second third) : Evolves first third where
  vars id declared found := other.vars id declared (one.vars id declared found)
  size := Nat.le_trans one.size other.size
  globals := by
    refine ⟨fun global => other.globals.1 (one.globals.1 global), fun global => ?_⟩
    rcases other.globals.2 global with old | new
    · exact one.globals.2 old
    · exact .inr (Nat.le_trans one.size new)
  declared := by
    refine ⟨fun listed => other.declared.1 (one.declared.1 listed), fun listed => ?_⟩
    rcases other.declared.2 listed with old | new
    · exact one.declared.2 old
    · exact .inr (Nat.le_trans one.functions new)
  functions := Nat.le_trans one.functions other.functions
  named bound := other.named (one.named bound)
  statements listed := other.statements (one.statements listed)
  finds found := other.finds (one.finds found)
  hasKey has := other.hasKey (one.hasKey has)

theorem Grows.evolves {source before after : Shader} {free : VariableId → Prop}
    (grows : Grows source free before after) : Evolves before after where
  vars _ _ := grows.get?_of_get?
  size := grows.size_le
  globals := grows.globals
  declared := ⟨grows.declaredFunctions, grows.mem_declaredFunctions⟩
  functions := grows.functions_size_le
  named := grows.functionNamed
  statements := grows.mem_ownNodes
  finds found := found.grows grows
  hasKey has := has.grows grows

theorem evolves_modifySignature {shader : Shader} {target : Callee} {change : Signature → Signature}
    (same : ∀ signature, (change signature).parameters = signature.parameters) :
    Evolves shader (shader.modifySignature target change) where
  vars _ _ found := found
  size := Nat.le_refl _
  globals := ⟨id, .inl⟩
  declared := ⟨id, .inl⟩
  functions := by simp [modifySignature]
  named := id
  statements := id
  finds := (keepsKeys_modifySignature same).1.finds
  hasKey := (keepsKeys_modifySignature same).1.hasKey

theorem Sturdy.modifySignature {shader : Shader} (sturdy : shader.Sturdy) {target : Callee}
    {change : Signature → Signature}
    (same : ∀ signature, (change signature).parameters = signature.parameters) :
    (shader.modifySignature target change).Sturdy where
  coherent := Merge.coherent_modifySignature sturdy.coherent target change
  parameters := by
    intro id is_declared signature listed
    rw [signaturesOf_modifySignature] at listed
    obtain ⟨old, listed_old, equal⟩ : ∃ old ∈ shader.signaturesOf id,
        signature.parameters = old.parameters := by
      split at listed
      · obtain ⟨position, there⟩ := List.mem_iff_getElem?.mp listed
        rw [List.getElem?_modify] at there
        obtain ⟨old, held, rfl⟩ := Option.map_eq_some_iff.mp there
        refine ⟨old, List.mem_of_getElem? held, ?_⟩
        split
        · exact same old
        · rfl
      · exact ⟨signature, listed, rfl⟩
    rw [equal]
    exact sturdy.parameters id is_declared old listed_old

end Shader

namespace Resolution

open Shader

/-! ## Cloned definitions -/

/-- The signature has the body of a definition of the source.  Its parameters stand in the place of
those of the definition, new copies in the place of the variables declared in the body, globals of
the same name in the place of others, and the signatures found by name and types in the place of
callees. -/
def ClonedFrom (source : Shader) (definition : Signature) (target : Shader)
    (clone : Signature) : Prop :=
  ∃ fresh : List (VariableId × VariableId),
    fresh.map (·.1) = (declaredIn definition.body.ownNodes).reverse ∧ (fresh.map (·.2)).Nodup ∧
    (∀ pair ∈ fresh, pair.2 ∉ target.globals ∧ ∃ declared,
      source.vars.get? pair.1 = some declared ∧ target.vars.get? pair.2 = some declared) ∧
    Block.Alike (CloneM.correspondence source (NoParameter definition clone)
        ⟨target, fresh ++ (definition.parameters.zip clone.parameters).reverse⟩)
      definition.body clone.body

variable {source before after : Shader} {definition clone : Signature}

/-- What has been cloned stays a clone. -/
theorem ClonedFrom.evolves (cloned : ClonedFrom source definition before clone)
    (evolves : Evolves before after) : ClonedFrom source definition after clone := by
  obtain ⟨fresh, keys, once, news, alike⟩ := cloned
  refine ⟨fresh, keys, once, fun pair listed => ?_, alike.mono ?_⟩
  · obtain ⟨no_global, declared, was, copied⟩ := news pair listed
    refine ⟨fun global => ?_, declared, was, evolves.vars _ _ copied⟩
    rcases evolves.globals.2 global with old | new
    · exact no_global old
    · exact Nat.not_le_of_lt (Arena.lt_of_get? copied) new
  · refine ⟨fun given => given, ?_, fun same => same, ?_⟩
    · rintro id counterpart (given | ⟨is_free, global, declared, found, was, there, named⟩)
      · exact .inl given
      · exact .inr ⟨is_free, evolves.globals.1 global, declared, found, was,
          evolves.vars _ _ there, named⟩
    · rintro callee counterpart ⟨name, types, has, finds⟩
      exact ⟨name, types, has, evolves.finds finds⟩

theorem ClonedFrom.callee (cloned : ClonedFrom source definition before clone) {callee : Callee}
    (listed : callee ∈ callees clone.body.ownNodes) :
    ∃ original ∈ callees definition.body.ownNodes, ∃ name types,
      source.HasKey original name types ∧ before.Finds name types callee := by
  obtain ⟨fresh, -, -, -, alike⟩ := cloned
  exact exists_of_forall₂ alike.callees listed

/-- Every call in a definition has a counterpart in the clone. -/
theorem ClonedFrom.counterpart (cloned : ClonedFrom source definition before clone)
    {callee : Callee} (listed : callee ∈ callees definition.body.ownNodes) :
    ∃ counterpart ∈ callees clone.body.ownNodes, ∃ name types,
      source.HasKey callee name types ∧ before.Finds name types counterpart := by
  obtain ⟨fresh, -, -, -, alike⟩ := cloned
  exact exists_of_forall₂ alike.callees.flip listed

/-! ## One step -/

/-- What holds while the calls of a shader are resolved: it evolves and stays sturdy, its calls are
made to declared functions, and those without definition are wanted.  What has been defined stays
so, and the other definitions are clones. -/
structure Reached (libraries : List Shader) (start now : Shader) : Prop where
  evolves : Evolves start now
  sturdy : now.Sturdy
  on_top : now.FunctionsOnTop
  calls : ∀ callee ∈ callees now.nodes, callee.function ∈ now.declaredFunctions ∧
    ∃ name types, now.HasKey callee name types
  kept : ∀ {callee signature}, start.At callee signature → signature.isDefined = true →
    now.At callee signature
  wanted : ∀ callee ∈ callees now.nodes, ∀ {signature name types}, now.At callee signature →
    signature.isDefined = false → now.HasKey callee name types → Wanted libraries start name types
  cloned : ∀ {callee signature}, now.At callee signature → signature.isDefined = true →
    start.At callee signature ∨ (∀ old, start.At callee old → old.isDefined = false) ∧
      ∃ name types library definition, now.HasKey callee name types ∧
        FirstDefines name types libraries library definition ∧
        ClonedFrom library definition now signature

variable {libraries : List Shader} {start now library resolved : Shader} {target : Callee}
  {announced : Signature} {name : String} {types : List Ty}

theorem reached_refl (libraries : List Shader) (formed : start.WellFormed) :
    Reached libraries start start where
  evolves := .refl start
  sturdy := formed.sturdy
  on_top := formed.on_top
  calls callee listed := by
    obtain ⟨arguments, result, there⟩ := mem_callees_iff.mp listed
    have has := formed.holds.calls callee arguments result there
    exact ⟨has.1, hasKey_of_hasCallee formed.sturdy has⟩
  kept there _ := there
  wanted _ listed _ _ _ there undefined has := .called listed there undefined has
  cloned there _ := .inl there

theorem exists_define (formed : library.WellFormed) (sturdy : now.Sturdy)
    (there : now.At target announced) (defines : library.Defines name types definition) :
    ∃ resolved, define now target library definition = .ok resolved := by
  obtain ⟨callee, is_declared, -, in_library, -⟩ := defines
  have listed := List.mem_of_getElem? in_library
  have holds := formed.holds.mono (nodes_of_body is_declared listed)
  obtain ⟨body, extended, runs⟩ := CloneM.exists_block
    (definition.parameters.zip announced.parameters).reverse sturdy (holds.provides formed.sturdy)
  refine ⟨extended.modifySignature target (settled definition body), ?_⟩
  rw [define, fetchSignature_eq_ok.mpr there, Checked.ok_bind]
  dsimp only
  rw [runs]
  rfl

theorem define_clones (sturdy : now.Sturdy) (free : definition.body.FunctionFree)
    (there : now.At target announced)
    (runs : define now target library definition = .ok resolved) :
    ∃ body grown, Grows library (NoParameter definition announced) now grown ∧
      body.FunctionFree ∧ ClonedFrom library definition grown (settled definition body announced) ∧
      resolved = grown.modifySignature target (settled definition body) := by
  obtain ⟨announced', body, final, there', copied, alike, rfl⟩ := define_eq_ok sturdy.coherent runs
  obtain rfl := there.unique there'
  rw [Block.withoutFunctions_of_free _ free] at alike
  refine ⟨body, final.target, copied.grows, free.alike alike, ?_, rfl⟩
  obtain ⟨fresh, news, keys, values⟩ := copied.fresh
  refine ⟨fresh, keys, news.once, fun pair listed => ?_, ?_⟩
  · exact ⟨(news.new pair listed).2.2, news.copies pair listed⟩
  · have same :
      final = ⟨final.target, fresh ++ (definition.parameters.zip announced.parameters).reverse⟩ :=
      congrArg (Cloning.mk final.target) news.renamed
    rw [same] at alike
    exact alike

/-- What defining a signature without definition gives.  Only that one has got another signature,
which is a clone of the definition, and only the clone has calls that have not been there before. -/
structure Settles (now resolved library : Shader) (target : Callee) (definition : Signature) :
    Prop where
  evolves : Evolves now resolved
  sturdy : resolved.Sturdy
  on_top : resolved.FunctionsOnTop
  calls : ∀ callee ∈ callees resolved.nodes, callee ∈ callees now.nodes ∨
    ∃ original ∈ callees definition.body.ownNodes, ∃ name types,
      library.HasKey original name types ∧ resolved.Finds name types callee
  kept : ∀ {callee signature}, now.At callee signature → signature.isDefined = true →
    resolved.At callee signature
  undefined : ∀ {callee signature earlier}, resolved.At callee signature →
    signature.isDefined = false → now.At callee earlier → earlier = signature
  defined : ∀ {callee signature}, resolved.At callee signature → signature.isDefined = true →
    now.At callee signature ∨ callee = target ∧ ClonedFrom library definition resolved signature

theorem define_settles (reached : Reached libraries start now) (free : definition.body.FunctionFree)
    (there : now.At target announced) (undefined : announced.isDefined = false)
    (runs : define now target library definition = .ok resolved) :
    Settles now resolved library target definition := by
  obtain ⟨body, grown, grows, body_free, cloned, rfl⟩ :=
    define_clones reached.sturdy free there runs
  have keeps_parameters : ∀ signature,
      (settled definition body signature).parameters = signature.parameters := fun _ => rfl
  have renews : ∀ signature, (settled definition body signature).body = body := fun _ => rfl
  have grown_on_top := reached.on_top.grows grows
  have last : Evolves grown (grown.modifySignature target (settled definition body)) :=
    evolves_modifySignature keeps_parameters
  have at_target : grown.At target announced := (at_grows grows).1 there
  exact
    { evolves := grows.evolves.trans last
      sturdy := (reached.sturdy.grows grows).modifySignature keeps_parameters
      on_top := grown_on_top.modifySignature renews body_free
      calls := by
        intro callee listed
        rcases grown_on_top.callees_modifySignature renews body_free listed with old | new
        · exact .inl (reached.on_top.callees_grows grows old)
        · obtain ⟨original, in_definition, other, others, has_other, finds⟩ := cloned.callee new
          exact .inr ⟨original, in_definition, other, others, has_other, last.finds finds⟩
      kept := by
        intro callee signature was defined
        refine at_modifySignature.mpr ⟨signature, (at_grows grows).1 was, ?_⟩
        rw [if_neg]
        rintro rfl
        rw [was.unique there, undefined] at defined
        cases defined
      undefined := by
        intro callee signature earlier at_now undefined_now at_earlier
        obtain ⟨old, was, equal⟩ := at_modifySignature.mp at_now
        split at equal
        · rw [equal] at undefined_now
          cases undefined_now
        · subst equal
          exact ((at_grows grows).1 at_earlier).unique was
      defined := by
        intro callee signature at_now defined
        obtain ⟨old, was, equal⟩ := at_modifySignature.mp at_now
        split at equal
        · next same =>
            subst same
            obtain rfl := was.unique at_target
            subst equal
            exact .inr ⟨rfl, cloned.evolves last⟩
        · subst equal
          rcases (at_grows grows).2 was with in_now | announced_now
          · exact .inl in_now
          · rw [announced_now.undefined] at defined
            cases defined }

/-- Defining a signature that is wanted from the first library that defines it keeps what holds. -/
theorem Reached.define (reached : Reached libraries start now) (formed : library.WellFormed)
    (there : now.At target announced) (undefined : announced.isDefined = false)
    (has : now.HasKey target name types) (is_wanted : Wanted libraries start name types)
    (first : FirstDefines name types libraries library definition)
    (runs : define now target library definition = .ok resolved) :
    Reached libraries start resolved := by
  obtain ⟨-, callee, is_declared, -, in_library, -⟩ := first.defines
  have free := formed.on_top.bodies _ is_declared definition (List.mem_of_getElem? in_library)
  have settles := define_settles reached free there undefined runs
  have evolves := reached.evolves.trans settles.evolves
  exact
    { evolves := evolves
      sturdy := settles.sturdy
      on_top := settles.on_top
      calls := by
        intro callee listed
        rcases settles.calls callee listed with old | ⟨_, _, other, others, _, finds⟩
        · obtain ⟨is_declared, other, others, has_other⟩ := reached.calls callee old
          exact ⟨settles.evolves.declared.1 is_declared, other, others,
            settles.evolves.hasKey has_other⟩
        · exact ⟨(settles.sturdy.coherent.function_of finds.1).1, other, others,
            finds.hasKey settles.sturdy.coherent⟩
      kept := fun was defined => settles.kept (reached.kept was defined) defined
      wanted := by
        intro callee listed signature other others at_now undefined_now has_now
        rcases settles.calls callee listed with old |
          ⟨original, in_definition, other', others', has_other, finds⟩
        · obtain ⟨-, own, own_types, has_own⟩ := reached.calls callee old
          obtain ⟨earlier, at_earlier, -⟩ := has_own.exists_at
          obtain rfl := settles.undefined at_now undefined_now at_earlier
          obtain ⟨rfl, rfl⟩ := (settles.evolves.hasKey has_own).unique has_now
          exact reached.wanted callee old at_earlier undefined_now has_own
        · obtain ⟨rfl, rfl⟩ := (finds.hasKey settles.sturdy.coherent).unique has_now
          refine .cloned is_wanted first in_definition has_other
            fun own found finds_own at_own => ?_
          obtain rfl := (evolves.finds finds_own).unique finds
          cases defined : found.isDefined with
          | false => rfl
          | true =>
              have still := settles.kept (reached.kept at_own defined) defined
              rw [still.unique at_now, undefined_now] at defined
              cases defined
      cloned := by
        intro callee signature at_now defined
        rcases settles.defined at_now defined with old | ⟨rfl, cloned⟩
        · refine (reached.cloned old defined).imp id fun ⟨open_before, others⟩ => ?_
          obtain ⟨other, other_types, source, origin, has_other, first_other, cloned_other⟩ :=
            others
          exact ⟨open_before, other, other_types, source, origin, settles.evolves.hasKey has_other,
            first_other, cloned_other.evolves settles.evolves⟩
        · refine .inr ⟨fun earlier at_start => ?_, name, types, library, definition,
            settles.evolves.hasKey has, first, cloned⟩
          cases defined_earlier : earlier.isDefined with
          | false => rfl
          | true =>
              rw [(reached.kept at_start defined_earlier).unique there,
                undefined] at defined_earlier
              cases defined_earlier }

theorem exists_firstUndefined {shader : Shader} {some_callees : List Callee}
    (there : ∀ callee ∈ some_callees, ∃ signature, shader.At callee signature) :
    ∃ answer, firstUndefined shader some_callees = .ok answer := by
  induction some_callees with
  | nil => exact ⟨none, rfl⟩
  | cons callee rest ih =>
      obtain ⟨signature, at_callee⟩ := there callee (List.mem_cons_self ..)
      obtain ⟨answer, later⟩ :=
        ih fun other listed => there other (List.mem_cons_of_mem callee listed)
      rw [firstUndefined, fetchSignature_eq_ok.mpr at_callee, Checked.ok_bind]
      by_cases defined : signature.isDefined = true
      · exact ⟨answer, (if_pos defined).trans later⟩
      · exact ⟨some callee, if_neg defined⟩

def EachDefined (libraries : List Shader) (start : Shader) : Prop :=
  ∀ name types, Wanted libraries start name types →
    ∃ library ∈ libraries, ∃ definition, library.Defines name types definition

/-- A step finds all calls settled, rejects a wanted function that no library defines, or resolves a
call. -/
theorem Reached.step (formed : ∀ library ∈ libraries, library.WellFormed ∧ library.NamesApart)
    (reached : Reached libraries start now) :
    (Resolution.step libraries now).Grants none ∨
      (¬ Settled now ∧ ¬ EachDefined libraries start ∧
        ∃ name, (Resolution.step libraries now).Rejects [.unresolvedFunction name]) ∨
      ∃ next, (Resolution.step libraries now).Grants (some next) ∧
        Reached libraries start next := by
  have exist : ∀ callee ∈ callees now.nodes, ∃ signature, now.At callee signature := by
    intro callee listed
    obtain ⟨-, name, types, has⟩ := reached.calls callee listed
    obtain ⟨signature, there, -⟩ := has.exists_at
    exact ⟨signature, there⟩
  obtain ⟨first, looks⟩ := exists_firstUndefined exist
  have looked := Judged.grants_monadLift.mpr looks
  cases first with
  | none => exact .inl (Judged.grants_bind.mpr ⟨none, looked, Judged.grants_pure.mpr rfl⟩)
  | some target =>
      obtain ⟨listed, announced, there, undefined⟩ := firstUndefined_eq_some looks
      obtain ⟨-, name, types, has⟩ := reached.calls target listed
      have is_wanted := reached.wanted target listed there undefined has
      have open_call : ¬ Settled now := fun settled => by
        rw [settled target listed announced there] at undefined
        cases undefined
      obtain ⟨function, signature, found, rfl, at_position, typed⟩ := id has
      have same : announced = signature := by
        rw [At, signaturesOf_eq found] at there
        exact Option.some.inj (there.symm.trans at_position)
      have named := Judged.grants_monadLift.mpr (fetchFunction_eq_ok.mpr found)
      have types_known : now.parameterTypes target = .ok types := by
        rw [parameterTypes, fetchSignature_eq_ok.mpr there, Checked.ok_bind, same]
        exact typed
      obtain ⟨answer, among, told⟩ := definitionAmong_tells formed function.name types
      cases answer with
      | none =>
          refine .inr (.inl ⟨open_call, fun each => ?_, function.name, ?_⟩)
          · obtain ⟨library, in_libraries, definition, defines⟩ := each _ _ is_wanted
            exact told library in_libraries definition defines
          · exact Judged.rejects_bind looked (Judged.rejects_bind named
              (Judged.rejects_bind (Judged.grants_monadLift.mpr types_known)
                (Judged.rejects_bind (Judged.grants_monadLift.mpr among) Judged.rejects_reject)))
      | some pair =>
          obtain ⟨library, definition⟩ := pair
          obtain ⟨in_libraries, defines⟩ := told.defines
          obtain ⟨library_formed, -⟩ := formed library in_libraries
          obtain ⟨resolved, runs⟩ := exists_define library_formed reached.sturdy there defines
          refine .inr (.inr ⟨resolved, ?_,
            reached.define library_formed there undefined has is_wanted told runs⟩)
          exact Judged.grants_bind.mpr ⟨_, looked, Judged.grants_bind.mpr ⟨_, named,
            Judged.grants_bind.mpr ⟨_, Judged.grants_monadLift.mpr types_known,
              Judged.grants_bind.mpr ⟨_, Judged.grants_monadLift.mpr among,
                Judged.grants_bind.mpr ⟨_, Judged.grants_monadLift.mpr runs,
                  Judged.grants_pure.mpr rfl⟩⟩⟩⟩⟩

/-! ## The whole run -/

/-- Taking steps as long as there are any ends with an answer. -/
inductive Ends (libraries : List Shader) : Shader → Except (List LinkError) Shader → Prop
  | settled {shader} : (step libraries shader).Grants none → Ends libraries shader (.ok shader)
  | rejected {shader causes} : (step libraries shader).Rejects causes →
      Ends libraries shader (.error causes)
  | resolved {shader next answer} : (step libraries shader).Grants (some next) →
      Ends libraries next answer → Ends libraries shader answer

/-- The steps end within as many as there is pending. -/
theorem Reached.steps (formed : ∀ library ∈ libraries, library.WellFormed ∧ library.NamesApart)
    {count : Nat} (reached : Reached libraries start now) (enough : pending libraries now ≤ count) :
    ∃ answer, Ends libraries now answer ∧ (Resolution.steps libraries count now).run = .ok answer ∧
      ((∃ result, answer = .ok result ∧ Reached libraries start result ∧ Settled result) ∨
        ¬ EachDefined libraries start ∧ ∃ name, answer = .error [.unresolvedFunction name]) := by
  induction count generalizing now with
  | zero =>
      have is_settled := settled_of_pending (Nat.le_zero.mp enough)
      refine ⟨.ok now, ?_, rfl, .inl ⟨now, rfl, reached, is_settled⟩⟩
      rcases reached.step formed with ends | ⟨open_call, -⟩ | ⟨next, takes, -⟩
      · exact .settled ends
      · exact absurd is_settled open_call
      · have less := (pending_step reached.sturdy.coherent takes).2
        omega
  | succ count ih =>
      rcases reached.step formed with ends | ⟨-, lacks, name, rejects⟩ | ⟨next, takes, still⟩
      · refine ⟨.ok now, .settled ends, ?_, .inl ⟨now, rfl, reached,
          (step_grants_none ends).settled⟩⟩
        exact Judged.grants_bind.mpr ⟨none, ends, Judged.grants_pure.mpr rfl⟩
      · refine ⟨.error _, .rejected rejects, ?_, .inr ⟨lacks, name, rfl⟩⟩
        rw [Resolution.steps, ExceptT.run_bind]
        exact Checked.bind_eq_ok.mpr ⟨.error _, rejects, rfl⟩
      · have less := (pending_step reached.sturdy.coherent takes).2
        obtain ⟨answer, ends, runs, holds⟩ := ih still (by omega)
        refine ⟨answer, .resolved takes ends, ?_, holds⟩
        rw [Resolution.steps, ExceptT.run_bind]
        exact Checked.bind_eq_ok.mpr ⟨.ok (some next), takes, runs⟩

/-- What resolving the calls of an executable gives: no call is left without definition, what has
been defined keeps its body, and each new definition is a clone of the first that a library has. -/
structure Resolves (libraries : List Shader) (executable resolved : Shader) : Prop where
  calls : ∀ callee ∈ callees resolved.nodes, callee.function ∈ resolved.declaredFunctions ∧
    ∃ signature, resolved.At callee signature ∧ signature.isDefined = true
  kept : ∀ {callee signature}, executable.At callee signature → signature.isDefined = true →
    resolved.At callee signature
  cloned : ∀ {callee signature}, resolved.At callee signature → signature.isDefined = true →
    executable.At callee signature ∨ (∀ old, executable.At callee old → old.isDefined = false) ∧
      ∃ name types library definition, resolved.HasKey callee name types ∧
        FirstDefines name types libraries library definition ∧
        ClonedFrom library definition resolved signature

/-- Signatures without definition have no body. -/
def BarePrototypes (shader : Shader) : Prop :=
  ∀ id ∈ shader.declaredFunctions, ∀ signature ∈ shader.signaturesOf id,
    signature.isDefined = false → signature.body = []

/-- The steps end, and so do the bounded ones.  The calls are resolved exactly if each wanted
function is defined, and otherwise there is one error. -/
def Complete (libraries : List Shader) (executable : Shader) : Prop :=
  ∃ answer, Ends libraries executable answer ∧
    (resolveCalls libraries executable).run = .ok answer ∧
    ((∃ resolved, answer = .ok resolved) ↔ EachDefined libraries executable) ∧
    (∀ causes, answer = .error causes → ∃ name, causes = [.unresolvedFunction name]) ∧
    ∀ resolved, answer = .ok resolved → Resolves libraries executable resolved

/-- A signature that has been there from the start is found as it was. -/
theorem Reached.found_before (reached : Reached libraries start now)
    (start_formed : start.WellFormed) {callee : Callee} {old : Signature}
    (finds : now.Finds name types callee) (at_start : start.At callee old) :
    start.Finds name types callee := by
  obtain ⟨function, found, there⟩ := at_start.function
  have is_declared : callee.function ∈ start.declaredFunctions := by
    have declared_now := (reached.sturdy.coherent.function_of finds.1).1
    refine (reached.evolves.declared.2 declared_now).resolve_right fun beyond => ?_
    exact Nat.not_le_of_lt (Arena.lt_of_get? found) beyond
  have listed := List.mem_of_getElem? at_start
  obtain ⟨own_types, typed⟩ := exists_typesOf (start_formed.parameters _ is_declared old listed)
  have has : start.HasKey callee function.name own_types :=
    ⟨function, old, found, rfl, there, typed⟩
  obtain ⟨rfl, rfl⟩ :=
    (finds.hasKey reached.sturdy.coherent).unique (reached.evolves.hasKey has)
  obtain ⟨other, bound⟩ := start_formed.populated.exists_named is_declared found
  obtain rfl : other = callee.function :=
    Option.some.inj ((reached.evolves.named bound).symm.trans finds.1)
  obtain ⟨answer, looks⟩ := start_formed.sturdy.exists_findSignature bound types
  have told := findSignatureFrom_spec ((findSignature_eq found types).symm.trans looks)
  cases answer with
  | none => exact absurd typed (told old (List.mem_of_getElem? there))
  | some position =>
      have finds_start : start.Finds function.name types ⟨callee.function, position⟩ :=
        ⟨bound, looks⟩
      have same := (reached.evolves.finds finds_start).unique finds
      rw [← same]
      exact finds_start

/-- A function has been defined by a clone of the first definition that a library has for it. -/
def HasClone (libraries : List Shader) (now : Shader) (name : String) (types : List Ty) : Prop :=
  ∃ callee signature library definition, now.HasKey callee name types ∧
    now.At callee signature ∧ callee.function ∈ now.declaredFunctions ∧
    FirstDefines name types libraries library definition ∧
    ClonedFrom library definition now signature

/-- A call that has been open at the start and is settled now has been settled by a clone. -/
theorem Reached.hasClone_of_callee (reached : Reached libraries start now)
    (is_settled : Settled now) {callee : Callee} (listed : callee ∈ callees now.nodes)
    (has : now.HasKey callee name types)
    (open_before : ∀ old, start.At callee old → old.isDefined = false) :
    HasClone libraries now name types := by
  obtain ⟨is_declared, -⟩ := reached.calls callee listed
  obtain ⟨signature, there, -⟩ := has.exists_at
  have defined := is_settled callee listed signature there
  rcases reached.cloned there defined with kept | ⟨-, other, others, library, definition, cloned⟩
  · rw [open_before signature kept] at defined
    cases defined
  · obtain ⟨has_other, first, clone⟩ := cloned
    obtain ⟨rfl, rfl⟩ := has.unique has_other
    exact ⟨callee, signature, library, definition, has, there, is_declared, first, clone⟩

/-- A call that has been there at the start is still there. -/
theorem Reached.callees_of_start (reached : Reached libraries start now)
    (start_formed : start.WellFormed) (bare : BarePrototypes start) {callee : Callee}
    (listed : callee ∈ callees start.nodes) : callee ∈ callees now.nodes := by
  rw [mem_callees_nodes start_formed.on_top] at listed
  rw [mem_callees_nodes reached.on_top]
  rcases listed with own | ⟨id, is_declared, caller, in_start, inner⟩
  · obtain ⟨arguments, result, own⟩ := mem_callees_iff.mp own
    exact .inl (mem_callees (reached.evolves.statements own))
  · cases defined : caller.isDefined with
    | false =>
        rw [bare id is_declared caller in_start defined] at inner
        cases inner
    | true =>
        obtain ⟨position, at_position⟩ := List.mem_iff_getElem?.mp in_start
        have kept : now.At ⟨id, position⟩ caller := reached.kept at_position defined
        exact .inr ⟨id, reached.evolves.declared.1 is_declared, caller,
          List.mem_of_getElem? kept, inner⟩

/-- If all calls could be resolved, every wanted function has been defined by a clone. -/
theorem Reached.hasClone (formed : ∀ library ∈ libraries, library.WellFormed ∧ library.NamesApart)
    (start_formed : start.WellFormed) (bare : BarePrototypes start)
    (reached : Reached libraries start now) (is_settled : Settled now)
    (is_wanted : Wanted libraries start name types) : HasClone libraries now name types := by
  induction is_wanted with
  | @called callee signature name types listed there undefined has =>
      refine reached.hasClone_of_callee is_settled
        (reached.callees_of_start start_formed bare listed)
        (reached.evolves.hasKey has) fun old at_start => ?_
      rw [at_start.unique there]
      exact undefined
  | @cloned name types library definition callee other others _ first listed has open_before ih =>
      obtain ⟨caller, signature, library', definition', _, at_caller, is_declared, first', clone⟩ :=
        ih
      obtain ⟨rfl, rfl⟩ := first.unique formed first'
      obtain ⟨counterpart, inner, other', others', has', finds⟩ := clone.counterpart listed
      obtain ⟨rfl, rfl⟩ := has.unique has'
      have listed_now : counterpart ∈ callees now.nodes :=
        (mem_callees_nodes reached.on_top).mpr
          (.inr ⟨_, is_declared, signature, List.mem_of_getElem? at_caller, inner⟩)
      refine reached.hasClone_of_callee is_settled listed_now (finds.hasKey reached.sturdy.coherent)
        fun old at_start => ?_
      exact open_before counterpart old (reached.found_before start_formed finds at_start) at_start

/-- If all calls could be resolved, every wanted function has been defined by a library. -/
theorem Reached.eachDefined
    (formed : ∀ library ∈ libraries, library.WellFormed ∧ library.NamesApart)
    (start_formed : start.WellFormed) (bare : BarePrototypes start)
    (reached : Reached libraries start now) (is_settled : Settled now) :
    EachDefined libraries start := by
  intro name types is_wanted
  obtain ⟨_, _, library, definition, -, -, -, first, -⟩ :=
    reached.hasClone formed start_formed bare is_settled is_wanted
  exact ⟨library, first.defines.1, definition, first.defines.2⟩

/-- Call resolution is complete and correct, and it ends: for well-formed shaders, where no library
declares two functions of one name and the executable has bodies only for what it defines. -/
theorem resolveCalls_complete (libraries : List Shader) (executable : Shader)
    (formed : executable.WellFormed) (bare : BarePrototypes executable)
    (libraries_formed : ∀ library ∈ libraries, library.WellFormed ∧ library.NamesApart) :
    Complete libraries executable := by
  obtain ⟨answer, ends, runs, holds⟩ :=
    (reached_refl libraries formed).steps libraries_formed (pending_le libraries executable)
  refine ⟨answer, ends, runs, ?_⟩
  rcases holds with ⟨result, rfl, reached, is_settled⟩ | ⟨lacks, name, rfl⟩
  · have each := reached.eachDefined libraries_formed formed bare is_settled
    refine ⟨⟨fun _ => each, fun _ => ⟨result, rfl⟩⟩, fun _ same => (by cases same), ?_⟩
    rintro _ ⟨⟩
    refine ⟨fun callee listed => ?_, reached.kept, reached.cloned⟩
    obtain ⟨is_declared, name, types, has⟩ := reached.calls callee listed
    obtain ⟨signature, there, -⟩ := has.exists_at
    exact ⟨is_declared, signature, there, is_settled callee listed signature there⟩
  · refine ⟨⟨fun ⟨_, same⟩ => (by cases same), fun each => absurd each lacks⟩, ?_,
      fun _ same => (by cases same)⟩
    rintro _ ⟨⟩
    exact ⟨name, rfl⟩

/-! ## Examples -/

/-- A fragment shader that declares some functions. -/
def ofFunctions (functions : List Function) : Shader :=
  ({ stage := .fragment, version := 330, functions := ⟨functions⟩
     topLevel := (List.range functions.length).map .function } : Shader).populateSymbols

/-- The main function calls a helper that is only announced. -/
def calling : Shader :=
  ofFunctions [
    { name := "main", signatures := [.define .void [] [.call ⟨1, 0⟩ [] none]] },
    { name := "helper", signatures := [.announce .void []] }]

/-- A library that defines the helper by calling another function that is only announced. -/
def helping : Shader :=
  ofFunctions [
    { name := "helper", signatures := [.define .void [] [.call ⟨1, 0⟩ [] none]] },
    { name := "deeper", signatures := [.announce .void []] }]

/-- A library that defines what the other library leaves open. -/
def digging : Shader :=
  ofFunctions [{ name := "deeper", signatures := [.define .void [] [.discard]] }]

theorem formed_ofFunctions {functions : List Function}
    (check : (ofFunctions functions).isWellFormed = true) : (ofFunctions functions).WellFormed :=
  wellFormed_of_check check (populated_populateSymbols _)

theorem calling_resolves : calling.WellFormed ∧ BarePrototypes calling ∧
    (∀ library ∈ [helping, digging], library.WellFormed ∧ library.NamesApart) ∧
    Complete [helping, digging] calling := by
  have formed : calling.WellFormed := formed_ofFunctions (by decide +kernel)
  have bare : BarePrototypes calling := by unfold BarePrototypes; decide +kernel
  have libraries_formed : ∀ library ∈ [helping, digging], library.WellFormed ∧
      library.NamesApart := by
    simp only [List.forall_mem_cons, List.not_mem_nil, false_implies, implies_true, and_true]
    refine ⟨⟨formed_ofFunctions (by decide +kernel), ?_⟩,
      formed_ofFunctions (by decide +kernel), ?_⟩
    all_goals unfold NamesApart; decide +kernel
  exact ⟨formed, bare, libraries_formed, resolveCalls_complete _ _ formed bare libraries_formed⟩

/-- A library that defines the helper, and announces another function of that name. -/
def doubled : Shader :=
  ofFunctions [
    { name := "helper", signatures := [.define .void [] []] },
    { name := "helper", signatures := [.announce .void []] }]

/-- The announced helper has a body, which calls another function that is only announced. -/
def pretending : Shader :=
  ofFunctions [
    { name := "main", signatures := [.define .void [] [.call ⟨1, 0⟩ [] none]] },
    { name := "helper"
      signatures := [{ returnType := .void, body := [.call ⟨2, 0⟩ [] none] }] },
    { name := "deeper", signatures := [.announce .void []] }]

/-- A library that defines the helper. -/
def plain : Shader :=
  ofFunctions [{ name := "helper", signatures := [.define .void [] []] }]

def succeeds (libraries : List Shader) (executable : Shader) : Bool :=
  match (resolveCalls libraries executable).run with
  | .ok (.ok _) => true
  | _ => false

theorem Complete.succeeds_iff {executable : Shader} (complete : Complete libraries executable) :
    succeeds libraries executable = true ↔ EachDefined libraries executable := by
  obtain ⟨answer, -, runs, exactly_if, -⟩ := complete
  rw [← exactly_if, succeeds, runs]
  cases answer with
  | ok resolved => simp
  | error causes => simp

theorem wanted_calling {name : String} {types : List Ty}
    (is_wanted : Wanted [doubled] calling name types) : name = "helper" ∧ types = [] := by
  induction is_wanted with
  | @called callee signature name types listed _ _ has =>
      have only : callees calling.nodes = [⟨1, 0⟩] := rfl
      rw [only, List.mem_singleton] at listed
      subst listed
      have helper : calling.HasKey ⟨1, 0⟩ "helper" [] := ⟨_, _, rfl, rfl, rfl, rfl⟩
      exact has.unique helper
  | @cloned _ _ library definition _ _ _ _ first listed _ _ _ =>
      obtain ⟨in_libraries, callee, is_declared, -, there, -⟩ := first.defines
      obtain rfl := List.mem_singleton.mp in_libraries
      have empty : ∀ id ∈ doubled.declaredFunctions, ∀ signature ∈ doubled.signaturesOf id,
          signature.body = [] := by decide +kernel
      rw [empty _ is_declared definition (List.mem_of_getElem? there)] at listed
      cases listed

/-- Well-formed shaders are not enough.  A library may define a function and announce another one of
its name, which hides it; and the body of a prototype may call what need not be defined, as the body
is replaced. -/
theorem resolveCalls_incomplete :
    (calling.WellFormed ∧ BarePrototypes calling ∧ doubled.WellFormed ∧
      ¬ Complete [doubled] calling) ∧
    (pretending.WellFormed ∧ plain.WellFormed ∧ plain.NamesApart ∧
      ¬ Complete [plain] pretending) := by
  refine ⟨⟨formed_ofFunctions (by decide +kernel), by unfold BarePrototypes; decide +kernel,
    formed_ofFunctions (by decide +kernel), fun complete => ?_⟩,
    formed_ofFunctions (by decide +kernel), formed_ofFunctions (by decide +kernel),
    by unfold NamesApart; decide +kernel, fun complete => ?_⟩
  · have fails : succeeds [doubled] calling = false := by decide +kernel
    have each : EachDefined [doubled] calling := by
      intro name types is_wanted
      obtain ⟨rfl, rfl⟩ := wanted_calling is_wanted
      exact ⟨doubled, List.mem_singleton.mpr rfl, .define .void [] [], ⟨0, 0⟩, by decide +kernel,
        ⟨_, _, rfl, rfl, rfl, rfl⟩, rfl, rfl⟩
    rw [complete.succeeds_iff.mpr each] at fails
    cases fails
  · have succeeds : succeeds [plain] pretending = true := by decide +kernel
    have is_wanted : Wanted [plain] pretending "deeper" [] :=
      @Wanted.called _ _ ⟨2, 0⟩ (.announce .void []) _ _ (by decide +kernel) rfl rfl
        ⟨_, _, rfl, rfl, rfl, rfl⟩
    obtain ⟨library, listed, definition, callee, is_declared,
      ⟨function, _, found, named, -, -⟩, -⟩ :=
      complete.succeeds_iff.mp succeeds _ _ is_wanted
    obtain rfl := List.mem_singleton.mp listed
    have only_helper : ∀ id ∈ plain.declaredFunctions,
        (plain.functions.get? id).map (·.name) = some "helper" := by decide +kernel
    have helper := only_helper _ is_declared
    rw [found, Option.map_some, named] at helper
    exact absurd (Option.some.inj helper) (by decide)

end Resolution
end StageLink
