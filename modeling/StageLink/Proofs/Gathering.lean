import StageLink.Proofs.Continuing
import StageLink.Proofs.Slots

/-!
# Statements that are gathered

Merging puts the top-level statements of all units of a stage at the start of `main`: those of the
main unit as they are, then clones of those of every other unit, and last what `main` did before.
Each unit is cloned once and in its turn, and nothing that happens to the executable later touches
the body of `main` except for the types that are recorded on element places.
-/

namespace StageLink

namespace Shader

def mainBody? (shader : Shader) : Option Block := do
  let main ← shader.mainSignature?
  let signature ← (shader.signaturesOf main.function)[main.signature]?
  return signature.body

/-- In the function that holds `main`, no signature without parameters that is only announced stands
before the one that is defined. -/
def MainFirst (shader : Shader) : Prop :=
  ∀ main ∈ shader.mainSignature?, ∀ signature ∈
    (shader.signaturesOf main.function).take main.signature, signature.parameters ≠ []

instance (shader : Shader) : Decidable shader.MainFirst :=
  inferInstanceAs (Decidable (∀ main ∈ shader.mainSignature?, ∀ signature ∈
    (shader.signaturesOf main.function).take main.signature, signature.parameters ≠ []))

end Shader

namespace Merge

open Shader

/-! ## What is gathered -/

/-- What a unit declares for good at its top level. -/
def lastingOf (unit : Shader) : Block := unit.topLevel.filter (declaresGlobal unit)

/-- What a unit does at its top level, and what it declares only for that. -/
def statementsOf (unit : Shader) : Block := unit.topLevel.filter (!declaresGlobal unit ·)

/-- How the statements of a unit correspond to their clone in an executable, when the variables that
they declare have been copied. -/
def matching (unit target : Shader) (copies : List (VariableId × VariableId)) : Renaming where
  declares id copy := (id, copy) ∈ copies
  mentions id other := (id, other) ∈ copies ∨ id ∉ copies.map (·.1) ∧ ByName unit target id other
  functions := Eq
  calls callee other := ∃ name types completed, unit.HasKey callee name types ∧
    target.HasKey other name completed ∧ List.Forall₂ Ty.Completes types completed

/-- An instruction list of an executable is a clone of the statements of a unit.  What the
statements declare has been copied, and the copies are no globals. -/
def ClonesStatements (target unit : Shader) (part : Block) : Prop :=
  ∃ copies : List (VariableId × VariableId),
    copies.map (·.1) = declaredIn (statementsOf unit).ownNodes ∧
    copies.map (·.2) = declaredIn part.ownNodes ∧
    (∀ pair ∈ copies, pair.2 ∉ target.globals ∧ ∃ declared found,
      unit.vars.get? pair.1 = some declared ∧ target.vars.get? pair.2 = some found ∧
      declared.Completes found) ∧
    Block.Alike (matching unit target copies) (statementsOf unit) part

/-- The executable of a stage has only declarations at its top level, it keeps what its main unit
declares for good, and its `main` does what the main unit does at its top level, then what each of
the other units does there, once and in order, and then what the `main` of the main unit does.  The
variables declared in the clones are new ones, no two of them the same. -/
structure Gathers (main : Shader) (others : List Shader) (linked : Shader) : Prop where
  flat : linked.topLevel.Flat
  continues : Continued { main with topLevel := lastingOf main } linked
  body : ∃ own parts entry, main.mainBody? = some own ∧ linked.mainBody? = some entry ∧
    List.Forall₂ (ClonesStatements linked) others parts ∧
    (declaredIn (Block.ownNodes parts.flatten)).Nodup ∧
    (∀ id ∈ declaredIn (Block.ownNodes parts.flatten), main.vars.size ≤ id) ∧
    Block.Alike unchanged (statementsOf main ++ parts.flatten ++ own) entry

/-- The statements of a unit declare no functions and what they declare is declared before it is
mentioned, and the symbol table knows the last function that is declared as `main`. -/
structure Gatherable (unit : Shader) : Prop where
  free : (statementsOf unit).FunctionFree
  first : DeclaredFirst (· ∉ declaredIn (statementsOf unit).ownNodes) []
    (occurrences (statementsOf unit).ownNodes)
  main : unit.symbols.functions.get? "main" = unit.lastNamed "main"

variable {unit target before after shader result : Shader} {part : Block} {entry : Callee}

theorem ClonesStatements.below (clones : ClonesStatements target unit part) :
    ∀ id ∈ declaredIn part.ownNodes, id < target.vars.size := by
  obtain ⟨copies, -, values, news, -⟩ := clones
  intro id listed
  rw [← values] at listed
  obtain ⟨pair, inside, rfl⟩ := List.mem_map.mp listed
  obtain ⟨-, -, found, -, copied, -⟩ := news pair inside
  exact Arena.lt_of_get? copied

/-- A clone stays one while the executable is put together. -/
theorem ClonesStatements.continues (clones : ClonesStatements before unit part)
    (continues : Continued before after) : ClonesStatements after unit part := by
  obtain ⟨copies, keys, values, news, alike⟩ := clones
  refine ⟨copies, keys, values, fun pair listed => ?_, alike.mono ?_⟩
  · obtain ⟨no_global, declared, found, was, copied, completes⟩ := news pair listed
    obtain ⟨later, now, completes_on⟩ := continues.vars copied
    refine ⟨fun global => ?_, declared, later, was, now, .trans _ _ _ completes completes_on⟩
    rcases continues.globals.2 global with old | new
    · exact no_global old
    · exact Nat.not_le_of_lt (Arena.lt_of_get? copied) new
  · refine ⟨fun given => given, ?_, fun same => same, ?_⟩
    · rintro id other (given | ⟨is_free, global, declared, found, was, there, named⟩)
      · exact .inl given
      · obtain ⟨later, now, completes⟩ := continues.vars there
        exact .inr ⟨is_free, continues.globals.1 global, declared, later, was, now,
          completes.name.trans named⟩
    · rintro callee other ⟨name, types, completed, has, finds, completes⟩
      obtain ⟨last, finds_on, completes_on⟩ := continues.hasKey finds
      refine ⟨name, types, last, has, finds_on, forall₂_of_comp ?_ completes completes_on⟩
      exact fun _ _ _ first second => Ty.Completes.trans first second

/-! ## Where an executable begins -/

/-- The executable begins with a signature whose body is alike to a block, and no signature before
it can take its place. -/
structure Opens (shader : Shader) (entry : Callee) (body : Block) : Prop where
  bound : shader.symbols.functions.get? "main" = some entry.function
  begins : ∃ signature, shader.At entry signature ∧ isEntry signature = true ∧
    Block.Alike unchanged body signature.body
  first : ∀ {position signature}, position < entry.signature →
    shader.At ⟨entry.function, position⟩ signature → signature.parameters ≠ []

variable {body : Block}

/-- The executable finds where it begins. -/
theorem Opens.findsEntry (opens : Opens shader entry body) :
    (shader.signaturesOf entry.function).findIdx? isEntry = some entry.signature := by
  obtain ⟨signature, there, is_entry, -⟩ := opens.begins
  obtain ⟨inside, same⟩ := List.getElem?_eq_some_iff.mp there
  refine List.findIdx?_eq_some_iff_getElem.mpr ⟨inside, by rw [same]; exact is_entry, ?_⟩
  intro earlier before is_entry
  have in_list := Nat.lt_trans before inside
  have has_parameters := opens.first before (List.getElem?_eq_getElem in_list)
  obtain ⟨no_parameters, -⟩ := Bool.and_eq_true_iff.mp is_entry
  exact has_parameters (List.isEmpty_iff.mp no_parameters)

theorem Opens.mainBody? (opens : Opens shader entry body) :
    ∃ found, shader.mainBody? = some found ∧ Block.Alike unchanged body found := by
  obtain ⟨signature, there, -, alike⟩ := opens.begins
  have found : shader.mainSignature? = some entry :=
    mainSignature?_eq_some.mpr ⟨opens.bound, opens.findsEntry⟩
  exact ⟨signature.body, Option.bind_eq_some_iff.mpr ⟨entry, found,
    Option.bind_eq_some_iff.mpr ⟨signature, there, rfl⟩⟩, alike⟩

theorem Opens.grows {source : Shader} {free : VariableId → Prop} (opens : Opens before entry body)
    (grows : Grows source free before after) : Opens after entry body where
  bound := grows.functionNamed opens.bound
  begins := opens.begins.imp fun _ there => ⟨(at_grows grows).1 there.1, there.2⟩
  first {position signature} earlier there := by
    obtain ⟨last, is_last, -⟩ := opens.begins
    have inside := Nat.lt_trans earlier (List.getElem?_eq_some_iff.mp is_last).1
    have was : before.At ⟨entry.function, position⟩ _ := List.getElem?_eq_getElem inside
    rw [there.unique ((at_grows grows).1 was)]
    exact opens.first earlier was

/-- Another signature may get a body. -/
theorem Opens.modifySignature {other : Callee} {change : Signature → Signature}
    (opens : Opens shader entry body) (different : entry ≠ other)
    (same : ∀ signature, (change signature).parameters = signature.parameters) :
    Opens (shader.modifySignature other change) entry body where
  bound := opens.bound
  begins := opens.begins.imp fun signature there =>
    ⟨at_modifySignature.mpr ⟨signature, there.1, (if_neg different).symm⟩, there.2⟩
  first earlier there := by
    obtain ⟨old, was, rfl⟩ := at_modifySignature.mp there
    have has_parameters := opens.first earlier was
    split
    · rw [same]
      exact has_parameters
    · exact has_parameters

/-- Something else may be done first. -/
theorem Opens.prepend (opens : Opens shader entry body) (more : Block) :
    Opens (shader.modifySignature entry fun signature =>
      { signature with body := more ++ signature.body }) entry (more ++ body) where
  bound := opens.bound
  begins := by
    obtain ⟨signature, there, is_entry, alike⟩ := opens.begins
    exact ⟨_, at_modifySignature.mpr ⟨signature, there, (if_pos rfl).symm⟩, is_entry,
      (Block.Alike.refl unchanged_reflexive more).append alike⟩
  first earlier there := by
    obtain ⟨old, was, rfl⟩ := at_modifySignature.mp there
    have has_parameters := opens.first earlier was
    split <;> exact has_parameters

/-- Bodies may become ones that are alike. -/
theorem Opens.alike (opens : Opens before entry body) (same : after.symbols = before.symbols)
    (signatures :
      List.Forall₂ (fun one other : Signature => other = { one with body := other.body } ∧
        Block.Alike unchanged one.body other.body)
      (before.signaturesOf entry.function) (after.signaturesOf entry.function)) :
    Opens after entry body where
  bound := by
    rw [same]
    exact opens.bound
  begins := by
    obtain ⟨signature, there, is_entry, alike⟩ := opens.begins
    obtain ⟨later, now, changes, alike_on⟩ := exists_getElem?_of_forall₂ signatures there
    refine ⟨later, now, ?_, unchanged_trans alike alike_on⟩
    rw [changes]
    exact is_entry
  first earlier there := by
    obtain ⟨old, was, changes, -⟩ := exists_getElem?_of_forall₂ signatures.flip there
    rw [changes]
    exact @opens.first _ old earlier was

theorem Opens.revised {relation : Variable → Variable → Prop} (opens : Opens before entry body)
    (revised : Revised relation before after) : Opens after entry body := by
  rw [revised.same]
  exact opens.alike rfl (List.forall₂_same.mpr fun _ _ => ⟨rfl, .refl unchanged_reflexive _⟩)

theorem Opens.retypeElements (opens : Opens before entry body) (flat : before.topLevel.Flat)
    (runs : ArraySize.retypeElements before = .ok after) : Opens after entry body :=
  opens.alike (by rw [retypeElements_eq_ok flat runs]) (signaturesOf_retypeElements runs _)

/-! ## Cloning -/

theorem clonesStatements_of_block {extended : Shader} (coherent : target.Coherent)
    (gatherable : Gatherable unit)
    (runs : (CloneM.block unit (statementsOf unit)).runOn target [] = .ok (part, extended)) :
    ClonesStatements extended unit part ∧ (declaredIn part.ownNodes).Nodup ∧
      (∀ id ∈ declaredIn part.ownNodes, target.vars.size ≤ id) ∧
      Grows unit (· ∉ declaredIn (statementsOf unit).ownNodes) target extended := by
  obtain ⟨final, rfl, copied, alike⟩ := CloneM.block_eq_ok coherent gatherable.first runs
  rw [Block.withoutFunctions_of_free _ gatherable.free] at alike
  have final_coherent := copied.grows.coherent coherent
  obtain ⟨fresh, news, keys, values⟩ := copied.fresh
  have all_new : final.renamed = fresh := by rw [news.renamed, List.append_nil]
  have keys_now : fresh.reverse.map (·.1) = declaredIn (statementsOf unit).ownNodes := by
    rw [List.map_reverse, keys, List.reverse_reverse]
  have values_now : fresh.reverse.map (·.2) = declaredIn part.ownNodes := by
    rw [List.map_reverse, values, List.reverse_reverse]
  have clones : ClonesStatements final.target unit part := by
    refine ⟨fresh.reverse, keys_now, values_now, fun pair listed => ?_, alike.mono ?_⟩
    · have inside := List.mem_reverse.mp listed
      obtain ⟨declared, was, found⟩ := news.copies pair inside
      exact ⟨(news.new pair inside).2.2, declared, declared, was, found, .refl declared⟩
    · refine ⟨?_, ?_, fun same => same, ?_⟩
      · intro id copy given
        rw [CloneM.correspondence, all_new] at given
        exact List.mem_reverse.mpr given
      · rintro id other (given | ⟨is_free, by_name⟩)
        · rw [all_new] at given
          exact .inl (List.mem_reverse.mpr given)
        · exact .inr ⟨keys_now ▸ is_free, by_name⟩
      · rintro callee other ⟨name, types, has, finds⟩
        exact ⟨name, types, types, has, finds.hasKey final_coherent,
          List.forall₂_same.mpr fun _ _ => .refl _⟩
  refine ⟨clones, ?_, fun id listed => ?_, copied.grows⟩
  · rw [← values_now, List.map_reverse, List.nodup_reverse]
    exact news.once
  · rw [← values_now] at listed
    obtain ⟨pair, inside, rfl⟩ := List.mem_map.mp listed
    exact (news.new pair (List.mem_reverse.mp inside)).1

/-- The statements of some units are cloned one unit after the other. -/
theorem cloneStatements_eq_ok {units : List Shader} :
    ∀ {target extended : Shader} {cloned : Block}, target.Coherent →
      (∀ unit ∈ units, Gatherable unit) → cloneStatements units target = .ok (cloned, extended) →
      ∃ parts, cloned = parts.flatten ∧ List.Forall₂ (ClonesStatements extended) units parts ∧
        (declaredIn cloned.ownNodes).Nodup ∧
        (∀ id ∈ declaredIn cloned.ownNodes, target.vars.size ≤ id) ∧
        extended.Coherent ∧ Evolves target extended ∧
        (target.topLevel.Flat → extended.topLevel.Flat) ∧
        ∀ {entry body}, Opens target entry body → Opens extended entry body := by
  induction units with
  | nil =>
      intro target extended cloned coherent _ runs
      obtain ⟨rfl, rfl⟩ : [] = cloned ∧ target = extended := by simpa [cloneStatements] using runs
      exact ⟨[], rfl, .nil, List.nodup_nil, fun _ listed => (by cases listed), coherent,
        .refl _, id, id⟩
  | cons unit units ih =>
      intro target extended cloned coherent gatherable runs
      obtain ⟨first, later, halfway, rfl, clones, clones_later⟩ := cloneStatements_cons_eq_ok runs
      obtain ⟨is_clone, once, new, grows⟩ :=
        clonesStatements_of_block coherent (gatherable unit (List.mem_cons_self ..)) clones
      obtain ⟨parts, rfl, are_clones, once_later, new_later, reached_coherent,
        evolves, flat, opens⟩ :=
        ih (grows.coherent coherent)
          (fun other listed => gatherable other (List.mem_cons_of_mem unit listed))
          clones_later
      refine ⟨first :: parts, rfl, .cons (is_clone.continues evolves.continues) are_clones, ?_, ?_,
        reached_coherent, grows.evolves.trans evolves, fun was => flat (grows.flat was),
        fun was => opens (was.grows grows)⟩
      · rw [Block.ownNodes_append, declaredIn_append, List.nodup_append]
        refine ⟨once, once_later, ?_⟩
        rintro id in_first _ in_later rfl
        exact Nat.not_le_of_lt (is_clone.below id in_first) (new_later id in_later)
      · intro id listed
        rw [Block.ownNodes_append, declaredIn_append, List.mem_append] at listed
        rcases listed with early | late
        · exact new id early
        · exact Nat.le_trans grows.size_le (new_later id late)

/-! ## Merging -/

/-- The main unit opens with the body of its defined `main`, if no announcement comes before it. -/
theorem opens_of_main {main : Shader} (has_main : main.mainSignature? = some entry)
    (main_first : main.MainFirst)
    (main_known : main.symbols.functions.get? "main" = main.lastNamed "main") :
    ∃ signature, main.At entry signature ∧
      Opens ({ main with topLevel := lastingOf main } : Shader).populateSymbols entry
        signature.body := by
  obtain ⟨main_bound, position⟩ := mainSignature?_eq_some.mp has_main
  obtain ⟨inside, is_entry, -⟩ := List.findIdx?_eq_some_iff_getElem.mp position
  have there : main.At entry _ := List.getElem?_eq_getElem inside
  generalize (main.signaturesOf entry.function)[entry.signature] = signature at is_entry there
  refine ⟨signature, there, ?_, ⟨signature, there, is_entry, .refl unchanged_reflexive _⟩,
    fun {place earlier} before was => ?_⟩
  · have declared : ({ main with topLevel := lastingOf main } : Shader).declaredFunctions =
        main.declaredFunctions := declaredFunctions_filter main
    rw [populateSymbols_function, lastNamed, declared]
    exact main_known.symm.trans main_bound
  · refine main_first entry has_main earlier (List.mem_of_getElem? ((?_ : _[place]? = _)))
    rw [List.getElem?_take_of_lt before]
    exact was

theorem moveStatements_eq_ok {main merged : Shader} {others : List Shader}
    (has_main : main.mainSignature? = some entry) (main_first : main.MainFirst)
    (main_known : main.symbols.functions.get? "main" = main.lastNamed "main")
    (gatherable : ∀ unit ∈ others, Gatherable unit)
    (runs : moveStatements main others = .ok merged) :
    ∃ own parts, main.mainBody? = some own ∧ merged.Coherent ∧ merged.topLevel.Flat ∧
      Continued { main with topLevel := lastingOf main } merged ∧
      List.Forall₂ (ClonesStatements merged) others parts ∧
      (declaredIn (Block.ownNodes parts.flatten)).Nodup ∧
      (∀ id ∈ declaredIn (Block.ownNodes parts.flatten), main.vars.size ≤ id) ∧
      Opens merged entry (statementsOf main ++ parts.flatten ++ own) := by
  obtain ⟨bound, cloned, extended, clones, rfl⟩ := moveStatements_of_main has_main runs
  let bare : Shader := { main with topLevel := lastingOf main }
  have fewer : bare.globals.Sublist main.globals := List.filter_sublist.filterMap _
  have coherent : bare.populateSymbols.Coherent :=
    populateSymbols_coherent fun id global => bound id (fewer.subset global)
  obtain ⟨parts, rfl, are_clones, once, new, extended_coherent, evolves, flat, opens⟩ :=
    cloneStatements_eq_ok coherent gatherable clones
  obtain ⟨signature, there, opens_bare⟩ := opens_of_main has_main main_first main_known
  have last : Evolves extended (extended.modifySignature entry fun signature =>
      { signature with body := statementsOf main ++ parts.flatten ++ signature.body }) :=
    evolves_modifySignature fun _ => rfl
  have from_bare := (evolves.trans last).continues
  refine ⟨signature.body, parts, ?_, coherent_modifySignature extended_coherent _ _,
    flat (flat_declarations main main.topLevel),
    ⟨from_bare.size, from_bare.vars, from_bare.globals, from_bare.hasKey⟩, ?_, once, new, ?_⟩
  · exact Option.bind_eq_some_iff.mpr ⟨entry, has_main,
      Option.bind_eq_some_iff.mpr ⟨signature, there, rfl⟩⟩
  · exact are_clones.imp fun _ _ is_clone => is_clone.continues last.continues
  · exact (opens opens_bare).prepend _

/-- Resolving calls leaves the body of `main` as it is. -/
theorem resolveCalls_opens {libraries : List Shader} {merged resolved : Shader}
    (coherent : merged.Coherent) (flat : merged.topLevel.Flat) (opens : Opens merged entry body)
    (grants : (Resolution.resolveCalls libraries merged).Grants resolved) :
    resolved.topLevel.Flat ∧ Evolves merged resolved ∧ Opens resolved entry body := by
  let keeps : Shader → Prop := fun now =>
    now.Coherent ∧ now.topLevel.Flat ∧ Evolves merged now ∧ Opens now entry body
  have each : ∀ now next, keeps now → (Resolution.step libraries now).Grants (some next) →
      keeps next := by
    rintro now next ⟨now_coherent, now_flat, evolves, now_opens⟩ steps_once
    obtain ⟨called, _, _, _, definition, looks, -, -, -, defines⟩ :=
      Resolution.step_grants steps_once
    obtain ⟨-, announced, there, undefined⟩ := Resolution.firstUndefined_eq_some looks
    obtain ⟨_, body, final, -, copied, -, rfl⟩ := Resolution.define_eq_ok now_coherent defines
    -- What gets a body has had none, so it is not where the executable begins.
    have different : entry ≠ called := by
      rintro rfl
      obtain ⟨signature, is_there, is_entry, -⟩ := now_opens.begins
      obtain ⟨-, is_defined⟩ := Bool.and_eq_true_iff.mp is_entry
      rw [is_there.unique there, undefined] at is_defined
      cases is_defined
    have keeps_parameters : ∀ signature,
        (Resolution.settled definition body signature).parameters = signature.parameters :=
        fun _ => rfl
    exact ⟨coherent_modifySignature (copied.grows.coherent now_coherent) _ _,
      copied.grows.flat now_flat,
      (evolves.trans copied.grows.evolves).trans (evolves_modifySignature keeps_parameters),
      (now_opens.grows copied.grows).modifySignature different keeps_parameters⟩
  obtain ⟨-, resolved_flat, evolves, resolved_opens⟩ :=
    Resolution.resolveCalls_keeps each ⟨coherent, flat, .refl merged, opens⟩ grants
  exact ⟨resolved_flat, evolves, resolved_opens⟩

theorem fitStageInputs_opens {stage : Stage} {fitted : Shader} {misfits : List LinkError}
    (flat : shader.topLevel.Flat) (opens : Opens shader entry body)
    (runs : fitStageInputs stage shader = .ok (fitted, misfits)) :
    fitted.topLevel.Flat ∧ Continued shader fitted ∧ Opens fitted entry body := by
  obtain rfl | ⟨_, sized, fits, retypes⟩ := fitStageInputs_cases runs
  · exact ⟨flat, (Evolves.refl _).continues, opens⟩
  · have revised : Revised Variable.Completes shader sized :=
      fitInputs_revised .refl .trans (fun _ _ => Variable.Completes.fitInput) fits
    have sized_flat : sized.topLevel.Flat := by
      rw [revised.same]
      exact flat
    have same := retypeElements_eq_ok sized_flat retypes
    refine ⟨?_, revised.continues.trans (continues_retypeElements sized_flat retypes),
      (opens.revised revised).retypeElements sized_flat retypes⟩
    rw [same]
    exact sized_flat

theorem splitMain?_splits {units others : List Shader} {main : Shader}
    (found : splitMain? units = some (main, others)) :
    ∃ before after, units = before ++ main :: after ∧ others = before ++ after ∧
      ∀ unit ∈ before, unit.mainSignature? = none := by
  induction units generalizing others with
  | nil => cases found
  | cons unit units ih =>
      rw [splitMain?] at found
      split at found
      · obtain ⟨rfl, rfl⟩ : unit = main ∧ units = others := by simpa using found
        exact ⟨[], units, rfl, rfl, by simp⟩
      · next no_main =>
          obtain ⟨⟨later, rest⟩, found_later, equal⟩ := Option.map_eq_some_iff.mp found
          obtain ⟨rfl, rfl⟩ : later = main ∧ unit :: rest = others := by simpa using equal
          obtain ⟨before, after, rfl, rfl, none_before⟩ := ih found_later
          refine ⟨unit :: before, after, rfl, rfl, fun other listed => ?_⟩
          rcases List.mem_cons.mp listed with rfl | early
          · simpa using no_main
          · exact none_before other early

/-- The executable that a stage gets gathers the statements of all its units. -/
theorem link_gathers {stage : Stage} {version : Nat} {limits : Limits}
    {units : List TranslationUnit} {linked : Shader}
    (gatherable : ∀ unit ∈ units, Gatherable unit.shader)
    (main_first : ∀ pair ∈ splitMain? (units.map (·.shader)), pair.1.MainFirst)
    (grants : (link stage version limits units).Grants linked) :
    ∃ before main after, units.map (·.shader) = before ++ main :: after ∧
      (∀ unit ∈ before, unit.mainSignature? = none) ∧ main.mainSignature?.isSome = true ∧
      Gathers main (before ++ after) linked := by
  obtain ⟨resolutions, blocks, main, others, -, -, splits, assembles⟩ := link_grants grants
  obtain ⟨main_listed, others_listed, has_main⟩ := splitMain?_eq_some splits
  obtain ⟨before, after, in_order, rfl, none_before⟩ := splitMain?_splits splits
  obtain ⟨merged, resolved, agreed, fitted, misfits, moves, resolves, adopts, fits, sizes, -⟩ :=
    assemble_grants assembles
  have each : ∀ unit ∈ units.map (·.shader), Gatherable unit := by
    intro unit listed
    obtain ⟨whole, in_units, rfl⟩ := List.mem_map.mp listed
    exact gatherable whole in_units
  obtain ⟨entry, is_entry⟩ := Option.isSome_iff_exists.mp has_main
  let basis : Shader := { main with
    uniformBlocks := blocks
    geometry := (geometryLayout stage version (units.map (·.shader))).1 }
  have basis_entry : basis.mainSignature? = some entry := is_entry
  have basis_first : basis.MainFirst := main_first _ splits
  have basis_known : basis.symbols.functions.get? "main" = basis.lastNamed "main" :=
    (each main main_listed).main
  obtain ⟨own, parts, own_body, coherent, flat, keeps, clones, once, new, opens⟩ :=
    moveStatements_eq_ok basis_entry basis_first basis_known
      (fun unit listed => each unit (others_listed listed)) moves
  obtain ⟨resolved_flat, evolves, resolved_opens⟩ := resolveCalls_opens coherent flat opens resolves
  have adopted : Revised Variable.Completes resolved agreed :=
    adoptResolutions_revised .refl .trans (fun declared other _ => .adopt other declared) adopts
  have agreed_flat : agreed.topLevel.Flat := by
    rw [adopted.same]
    exact resolved_flat
  obtain ⟨fitted_flat, fitted_keeps, fitted_opens⟩ :=
    fitStageInputs_opens agreed_flat (resolved_opens.revised adopted) fits
  have sized : Revised Variable.Completes fitted linked :=
    sizeArrays_revised .refl .trans Variable.Completes.sizedVariable
      (fun declared _ => ⟨rfl, rfl, .refl declared.ty⟩) sizes
  have continues :=
    ((evolves.continues.trans adopted.continues).trans fitted_keeps).trans sized.continues
  obtain ⟨found, linked_body, alike⟩ := (fitted_opens.revised sized).mainBody?
  refine ⟨before, main, after, in_order, none_before, has_main, ?_, ?_, own, parts, found, own_body,
    linked_body, clones.imp fun _ _ is_clone => is_clone.continues continues, once, new, alike⟩
  · rw [sized.same]
    exact fitted_flat
  · have all := keeps.trans continues
    exact ⟨all.size, all.vars, all.globals, all.hasKey⟩

/-- The first unit dims a variable with a temporary of its own, the second shades with one before
`main` begins. -/
def dimmed : List TranslationUnit :=
  [⟨populateSymbols { ofParts .fragment [.vector "glow" .plain, .vector "last" .temporary] [] with
      topLevel := [.declare 0, .declare 1, .copy 1 0, .copy 0 1] }, []⟩,
    ⟨populateSymbols { ofParts .fragment [.vector "shade" .shaderOut, .vector "glow" .plain,
        .vector "last" .temporary] [.ofBody "main" [.copy 0 2]] with
      topLevel := [.declare 0, .declare 1, .declare 2, .copy 2 1, .function 0] }, []⟩]

theorem dimmed_gathers :
    (∀ unit ∈ dimmed, Gatherable unit.shader) ∧
    (∀ pair ∈ splitMain? (dimmed.map (·.shader)), pair.1.MainFirst) ∧
    ∃ linked, (link .fragment 150 {} dimmed).Grants linked ∧
      ∃ before main after, dimmed.map (·.shader) = before ++ main :: after ∧
        (∀ unit ∈ before, unit.mainSignature? = none) ∧ main.mainSignature?.isSome = true ∧
        Gathers main (before ++ after) linked := by
  have gatherable : ∀ unit ∈ dimmed, Gatherable unit.shader := by
    have checks : ∀ unit ∈ dimmed, isFunctionFree (statementsOf unit.shader) = true ∧
        DeclaredFirst (· ∉ declaredIn (statementsOf unit.shader).ownNodes) []
          (occurrences (statementsOf unit.shader).ownNodes) ∧
        unit.shader.symbols.functions.get? "main" =
          unit.shader.lastNamed "main" := by decide +kernel
    exact fun unit listed => ⟨functionFree_of_check (checks unit listed).1,
      (checks unit listed).2.1,
      (checks unit listed).2.2⟩
  have main_first : ∀ pair ∈ splitMain? (dimmed.map (·.shader)),
    pair.1.MainFirst := by decide +kernel
  have grants : (link .fragment 150 {} dimmed).grantsTo (fun _ => true) = true := by decide +kernel
  obtain ⟨linked, grants, -⟩ := Judged.exists_of_grantsTo grants
  exact ⟨gatherable, main_first, linked, grants, link_gathers gatherable main_first grants⟩

/-- A unit that announces `main` before it defines it, and calls what it has announced.  A library
defines `main` too. -/
def misled : TranslationUnit where
  shader := .ofParts .fragment [.vector "shade" .shaderOut, .vector "tint" .plain]
    [{ name := "main"
       signatures := [.announce .void [], .define .void [] [.copy 0 1, .call ⟨0, 0⟩ [] none]] }]
  libraries := [.ofParts .fragment [.vector "shade" .shaderOut, .vector "tint" .plain]
    [.ofBody "main" [.copy 1 0]]]

/-- It is not enough that a unit is well formed: resolving calls may define a signature that takes
the place of the one that its executable has begun with. -/
theorem misled_forgets_main :
    misled.shader.problems = [] ∧ misled.shader.FunctionsOnTop ∧
    (∀ callee ∈ callees misled.shader.nodes, callee.function ∈ misled.shader.declaredFunctions) ∧
    (∀ id ∈ misled.shader.declaredFunctions, ∀ signature ∈ misled.shader.signaturesOf id,
      ∀ parameter ∈ signature.parameters, parameter < misled.shader.vars.size) ∧
    (misled.shader.declaredVariables.map (·.name)).Nodup ∧ Gatherable misled.shader ∧
    (∀ library ∈ misled.libraries, library.WellFormed ∧ library.problems = []) ∧
    splitMain? [misled.shader] = some (misled.shader, []) ∧
    ∃ linked, (link .fragment 150 {} [misled]).Grants linked ∧
      ¬ Gathers misled.shader [] linked := by
  have on_top : misled.shader.FunctionsOnTop := by
    refine ⟨functionFree_of_check (by decide +kernel), fun id is_declared signature listed => ?_⟩
    have free : ∀ id ∈ misled.shader.declaredFunctions, ∀ signature ∈ misled.shader.signaturesOf id,
        isFunctionFree signature.body = true := by decide +kernel
    exact functionFree_of_check (free id is_declared signature listed)
  have gatherable : Gatherable misled.shader :=
    ⟨functionFree_of_check (by decide +kernel), by decide +kernel, by decide +kernel⟩
  have library_formed : ∀ library ∈ misled.libraries, library.WellFormed ∧
      library.problems = [] := by
    intro library listed
    obtain rfl := List.mem_singleton.mp listed
    exact ⟨wellFormed_of_check (by decide +kernel) (populated_populateSymbols _), by decide +kernel⟩
  have own_body : (misled.shader.mainBody?.map List.length) = some 2 := by decide +kernel
  have grants : (link .fragment 150 {} [misled]).grantsTo (fun linked =>
      decide (linked.mainBody?.map List.length = some 1)) = true := by decide +kernel
  obtain ⟨linked, grants, linked_body⟩ := Judged.exists_of_grantsTo grants
  refine ⟨by
    decide +kernel, on_top, by decide +kernel, by decide +kernel, by decide +kernel, gatherable,
    library_formed, rfl, linked, grants, fun gathers => ?_⟩
  obtain ⟨own, parts, entry, is_own, is_entry, none_other, -, -, alike⟩ := gathers.body
  obtain rfl : parts = [] := by simpa using none_other
  rw [is_own, Option.map_some, Option.some.injEq] at own_body
  rw [is_entry, Option.map_some, decide_eq_true_eq, Option.some.injEq] at linked_body
  have same_length := alike.length_eq
  rw [List.length_append, own_body, linked_body] at same_length
  omega

end Merge
end StageLink
