import StageLink.Proofs.Globals

/-!
# Keys of signatures

A signature is looked up by the name of its function and by the types of its parameters.  What has
been found stays found when a shader gets further variables, functions and signatures, as long as it
keeps those it has.
-/

namespace StageLink
namespace Shader

variable {shader before after : Shader}

def KeepsVariables (before after : Shader) : Prop :=
  ∀ id declared, before.vars.get? id = some declared → after.vars.get? id = some declared

theorem fetchFunction_eq_ok {id : FunctionId} {function : Function} :
    shader.fetchFunction id = .ok function ↔ shader.functions.get? id = some function := by
  cases found : shader.functions.get? id <;> simp [fetchFunction, found]

theorem signaturesOf_eq {id : FunctionId} {function : Function}
    (found : shader.functions.get? id = some function) :
    shader.signaturesOf id = function.signatures := by
  simp [signaturesOf, found]

/-! ## Bodies -/

theorem exists_function_iff {signature : Signature} :
    (∃ function ∈ shader.functions.entries, signature ∈ function.signatures) ↔
      ∃ id, signature ∈ shader.signaturesOf id := by
  constructor
  · rintro ⟨function, in_arena, listed⟩
    obtain ⟨id, found⟩ := Arena.exists_get?_of_mem in_arena
    exact ⟨id, signaturesOf_eq found ▸ listed⟩
  · rintro ⟨id, listed⟩
    cases found : shader.functions.get? id with
    | none =>
        rw [signaturesOf, found] at listed
        cases listed
    | some function =>
        exact ⟨function, Arena.mem_of_get? found, signaturesOf_eq found ▸ listed⟩

/-- The instruction lists of a shader are its top-level list and the bodies of its signatures. -/
theorem mem_bodies {body : Block} : body ∈ shader.bodies ↔
    body = shader.topLevel ∨ ∃ id, ∃ signature ∈ shader.signaturesOf id, body = signature.body := by
  rw [bodies, List.mem_cons, List.mem_flatMap]
  refine or_congr_right ⟨?_, ?_⟩
  · rintro ⟨function, in_arena, inside⟩
    obtain ⟨signature, listed, rfl⟩ := List.mem_map.mp inside
    obtain ⟨id, listed⟩ := exists_function_iff.mp ⟨function, in_arena, listed⟩
    exact ⟨id, signature, listed, rfl⟩
  · rintro ⟨id, signature, listed, rfl⟩
    obtain ⟨function, in_arena, listed⟩ := exists_function_iff.mpr ⟨id, listed⟩
    exact ⟨function, in_arena, List.mem_map_of_mem listed⟩

/-! ## Types of parameters -/

theorem typesOf_eq_ok {ids : List VariableId} {types : List Ty} :
    shader.typesOf ids = .ok types ↔ List.Forall₂
      (fun id ty => ∃ declared, shader.vars.get? id = some declared ∧
        declared.ty = ty) ids types := by
  rw [typesOf, Checked.mapM_eq_ok]
  have each : ∀ id ty, (do return (← shader.fetchVariable id).ty : Checked Ty) = .ok ty ↔
      ∃ declared, shader.vars.get? id = some declared ∧ declared.ty = ty := by
    intro id ty
    rw [Checked.bind_eq_ok]
    simp only [fetchVariable_eq_ok, Checked.pure_eq_ok]
  simp only [each]

theorem typesOf_keeps (keeps : KeepsVariables before after) {ids : List VariableId}
    {types : List Ty} (typed : before.typesOf ids = .ok types) :
    after.typesOf ids = .ok types := by
  rw [typesOf_eq_ok] at typed ⊢
  exact typed.imp fun id ty ⟨declared, found, same⟩ => ⟨declared, keeps id declared found, same⟩

/-- Variables that point somewhere have types. -/
theorem exists_typesOf {ids : List VariableId} (bound : ∀ id ∈ ids, id < shader.vars.size) :
    ∃ types, shader.typesOf ids = .ok types := by
  induction ids with
  | nil => exact ⟨[], typesOf_eq_ok.mpr .nil⟩
  | cons id ids ih =>
      obtain ⟨types, typed⟩ := ih fun other listed => bound other (List.mem_cons_of_mem id listed)
      obtain ⟨declared, found⟩ := Arena.exists_get? (bound id (List.mem_cons_self ..))
      exact ⟨declared.ty :: types,
        typesOf_eq_ok.mpr (.cons ⟨declared, found, rfl⟩ (typesOf_eq_ok.mp typed))⟩

theorem haveTypes_keeps (keeps : KeepsVariables before after) {ids : List VariableId}
    {types : List Ty} {answer : Bool} (answers : before.haveTypes ids types = .ok answer) :
    after.haveTypes ids types = .ok answer := by
  induction ids generalizing types with
  | nil => exact answers
  | cons id ids ih =>
      cases types with
      | nil => exact answers
      | cons ty types =>
          obtain ⟨declared, fetched, following⟩ := Checked.bind_eq_ok.mp answers
          refine Checked.bind_eq_ok.mpr ⟨declared, ?_, ?_⟩
          · exact fetchVariable_eq_ok.mpr (keeps id declared (fetchVariable_eq_ok.mp fetched))
          · split at following
            · next same =>
                rw [if_pos same]
                exact ih following
            · next differs =>
                rw [if_neg differs]
                exact following

theorem haveTypes_iff {ids : List VariableId} {types : List Ty}
    (as_many : ids.length = types.length) :
    shader.haveTypes ids types = .ok true ↔ shader.typesOf ids = .ok types := by
  rw [typesOf_eq_ok]
  induction ids generalizing types with
  | nil =>
      obtain rfl : types = [] := List.length_eq_zero_iff.mp as_many.symm
      exact ⟨fun _ => .nil, fun _ => rfl⟩
  | cons id ids ih =>
      cases types with
      | nil => cases as_many
      | cons ty types =>
          rw [haveTypes, Checked.bind_eq_ok, List.forall₂_cons, ← ih (by simpa using as_many)]
          simp only [fetchVariable_eq_ok]
          constructor
          · rintro ⟨declared, found, following⟩
            split at following
            · next same => exact ⟨⟨declared, found, same⟩, following⟩
            · cases following
          · rintro ⟨⟨declared, found, same⟩, following⟩
            exact ⟨declared, found, by rw [if_pos same]; exact following⟩

theorem exists_haveTypes {ids : List VariableId} (bound : ∀ id ∈ ids, id < shader.vars.size)
    (types : List Ty) : ∃ answer, shader.haveTypes ids types = .ok answer := by
  induction ids generalizing types with
  | nil => exact ⟨true, rfl⟩
  | cons id ids ih =>
      cases types with
      | nil => exact ⟨true, rfl⟩
      | cons ty types =>
          obtain ⟨declared, found⟩ := Arena.exists_get? (bound id (List.mem_cons_self ..))
          obtain ⟨answer, answers⟩ :=
            ih (fun other listed => bound other (List.mem_cons_of_mem id listed)) types
          rw [haveTypes, fetchVariable_eq_ok.mpr found]
          by_cases same : declared.ty = ty
          · exact ⟨answer, (if_pos same).trans answers⟩
          · exact ⟨false, if_neg same⟩

theorem length_of_typesOf {ids : List VariableId} {types : List Ty}
    (typed : shader.typesOf ids = .ok types) : ids.length = types.length :=
  (typesOf_eq_ok.mp typed).length_eq

/-! ## Searching -/

/-- What is said of a signature by a search: whether its parameters have exactly the types. -/
def matchesTypes (shader : Shader) (types : List Ty) (signature : Signature) : Checked Bool :=
  if signature.parameters.length = types.length then
    shader.haveTypes signature.parameters types
  else
    return false

theorem matchesTypes_iff {types : List Ty} {signature : Signature} :
    shader.matchesTypes types signature = .ok true ↔
      shader.typesOf signature.parameters = .ok types := by
  unfold matchesTypes
  split
  · next as_many => exact haveTypes_iff as_many
  · next differs =>
      constructor
      · intro answers
        cases answers
      · exact fun typed => absurd (length_of_typesOf typed) differs

theorem matchesTypes_keeps (keeps : KeepsVariables before after) {types : List Ty}
    {signature : Signature} {answer : Bool}
    (answers : before.matchesTypes types signature = .ok answer) :
    after.matchesTypes types signature = .ok answer := by
  unfold matchesTypes at answers ⊢
  split at answers
  · next as_many =>
      rw [if_pos as_many]
      exact haveTypes_keeps keeps answers
  · next differs =>
      rw [if_neg differs]
      exact answers

theorem exists_matchesTypes {signature : Signature}
    (bound : ∀ id ∈ signature.parameters, id < shader.vars.size) (types : List Ty) :
    ∃ answer, shader.matchesTypes types signature = .ok answer := by
  unfold matchesTypes
  split
  · exact exists_haveTypes bound types
  · exact ⟨false, rfl⟩

/-- A search looks at the signatures one by one. -/
theorem findSignatureFrom_cons {types : List Ty} {position : Nat} {signature : Signature}
    {signatures : List Signature} :
    shader.findSignatureFrom types position (signature :: signatures) =
      shader.matchesTypes types signature >>= fun found =>
        if found then return some position
        else shader.findSignatureFrom types (position + 1) signatures := by
  rw [findSignatureFrom, matchesTypes]
  by_cases as_many : signature.parameters.length = types.length
  · rw [if_pos as_many, if_pos as_many]
  · rw [if_neg as_many, if_neg as_many]
    rfl

theorem findSignatureFrom_keeps (keeps : KeepsVariables before after) {types : List Ty}
    {position : Nat} {signatures : List Signature} {answer : Option Nat}
    (answers : before.findSignatureFrom types position signatures = .ok answer) :
    after.findSignatureFrom types position signatures = .ok answer := by
  induction signatures generalizing position with
  | nil => exact answers
  | cons signature signatures ih =>
      rw [findSignatureFrom_cons] at answers ⊢
      obtain ⟨found, looks, following⟩ := Checked.bind_eq_ok.mp answers
      refine Checked.bind_eq_ok.mpr ⟨found, matchesTypes_keeps keeps looks, ?_⟩
      cases found with
      | true => exact following
      | false => exact ih following

/-- A search that has found something goes no further. -/
theorem findSignatureFrom_append {types : List Ty} {position found : Nat}
    {signatures more : List Signature}
    (answers : shader.findSignatureFrom types position signatures = .ok (some found)) :
    shader.findSignatureFrom types position (signatures ++ more) = .ok (some found) := by
  induction signatures generalizing position with
  | nil => cases answers
  | cons signature signatures ih =>
      rw [findSignatureFrom_cons] at answers
      rw [List.cons_append, findSignatureFrom_cons]
      obtain ⟨matching, looks, following⟩ := Checked.bind_eq_ok.mp answers
      refine Checked.bind_eq_ok.mpr ⟨matching, looks, ?_⟩
      cases matching with
      | true => exact following
      | false => exact ih following

/-- A search that has found nothing goes on in further signatures. -/
theorem findSignatureFrom_append_of_none {types : List Ty} {position : Nat}
    {signatures more : List Signature}
    (answers : shader.findSignatureFrom types position signatures = .ok none) :
    shader.findSignatureFrom types position (signatures ++ more) =
      shader.findSignatureFrom types (position + signatures.length) more := by
  induction signatures generalizing position with
  | nil => rfl
  | cons signature signatures ih =>
      rw [findSignatureFrom_cons] at answers
      obtain ⟨matching, looks, following⟩ := Checked.bind_eq_ok.mp answers
      cases matching with
      | true => cases following
      | false =>
          rw [List.cons_append, findSignatureFrom_cons, looks, List.length_cons,
            Nat.add_comm signatures.length, ← Nat.add_assoc]
          exact ih following

/-- What a search finds has the types, and is the first to have them. -/
theorem findSignatureFrom_spec {types : List Ty} {position : Nat} {signatures : List Signature}
    {answer : Option Nat}
    (answers : shader.findSignatureFrom types position signatures = .ok answer) :
    match answer with
    | some found => ∃ offset signature, found = position + offset ∧
        signatures[offset]? = some signature ∧ shader.typesOf signature.parameters = .ok types
    | none => ∀ signature ∈ signatures, shader.typesOf signature.parameters ≠ .ok types := by
  induction signatures generalizing position with
  | nil =>
      obtain rfl : none = answer := by simpa [findSignatureFrom] using answers
      simp
  | cons signature signatures ih =>
      rw [findSignatureFrom_cons] at answers
      obtain ⟨found, looks, following⟩ := Checked.bind_eq_ok.mp answers
      cases found with
      | true =>
          obtain rfl : some position = answer := by simpa using following
          exact ⟨0, signature, rfl, rfl, matchesTypes_iff.mp looks⟩
      | false =>
          have rest := ih following
          cases answer with
          | some chosen =>
              obtain ⟨offset, other, rfl, there, typed⟩ := rest
              exact ⟨offset + 1, other, by omega, there, typed⟩
          | none =>
              intro other listed
              rcases List.mem_cons.mp listed with rfl | later
              · intro typed
                have matching := matchesTypes_iff.mpr typed
                rw [looks] at matching
                cases matching
              · exact rest other later

theorem exists_findSignatureFrom {signatures : List Signature}
    (bound : ∀ signature ∈ signatures, ∀ id ∈ signature.parameters, id < shader.vars.size)
    (types : List Ty) (position : Nat) :
    ∃ answer, shader.findSignatureFrom types position signatures = .ok answer := by
  induction signatures generalizing position with
  | nil => exact ⟨none, rfl⟩
  | cons signature signatures ih =>
      obtain ⟨found, looks⟩ := exists_matchesTypes (bound signature (List.mem_cons_self ..)) types
      obtain ⟨answer, answers⟩ := ih
        (fun other listed => bound other (List.mem_cons_of_mem signature listed)) (position + 1)
      rw [findSignatureFrom_cons, looks]
      cases found with
      | true => exact ⟨some position, rfl⟩
      | false => exact ⟨answer, answers⟩

/-! ## Keys -/

def At (shader : Shader) (callee : Callee) (signature : Signature) : Prop :=
  (shader.signaturesOf callee.function)[callee.signature]? = some signature

def HasKey (shader : Shader) (callee : Callee) (name : String) (types : List Ty) : Prop :=
  ∃ function signature, shader.functions.get? callee.function = some function ∧
    function.name = name ∧ function.signatures[callee.signature]? = some signature ∧
    shader.typesOf signature.parameters = .ok types

def Finds (shader : Shader) (name : String) (types : List Ty) (callee : Callee) : Prop :=
  shader.symbols.functions.get? name = some callee.function ∧
    shader.findSignature callee.function types = .ok (some callee.signature)

theorem At.unique {callee : Callee} {one other : Signature} (first : shader.At callee one)
    (second : shader.At callee other) : one = other :=
  Option.some.inj (Eq.trans (Eq.symm first) second)

theorem HasKey.unique {callee : Callee} {name other : String} {types others : List Ty}
    (first : shader.HasKey callee name types) (second : shader.HasKey callee other others) :
    name = other ∧ types = others := by
  obtain ⟨function, signature, found, named, there, typed⟩ := first
  obtain ⟨function', signature', found', named', there', typed'⟩ := second
  obtain rfl : function = function' := Option.some.inj (found.symm.trans found')
  obtain rfl : signature = signature' := Option.some.inj (there.symm.trans there')
  exact ⟨named.symm.trans named', Except.ok.inj (typed.symm.trans typed')⟩

theorem Finds.unique {name : String} {types : List Ty} {one other : Callee}
    (first : shader.Finds name types one) (second : shader.Finds name types other) :
    one = other := by
  obtain ⟨function, signature⟩ := one
  obtain ⟨function', signature'⟩ := other
  obtain ⟨bound, found⟩ := first
  obtain ⟨bound', found'⟩ := second
  obtain rfl : function = function' := Option.some.inj (bound.symm.trans bound')
  obtain rfl : signature = signature' := Option.some.inj (Except.ok.inj (found.symm.trans found'))
  rfl

theorem HasKey.exists_at {callee : Callee} {name : String} {types : List Ty}
    (has : shader.HasKey callee name types) :
    ∃ signature, shader.At callee signature ∧
      shader.typesOf signature.parameters = .ok types := by
  obtain ⟨function, signature, found, -, there, typed⟩ := has
  refine ⟨signature, ?_, typed⟩
  rw [At, signaturesOf_eq found]
  exact there

/-- A function and one of its signatures. -/
theorem At.function {callee : Callee} {signature : Signature} (there : shader.At callee signature) :
    ∃ function, shader.functions.get? callee.function = some function ∧
      function.signatures[callee.signature]? = some signature := by
  rw [At] at there
  cases found : shader.functions.get? callee.function with
  | none => simp [signaturesOf, found] at there
  | some function =>
      rw [signaturesOf_eq found] at there
      exact ⟨function, rfl, there⟩

theorem fetchSignature_eq_ok {callee : Callee} {signature : Signature} :
    shader.fetchSignature callee = .ok signature ↔ shader.At callee signature := by
  constructor
  · intro fetched
    obtain ⟨function, found, following⟩ := Checked.bind_eq_ok.mp fetched
    rw [At, signaturesOf_eq (fetchFunction_eq_ok.mp found)]
    split at following
    · next other held =>
        obtain rfl := Except.ok.inj following
        exact held
    · cases following
  · intro there
    obtain ⟨function, found, held⟩ := there.function
    refine Checked.bind_eq_ok.mpr ⟨function, fetchFunction_eq_ok.mpr found, ?_⟩
    rw [held]

theorem findSignature_eq {id : FunctionId} {function : Function}
    (found : shader.functions.get? id = some function) (types : List Ty) :
    shader.findSignature id types = shader.findSignatureFrom types 0 function.signatures := by
  rw [findSignature, fetchFunction_eq_ok.mpr found]
  rfl

/-- A signature that is found belongs to the function and has the types. -/
theorem findSignature_eq_some {id : FunctionId} {types : List Ty} {position : Nat}
    (finds : shader.findSignature id types = .ok (some position)) :
    ∃ function signature, shader.functions.get? id = some function ∧
      function.signatures[position]? = some signature ∧
      shader.typesOf signature.parameters = .ok types := by
  obtain ⟨function, fetched, chosen⟩ := Checked.bind_eq_ok.mp finds
  obtain ⟨offset, signature, same, there, typed⟩ := findSignatureFrom_spec chosen
  rw [Nat.zero_add] at same
  exact ⟨function, signature, fetchFunction_eq_ok.mp fetched, same ▸ there, typed⟩

/-! ## Changing signatures -/

/-- Variables, the names of functions and the parameters of their signatures are kept. -/
structure KeepsKeys (before after : Shader) : Prop where
  vars : KeepsVariables before after
  symbols : ∀ {name id}, before.symbols.functions.get? name = some id →
    after.symbols.functions.get? name = some id
  functions : ∀ {id function}, before.functions.get? id = some function →
    ∃ changed, after.functions.get? id = some changed ∧ changed.name = function.name ∧
      changed.signatures.map (·.parameters) = function.signatures.map (·.parameters)

/-- Only the parameters of signatures matter to a search. -/
theorem findSignatureFrom_congr (keeps : KeepsVariables before after) {types : List Ty}
    {position : Nat} {signatures changed : List Signature} {answer : Option Nat}
    (same : changed.map (·.parameters) = signatures.map (·.parameters))
    (answers : before.findSignatureFrom types position signatures = .ok answer) :
    after.findSignatureFrom types position changed = .ok answer := by
  induction signatures generalizing position changed with
  | nil =>
      obtain rfl := List.map_eq_nil_iff.mp same
      exact answers
  | cons signature signatures ih =>
      obtain ⟨first, rest, rfl, same_parameters, same_rest⟩ := List.map_eq_cons_iff.mp same
      rw [findSignatureFrom_cons] at answers ⊢
      obtain ⟨found, looks, following⟩ := Checked.bind_eq_ok.mp answers
      have looks_first : after.matchesTypes types first = .ok found := by
        have looks_after := matchesTypes_keeps keeps looks
        unfold matchesTypes at looks_after ⊢
        rw [same_parameters]
        exact looks_after
      refine Checked.bind_eq_ok.mpr ⟨found, looks_first, ?_⟩
      cases found with
      | true => exact following
      | false => exact ih same_rest following

theorem KeepsKeys.finds (keeps : KeepsKeys before after) {name : String} {types : List Ty}
    {callee : Callee} (finds : before.Finds name types callee) : after.Finds name types callee := by
  obtain ⟨bound, found⟩ := finds
  obtain ⟨function, -, held, -⟩ := findSignature_eq_some found
  obtain ⟨changed, held_changed, -, same⟩ := keeps.functions held
  refine ⟨keeps.symbols bound, ?_⟩
  rw [findSignature_eq held] at found
  rw [findSignature_eq held_changed]
  exact findSignatureFrom_congr keeps.vars same found

theorem KeepsKeys.hasKey (keeps : KeepsKeys before after) {name : String} {types : List Ty}
    {callee : Callee} (has : before.HasKey callee name types) : after.HasKey callee name types := by
  obtain ⟨function, signature, found, named, there, typed⟩ := has
  obtain ⟨changed, found_changed, same_name, same⟩ := keeps.functions found
  have same_parameters := congrArg (·[callee.signature]?) same
  simp only [List.getElem?_map, there, Option.map_some] at same_parameters
  obtain ⟨renewed, there_renewed, equal⟩ := Option.map_eq_some_iff.mp same_parameters
  refine ⟨changed, renewed, found_changed, same_name.trans named, there_renewed, ?_⟩
  rw [equal]
  exact typesOf_keeps keeps.vars typed

section Modify

variable {callee : Callee} {change : Signature → Signature}

theorem signaturesOf_modifySignature (id : FunctionId) :
    (shader.modifySignature callee change).signaturesOf id =
      if callee.function = id then (shader.signaturesOf id).modify callee.signature change
      else shader.signaturesOf id := by
  simp only [signaturesOf, modifySignature, Arena.get?_modify]
  cases shader.functions.get? id with
  | none => simp
  | some function => split <;> simp [*]

theorem at_modifySignature {other : Callee} {signature : Signature} :
    (shader.modifySignature callee change).At other signature ↔ ∃ old, shader.At other old ∧
      signature = if other = callee then change old else old := by
  obtain ⟨function, position⟩ := other
  obtain ⟨target, place⟩ := callee
  simp only [At, signaturesOf_modifySignature, Callee.mk.injEq]
  by_cases here : target = function
  · subst here
    simp only [if_true, true_and, List.getElem?_modify, eq_comm (a := position)]
    cases held : (shader.signaturesOf target)[position]? with
    | none => simp
    | some old => split <;> simp [eq_comm]
  · simp [here, Ne.symm here, eq_comm]

theorem keepsKeys_modifySignature
    (same : ∀ signature, (change signature).parameters = signature.parameters) :
    KeepsKeys shader (shader.modifySignature callee change) ∧
      KeepsKeys (shader.modifySignature callee change) shader := by
  have same_parameters : ∀ (signatures : List Signature) (position : Nat),
      (signatures.modify position change).map (·.parameters) = signatures.map (·.parameters) := by
    intro signatures position
    refine List.ext_getElem? fun offset => ?_
    simp only [List.getElem?_map, List.getElem?_modify]
    cases signatures[offset]? with
    | none => rfl
    | some signature => simp; split <;> simp [same]
  refine ⟨⟨fun _ _ found => found, fun bound => bound, fun {id function} found => ?_⟩,
    ⟨fun _ _ found => found, fun bound => bound, fun {id function} found => ?_⟩⟩
  · refine ⟨_, by rw [modifySignature, Arena.get?_modify, found]; rfl, ?_⟩
    split
    · exact ⟨rfl, same_parameters _ _⟩
    · exact ⟨rfl, rfl⟩
  · rw [modifySignature, Arena.get?_modify] at found
    obtain ⟨original, held, rfl⟩ := Option.map_eq_some_iff.mp found
    refine ⟨original, held, ?_⟩
    split
    · exact ⟨rfl, (same_parameters _ _).symm⟩
    · exact ⟨rfl, rfl⟩

end Modify

end Shader
end StageLink
