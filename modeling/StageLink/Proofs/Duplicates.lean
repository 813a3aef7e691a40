import StageLink.Proofs.Checking
import StageLink.Proofs.Libraries

/-!
# Definitions of several units

A definition of one unit is looked up in each later unit by the name of its function and the types
of its parameters, and the first signature with these types is taken.  So the check for multiple
definitions catches two definitions if no announcement and no signature of the built-in library
hides that of the later unit.  It does not catch them otherwise.
-/

namespace StageLink
namespace Shader

variable {unit : Shader}

/-- The declared functions exist, with their parameters, and have different names, under which the
symbol table knows them. -/
structure KnowsFunctions (unit : Shader) : Prop where
  functions : ∀ id ∈ unit.declaredFunctions, id < unit.functions.size
  parameters : ∀ id ∈ unit.declaredFunctions, ∀ signature ∈ unit.signaturesOf id,
    ∀ parameter ∈ signature.parameters, parameter < unit.vars.size
  populated : unit.Populated
  apart : unit.NamesApart

def hasTypes (unit : Shader) (types : List Ty) (signature : Signature) : Bool :=
  (unit.typesOf signature.parameters).toOption = some types

/-- A signature of the function has the types and is defined by the unit itself. -/
def OwnsIn (unit : Shader) (id : FunctionId) (types : List Ty) : Prop :=
  ∃ signature ∈ unit.signaturesOf id, signature.isOwnDefinition = true ∧
    unit.typesOf signature.parameters = .ok types

/-- The unit itself defines a signature with the types in a declared function of the name. -/
def Owns (unit : Shader) (name : String) (types : List Ty) : Prop :=
  ∃ id ∈ unit.declaredFunctions, unit.isNamed name id = true ∧ unit.OwnsIn id types

/-- Whether the first signature of a function with the types is defined by the unit itself. -/
def leadsWithOwn (unit : Shader) (id : FunctionId) (types : List Ty) : Bool :=
  ((unit.signaturesOf id).find? (unit.hasTypes types)).any Signature.isOwnDefinition

def LeadsWith (unit : Shader) (name : String) (types : List Ty) : Prop :=
  ∃ id ∈ unit.declaredFunctions, unit.isNamed name id = true ∧ unit.leadsWithOwn id types = true

/-- No other signature with the same types stands before the definitions of the unit itself. -/
def OwnLead (unit : Shader) : Prop :=
  ∀ id ∈ unit.declaredFunctions, ∀ signature ∈ unit.signaturesOf id,
    signature.isOwnDefinition = true → ∀ types, unit.typesOf signature.parameters = .ok types →
      unit.leadsWithOwn id types = true

/-! ## Looking up -/

theorem hasTypes_iff {types : List Ty} {signature : Signature} :
    unit.hasTypes types signature = true ↔ unit.typesOf signature.parameters = .ok types := by
  cases typed : unit.typesOf signature.parameters <;> simp [hasTypes, typed, Except.toOption]

/-- A search finds the first signature with the types. -/
theorem findSignatureFrom_eq {signatures : List Signature}
    (inside : ∀ signature ∈ signatures, ∀ parameter ∈ signature.parameters,
      parameter < unit.vars.size)
    (types : List Ty) (position : Nat) : unit.findSignatureFrom types position signatures =
      .ok ((signatures.findIdx? (unit.hasTypes types)).map (position + ·)) := by
  induction signatures generalizing position with
  | nil => rfl
  | cons signature signatures ih =>
      have rest :=
        ih (fun other listed => inside other (List.mem_cons_of_mem _ listed)) (position + 1)
      obtain ⟨found, looks⟩ := exists_matchesTypes (inside signature (List.mem_cons_self ..)) types
      rw [findSignatureFrom_cons, looks, Checked.ok_bind, List.findIdx?_cons]
      cases found with
      | true =>
          rw [if_pos rfl, if_pos (hasTypes_iff.mpr (matchesTypes_iff.mp looks))]
          rfl
      | false =>
          have unlike : ¬ unit.hasTypes types signature = true := by
            intro typed
            have matching := matchesTypes_iff.mpr (hasTypes_iff.mp typed)
            rw [looks] at matching
            cases matching
          rw [if_neg Bool.false_ne_true, if_neg unlike, rest, Option.map_map]
          refine congrArg Except.ok (Option.map_congr fun later _ => ?_)
          simp only [Function.comp_apply]
          omega

theorem owns_of_leadsWith {name : String} {types : List Ty} (leads : unit.LeadsWith name types) :
    unit.Owns name types := by
  obtain ⟨id, is_declared, named, leads⟩ := leads
  refine ⟨id, is_declared, named, ?_⟩
  rw [leadsWithOwn] at leads
  cases found : (unit.signaturesOf id).find? (unit.hasTypes types) with
  | none =>
      rw [found] at leads
      cases leads
  | some signature =>
      rw [found] at leads
      exact ⟨signature, List.mem_of_find?_eq_some found, leads,
        hasTypes_iff.mp (List.find?_some found)⟩

/-- Where the definitions of a unit come before all other signatures with their types, it leads with
them. -/
theorem OwnLead.leadsWith (lead : unit.OwnLead) {name : String} {types : List Ty}
    (owns : unit.Owns name types) : unit.LeadsWith name types := by
  obtain ⟨id, is_declared, named, signature, listed, own, typed⟩ := owns
  exact ⟨id, is_declared, named, lead id is_declared signature listed own types typed⟩

end Shader

namespace Definition

open Shader

variable {unit other : Shader} {units : List Shader}

theorem definesFirst_eq (knows : other.KnowsFunctions) {id : FunctionId}
    (is_declared : id ∈ other.declaredFunctions) (types : List Ty) :
    definesFirst other id types = .ok (other.leadsWithOwn id types) := by
  obtain ⟨function, found⟩ := Arena.exists_get? (knows.functions id is_declared)
  have inside := knows.parameters id is_declared
  rw [signaturesOf_eq found] at inside
  have looks :
      other.findSignature id types = .ok (function.signatures.findIdx? (other.hasTypes types)) := by
    rw [findSignature_eq found, findSignatureFrom_eq inside]
    simp
  rw [definesFirst, looks, Checked.ok_bind, leadsWithOwn, signaturesOf_eq found,
    List.find?_eq_bind_findIdx?_getElem?]
  cases function.signatures.findIdx? (other.hasTypes types) <;> rfl

/-! ## Finding duplicates -/

/-- Whether another unit has a definition of its own where it looks for that of a signature. -/
def isRepeated (unit other : Shader) (counterpart : FunctionId) (signature : Signature) : Bool :=
  signature.isOwnDefinition &&
    (unit.typesOf signature.parameters).toOption.any (other.leadsWithOwn counterpart)

theorem isRepeated_iff {counterpart : FunctionId} {signature : Signature} :
    isRepeated unit other counterpart signature = true ↔ signature.isOwnDefinition = true ∧
      ∃ types, unit.typesOf signature.parameters = .ok types ∧
        other.leadsWithOwn counterpart types = true := by
  cases typed : unit.typesOf signature.parameters <;> simp [isRepeated, typed, Except.toOption]

theorem duplicatesOf_eq (knows : other.KnowsFunctions) {counterpart : FunctionId}
    (is_declared : counterpart ∈ other.declaredFunctions) (name : String)
    {signatures : List Signature}
    (inside : ∀ signature ∈ signatures, ∀ parameter ∈ signature.parameters,
      parameter < unit.vars.size) :
    duplicatesOf unit other name counterpart signatures = .ok
      ((signatures.filter (isRepeated unit other counterpart)).map fun _ =>
        .multiplyDefined name) := by
  induction signatures with
  | nil => rfl
  | cons signature signatures ih =>
      have later := ih fun one listed => inside one (List.mem_cons_of_mem _ listed)
      obtain ⟨types, typed⟩ := exists_typesOf (inside signature (List.mem_cons_self ..))
      rw [duplicatesOf, later, Checked.ok_bind]
      by_cases own : signature.isOwnDefinition = true
      · rw [if_pos own, typed, Checked.ok_bind, definesFirst_eq knows is_declared, Checked.ok_bind]
        have same : isRepeated unit other counterpart signature =
            other.leadsWithOwn counterpart types := by
          simp [isRepeated, own, typed, Except.toOption]
        by_cases leads : other.leadsWithOwn counterpart types = true
        · rw [if_pos leads, List.filter_cons_of_pos (same.trans leads)]
          rfl
        · rw [if_neg leads, List.filter_cons_of_neg (by rwa [same])]
          rfl
      · rw [if_neg own, List.filter_cons_of_neg fun repeated => own (isRepeated_iff.mp repeated).1]
        rfl

/-- Looking up the name of a function leads to what the other unit declares. -/
theorem leadsWith_iff (knows : other.KnowsFunctions) {name : String} {types : List Ty} :
    other.LeadsWith name types ↔ ∃ counterpart,
      other.symbols.functions.get? name = some counterpart ∧
      other.leadsWithOwn counterpart types = true := by
  constructor
  · rintro ⟨id, is_declared, named, leads⟩
    obtain ⟨function, found, rfl⟩ := Option.map_eq_some_iff.mp (isNamed_iff.mp named)
    exact ⟨id, knows.populated.knows knows.apart is_declared found, leads⟩
  · rintro ⟨id, bound, leads⟩
    obtain ⟨is_declared, named⟩ := knows.populated.isNamed bound
    exact ⟨id, is_declared, named, leads⟩

/-- The definitions of a function that another unit repeats are those that the other unit leads with
in a function of the same name. -/
theorem duplicates_cons (knows : unit.KnowsFunctions) (knows_other : other.KnowsFunctions)
    {id : FunctionId} {function : Function} (is_declared : id ∈ unit.declaredFunctions)
    (found : unit.functions.get? id = some function) : ∃ here,
    (∀ ids later, duplicates unit other ids = .ok later →
      duplicates unit other (id :: ids) = .ok (here ++ later)) ∧
    ∀ error, error ∈ here ↔ ∃ types, error = .multiplyDefined function.name ∧ unit.OwnsIn id types ∧
      other.LeadsWith function.name types := by
  have inside := knows.parameters id is_declared
  rw [signaturesOf_eq found] at inside
  simp only [leadsWith_iff knows_other, OwnsIn, signaturesOf_eq found]
  cases bound : other.symbols.functions.get? function.name with
  | none =>
      refine ⟨[], fun ids later runs => ?_, by simp⟩
      rw [duplicates, fetchFunction_eq_ok.mpr found, Checked.ok_bind, bound]
      exact Checked.bind_eq_ok.mpr ⟨[], rfl, Checked.bind_eq_ok.mpr ⟨later, runs, rfl⟩⟩
  | some counterpart =>
      have is_declared_other := (knows_other.populated.isNamed bound).1
      have here := duplicatesOf_eq knows_other is_declared_other function.name inside
      refine ⟨(function.signatures.filter (isRepeated unit other counterpart)).map fun _ =>
        .multiplyDefined function.name, fun ids later runs => ?_, fun error => ?_⟩
      · rw [duplicates, fetchFunction_eq_ok.mpr found, Checked.ok_bind, bound]
        exact Checked.bind_eq_ok.mpr ⟨_, here, Checked.bind_eq_ok.mpr ⟨later, runs, rfl⟩⟩
      · simp only [List.mem_map, List.mem_filter, isRepeated_iff]
        constructor
        · rintro ⟨signature, ⟨listed, own, types, typed, leads⟩, rfl⟩
          exact ⟨types, rfl, ⟨signature, listed, own, typed⟩, counterpart, rfl, leads⟩
        · rintro ⟨types, rfl, ⟨signature, listed, own, typed⟩, target, same, leads⟩
          obtain rfl := Option.some.inj same
          exact ⟨signature, ⟨listed, own, types, typed, leads⟩, rfl⟩

theorem duplicates_spec (knows : unit.KnowsFunctions) (knows_other : other.KnowsFunctions)
    {ids : List FunctionId} (declared : ∀ id ∈ ids, id ∈ unit.declaredFunctions) :
    ∃ found, duplicates unit other ids = .ok found ∧ ∀ error, error ∈ found ↔ ∃ name types,
      error = .multiplyDefined name ∧
        (∃ id ∈ ids, unit.isNamed name id = true ∧ unit.OwnsIn id types) ∧
        other.LeadsWith name types := by
  induction ids with
  | nil => exact ⟨[], rfl, by simp⟩
  | cons id ids ih =>
      obtain ⟨later, runs, tells⟩ :=
        ih fun one listed => declared one (List.mem_cons_of_mem _ listed)
      have is_declared := declared id (List.mem_cons_self ..)
      obtain ⟨function, found⟩ := Arena.exists_get? (knows.functions id is_declared)
      obtain ⟨here, goes_on, tells_here⟩ := duplicates_cons knows knows_other is_declared found
      refine ⟨here ++ later, goes_on ids later runs, fun error => ?_⟩
      have named : ∀ name, unit.isNamed name id = true ↔ function.name = name := by
        simp [isNamed, found]
      rw [List.mem_append, tells_here, tells]
      simp only [List.mem_cons, exists_eq_or_imp, named]
      constructor
      · rintro (⟨types, rfl, owns, leads⟩ | ⟨name, types, rfl, owns, leads⟩)
        · exact ⟨function.name, types, rfl, .inl ⟨rfl, owns⟩, leads⟩
        · exact ⟨name, types, rfl, .inr owns, leads⟩
      · rintro ⟨name, types, rfl, ⟨rfl, owns⟩ | owns, leads⟩
        · exact .inl ⟨types, rfl, owns, leads⟩
        · exact .inr ⟨name, types, rfl, owns, leads⟩

theorem duplicatesAmong_spec (knows : unit.KnowsFunctions) {others : List Shader}
    (each : ∀ other ∈ others, other.KnowsFunctions) :
    ∃ found, duplicatesAmong unit others = .ok found ∧ ∀ error, error ∈ found ↔
      ∃ other ∈ others, ∃ name types, error = .multiplyDefined name ∧ unit.Owns name types ∧
        other.LeadsWith name types := by
  induction others with
  | nil => exact ⟨[], rfl, by simp⟩
  | cons other others ih =>
      obtain ⟨later, runs, tells⟩ := ih fun one listed => each one (List.mem_cons_of_mem _ listed)
      obtain ⟨here, runs_here, tells_here⟩ :=
        duplicates_spec knows (each other (List.mem_cons_self ..)) fun _ listed => listed
      refine ⟨here ++ later, ?_, fun error => ?_⟩
      · rw [duplicatesAmong, runs_here, Checked.ok_bind, runs]
        rfl
      · rw [List.mem_append, tells_here, tells, List.exists_mem_cons_iff]
        rfl

/-- A definition is a duplicate if a later unit leads with one of the same name and types. -/
theorem allDuplicates_spec (each : ∀ unit ∈ units, unit.KnowsFunctions) :
    ∃ found, allDuplicates units = .ok found ∧ ∀ error, error ∈ found ↔
      ∃ one other, [one, other].Sublist units ∧ ∃ name types, error = .multiplyDefined name ∧
        one.Owns name types ∧ other.LeadsWith name types := by
  induction units with
  | nil => exact ⟨[], rfl, by simp⟩
  | cons unit units ih =>
      have each_later := fun one listed => each one (List.mem_cons_of_mem _ listed)
      obtain ⟨later, runs, tells⟩ := ih each_later
      obtain ⟨here, runs_here, tells_here⟩ :=
        duplicatesAmong_spec (each unit (List.mem_cons_self ..)) each_later
      refine ⟨here ++ later, ?_, fun error => ?_⟩
      · rw [allDuplicates, runs_here, Checked.ok_bind, runs]
        rfl
      · rw [List.mem_append, tells_here, tells]
        constructor
        · rintro (⟨other, listed, repeats⟩ | ⟨one, other, sublist, repeats⟩)
          · exact ⟨unit, other, List.Sublist.cons_cons unit (List.singleton_sublist.mpr listed),
              repeats⟩
          · exact ⟨one, other, sublist.cons unit, repeats⟩
        · rintro ⟨one, other, sublist, repeats⟩
          cases sublist with
          | cons _ rest => exact .inr ⟨one, other, rest, repeats⟩
          | cons_cons _ rest => exact .inl ⟨other, List.singleton_sublist.mp rest, repeats⟩

/-! ## The check -/

/-- Two units at different places of the list define signatures of the same name and parameter
types. -/
def Repeated (units : List Shader) : Prop :=
  ∃ (first second : Nat) (one other : Shader), first ≠ second ∧ units[first]? = some one ∧
    units[second]? = some other ∧ ∃ name types, one.Owns name types ∧ other.Owns name types

theorem repeated_iff : Repeated units ↔ ∃ one other, [one, other].Sublist units ∧
    ∃ name types, one.Owns name types ∧ other.Owns name types := by
  constructor
  · rintro ⟨first, second, one, other, differ, there, there_too, name, types, owns, owns_too⟩
    rcases Nat.lt_or_gt_of_ne differ with before | after
    · exact ⟨one, other, pair_sublist_iff.mpr ⟨first, second, before, there, there_too⟩,
        name, types, owns, owns_too⟩
    · exact ⟨other, one, pair_sublist_iff.mpr ⟨second, first, after, there_too, there⟩,
        name, types, owns_too, owns⟩
  · rintro ⟨one, other, sublist, shared⟩
    obtain ⟨first, second, before, there, there_too⟩ := pair_sublist_iff.mp sublist
    exact ⟨first, second, one, other, Nat.ne_of_lt before, there, there_too, shared⟩

/-- The check for multiple definitions rejects exactly the lists of units of which a later one leads
with a definition that an earlier one has as well. -/
theorem check_eq (each : ∀ unit ∈ units, unit.KnowsFunctions) : ∃ errors,
    check units = Judged.rejectAll errors ∧ (errors ≠ [] ↔ ∃ one other, [one, other].Sublist units ∧
      ∃ name types, one.Owns name types ∧ other.LeadsWith name types) := by
  obtain ⟨errors, runs, tells⟩ := allDuplicates_spec each
  refine ⟨errors, ?_, ?_⟩
  · rw [check, Judged.bind_of_grants (Judged.grants_monadLift.mpr runs)]
  · constructor
    · intro some_error
      obtain ⟨error, listed⟩ := List.exists_mem_of_ne_nil errors some_error
      obtain ⟨one, other, sublist, name, types, -, repeats⟩ := (tells error).mp listed
      exact ⟨one, other, sublist, name, types, repeats⟩
    · rintro ⟨one, other, sublist, name, types, repeats⟩
      exact List.ne_nil_of_mem ((tells _).mpr ⟨one, other, sublist, name, types, rfl, repeats⟩)

/-- Where no later unit hides its definitions behind announcements or signatures of the built-in
library, every multiple definition is caught, and nothing else is rejected. -/
theorem check_catches (each : ∀ unit ∈ units, unit.KnowsFunctions)
    (lead : ∀ unit ∈ units.tail, unit.OwnLead) :
    ((∃ errors, (check units).Rejects errors) ↔ Repeated units) ∧
      ((check units).Grants () ↔ ¬ Repeated units) := by
  obtain ⟨errors, same, some_error⟩ := check_eq each
  have repeated : errors ≠ [] ↔ Repeated units := by
    rw [some_error, repeated_iff]
    constructor
    · rintro ⟨one, other, sublist, name, types, owns, leads⟩
      exact ⟨one, other, sublist, name, types, owns, owns_of_leadsWith leads⟩
    · rintro ⟨one, other, sublist, name, types, owns, owns_too⟩
      have later : other ∈ units.tail := List.singleton_sublist.mp sublist.tail
      exact ⟨one, other, sublist, name, types, owns, (lead other later).leadsWith owns_too⟩
  rw [same, Judged.grants_rejectAll, ← repeated, not_not, Judged.exists_rejects_rejectAll]
  exact ⟨Iff.rfl, Iff.rfl⟩

/-! ## Hidden definitions -/

/-- A unit with a function of some signatures without parameters. -/
def offering (signatures : List Signature) : Shader :=
  ({ stage := .vertex
     version := 150
     functions := ⟨[{ name := "foo", signatures := signatures }]⟩
     topLevel := [.function 0] } : Shader).populateSymbols

/-- A unit that defines the function. -/
def defining : Shader := offering [.define .void [] []]

/-- A unit that announces the function before it defines it. -/
def announcing : Shader := offering [.announce .void [], .define .void [] []]

theorem knowsFunctions_offering {signatures : List Signature}
    (no_parameters : ∀ signature ∈ signatures, signature.parameters = []) :
    (offering signatures).KnowsFunctions where
  functions id is_declared := by
    obtain rfl : id = 0 := List.mem_singleton.mp is_declared
    exact Nat.one_pos
  parameters id is_declared signature listed parameter inside := by
    obtain rfl : id = 0 := List.mem_singleton.mp is_declared
    rw [no_parameters signature listed] at inside
    cases inside
  populated := populated_populateSymbols _
  apart one is_declared other is_declared_too _ :=
    (List.mem_singleton.mp is_declared).trans (List.mem_singleton.mp is_declared_too).symm

theorem owns_offering {signatures : List Signature} (defined : .define .void [] [] ∈ signatures) :
    (offering signatures).Owns "foo" [] :=
  ⟨0, List.mem_singleton.mpr rfl, rfl, _, defined, rfl, rfl⟩

/-- Of two definitions the later one is hidden by an announcement, so that they are not caught. -/
theorem hidden_definition_is_granted : (∀ unit ∈ [defining, announcing], unit.KnowsFunctions) ∧
    Repeated [defining, announcing] ∧ (check [defining, announcing]).Grants () := by
  refine ⟨?_, ⟨0, 1, defining, announcing, Nat.zero_ne_one, rfl, rfl, "foo", [], ?_, ?_⟩, rfl⟩
  · intro unit listed
    rcases List.mem_pair.mp listed with rfl | rfl
    · exact knowsFunctions_offering (by simp [Signature.define])
    · exact knowsFunctions_offering (by simp [Signature.define, Signature.announce])
  · exact owns_offering (by simp)
  · exact owns_offering (by simp)

/-- In the other order they are caught. -/
theorem leading_definition_is_caught : (∀ unit ∈ [announcing, defining], unit.KnowsFunctions) ∧
    (∀ unit ∈ [announcing, defining].tail, unit.OwnLead) ∧
    ∃ errors, (check [announcing, defining]).Rejects errors := by
  have knows : ∀ unit ∈ [announcing, defining], unit.KnowsFunctions := by
    intro unit listed
    rcases List.mem_pair.mp listed with rfl | rfl
    · exact knowsFunctions_offering (by simp [Signature.define, Signature.announce])
    · exact knowsFunctions_offering (by simp [Signature.define])
  have lead : ∀ unit ∈ [announcing, defining].tail, unit.OwnLead := by
    intro unit listed id is_declared signature there own types typed
    obtain rfl := List.mem_singleton.mp listed
    obtain rfl : id = 0 := List.mem_singleton.mp is_declared
    obtain rfl := List.mem_singleton.mp there
    obtain rfl : [] = types := Except.ok.inj typed
    rfl
  refine ⟨knows, lead, (check_catches knows lead).1.mpr ?_⟩
  refine ⟨0, 1, announcing, defining, Nat.zero_ne_one, rfl, rfl, "foo", [], ?_, ?_⟩
  · exact owns_offering (by simp)
  · exact owns_offering (by simp)

end Definition
end StageLink
