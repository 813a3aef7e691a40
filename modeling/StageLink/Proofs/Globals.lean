import StageLink.Declaration.Agreement
import StageLink.Proofs.Runs
import StageLink.Slot.Varying
import Mathlib.Data.List.Nodup
import Mathlib.Data.List.Sublists

/-!
# Globals

Most phases of a link look at the variables that a shader declares at its top level and at nothing
else.  A tidy shader has only declarations at its top level, with handles that point somewhere, and
no two variables of one name, so that a phase that goes through the globals treats each of them once
and a name stands for one of them.
-/

namespace StageLink

namespace Arena

variable {Entry : Type}

theorem get?_eq_none_iff (arena : Arena Entry) (position : Nat) :
    arena.get? position = none ↔ arena.size ≤ position := by
  simp [get?, size]

theorem lt_of_get? {arena : Arena Entry} {position : Nat} {entry : Entry}
    (found : arena.get? position = some entry) : position < arena.size := by
  rw [← isSome_get?_iff, found]
  rfl

theorem exists_get? {arena : Arena Entry} {position : Nat} (inside : position < arena.size) :
    ∃ entry, arena.get? position = some entry :=
  Option.isSome_iff_exists.mp ((isSome_get?_iff arena position).mpr inside)

theorem mem_of_get? {arena : Arena Entry} {position : Nat} {entry : Entry}
    (found : arena.get? position = some entry) : entry ∈ arena.entries :=
  List.mem_of_getElem? found

theorem exists_get?_of_mem {arena : Arena Entry} {entry : Entry} (listed : entry ∈ arena.entries) :
    ∃ position, arena.get? position = some entry :=
  List.mem_iff_getElem?.mp listed

end Arena

/-- Only declarations stand in the list. -/
def Block.Flat (block : Block) : Prop := ∀ instruction ∈ block, instruction.isDeclaration = true

@[elab_as_elim]
theorem Block.Flat.induction {motive : (block : Block) → block.Flat → Prop}
    (nil : ∀ flat, motive [] flat)
    (declare : ∀ id rest (rest_flat : Block.Flat rest) flat,
      motive rest rest_flat → motive (.declare id :: rest) flat)
    (function : ∀ id rest (rest_flat : Block.Flat rest) flat,
      motive rest rest_flat → motive (.function id :: rest) flat)
    {block : Block} (flat : block.Flat) : motive block flat := by
  induction block with
  | nil => exact nil flat
  | cons instruction rest ih =>
      have rest_flat : Block.Flat rest :=
        fun other listed => flat other (List.mem_cons_of_mem _ listed)
      have declares := flat instruction (List.mem_cons_self ..)
      cases instruction with
      | declare id => exact declare id rest rest_flat flat (ih rest_flat)
      | function id => exact function id rest rest_flat flat (ih rest_flat)
      | _ => cases declares

namespace Shader

theorem fetchVariable_eq_ok {shader : Shader} {id : VariableId} {declared : Variable} :
    shader.fetchVariable id = .ok declared ↔ shader.vars.get? id = some declared := by
  cases found : shader.vars.get? id <;> simp [fetchVariable, found]

/-- The variables declared at the top level, in order. -/
def declaredVariables (shader : Shader) : List Variable :=
  shader.globals.filterMap shader.vars.get?

def generics (mode : VariableMode) (shader : Shader) : List Variable :=
  shader.declaredVariables.filter (Varying.isGeneric mode)

/-- What a boundary sees of the executable behind or before it: the declared variables of a mode
that are not built in, of which there are none without an executable. -/
def side (mode : VariableMode) (executable : Option Shader) : List Variable :=
  executable.toList.flatMap (generics mode)

theorem mem_side {mode : VariableMode} {executable : Option Shader} {declared : Variable} :
    declared ∈ side mode executable ↔
      ∃ shader, executable = some shader ∧ declared ∈ shader.generics mode := by
  simp [side]

theorem side_some (mode : VariableMode) (shader : Shader) :
    side mode (some shader) = shader.generics mode := by
  simp [side]

/-- Only declarations stand at the top level, their handles point to variables, and no two of these
have the same name. -/
structure Tidy (shader : Shader) : Prop where
  flat : shader.topLevel.Flat
  bound : ∀ id ∈ shader.globals, id < shader.vars.size
  distinct : (shader.declaredVariables.map (·.name)).Nodup

theorem mem_declaredVariables {shader : Shader} {declared : Variable} :
    declared ∈ shader.declaredVariables ↔
      ∃ id ∈ shader.globals, shader.vars.get? id = some declared :=
  List.mem_filterMap

theorem mem_generics {shader : Shader} {mode : VariableMode} {declared : Variable} :
    declared ∈ shader.generics mode ↔
      declared ∈ shader.declaredVariables ∧ declared.mode = mode ∧
        declared.isBuiltin = false := by
  simp [generics, Varying.isGeneric]

theorem mem_globals {shader : Shader} {id : VariableId} :
    id ∈ shader.globals ↔ Instruction.declare id ∈ shader.topLevel := by
  simp only [globals, List.mem_filterMap]
  constructor
  · rintro ⟨instruction, listed, chosen⟩
    cases instruction <;> simp_all
  · intro listed
    exact ⟨.declare id, listed, rfl⟩

/-! ## Names stand for one global -/

private theorem nodup_of_nodup_filterMap {Item Part Key : Type} {choose : Item → Option Part}
    {key : Part → Key} {items : List Item} (total : ∀ item ∈ items, (choose item).isSome)
    (distinct : ((items.filterMap choose).map key).Nodup) :
    (items.map fun item => (choose item).map key).Nodup := by
  have chosen : items.map (fun item => (choose item).map key)
      = ((items.filterMap choose).map key).map some := by
    clear distinct
    induction items with
    | nil => rfl
    | cons item items ih =>
        obtain ⟨part, found⟩ := Option.isSome_iff_exists.mp (total item (List.mem_cons_self ..))
        simp only [List.map_cons, found, List.filterMap_cons_some found, Option.map_some]
        rw [ih fun other listed => total other (List.mem_cons_of_mem item listed)]
  rw [chosen]
  exact distinct.map fun _ _ => Option.some.inj

namespace Tidy

variable {shader : Shader}

theorem nodup_names (tidy : shader.Tidy) :
    (shader.globals.map fun id => (shader.vars.get? id).map (·.name)).Nodup :=
  nodup_of_nodup_filterMap
    (fun id listed => (Arena.isSome_get?_iff shader.vars id).mpr (tidy.bound id listed))
    tidy.distinct

theorem nodup_globals (tidy : shader.Tidy) : shader.globals.Nodup :=
  List.Nodup.of_map _ tidy.nodup_names

/-- Two globals of one name are the same. -/
theorem eq_of_name (tidy : shader.Tidy) {first second : VariableId} {one other : Variable}
    (first_global : first ∈ shader.globals) (second_global : second ∈ shader.globals)
    (first_found : shader.vars.get? first = some one)
    (second_found : shader.vars.get? second = some other) (same : one.name = other.name) :
    first = second :=
  List.inj_on_of_nodup_map tidy.nodup_names first_global second_global
    (by simp [first_found, second_found, same])

theorem declared_eq_of_name (tidy : shader.Tidy) {one other : Variable}
    (one_declared : one ∈ shader.declaredVariables)
    (other_declared : other ∈ shader.declaredVariables) (same : one.name = other.name) :
    one = other :=
  List.inj_on_of_nodup_map tidy.distinct one_declared other_declared same

end Tidy

/-! ## Revisions -/

/-- The second shader differs from the first only in its variables, each of which is related to the
one in its place. -/
structure Revised (relation : Variable → Variable → Prop) (before after : Shader) : Prop where
  same : after = { before with vars := after.vars }
  size : after.vars.size = before.vars.size
  related : ∀ {id : VariableId} {declared : Variable}, before.vars.get? id = some declared →
    ∃ revised, after.vars.get? id = some revised ∧ relation declared revised

namespace Revised

variable {relation : Variable → Variable → Prop} {first second third : Shader}

theorem refl (reflexive : ∀ declared, relation declared declared) (shader : Shader) :
    Revised relation shader shader :=
  ⟨rfl, rfl, fun found => ⟨_, found, reflexive _⟩⟩

theorem trans (transitive : ∀ one other last, relation one other → relation other last →
      relation one last) (before : Revised relation first second)
    (after : Revised relation second third) : Revised relation first third := by
  refine ⟨?_, after.size.trans before.size, ?_⟩
  · rw [after.same, before.same]
  · intro id declared found
    obtain ⟨halfway, found_halfway, related_halfway⟩ := before.related found
    obtain ⟨revised, found_revised, related⟩ := after.related found_halfway
    exact ⟨revised, found_revised, transitive _ _ _ related_halfway related⟩

/-- What every change keeps related stays related after all of them. -/
theorem foldl {Item : Type} (reflexive : ∀ declared, relation declared declared)
    (transitive : ∀ one other last, relation one other → relation other last →
      relation one last) {change : Shader → Item → Shader}
    (step : ∀ shader item, Revised relation shader (change shader item)) (items : List Item)
    (shader : Shader) : Revised relation shader (items.foldl change shader) := by
  induction items generalizing shader with
  | nil => exact .refl reflexive shader
  | cons item items ih => exact (step shader item).trans transitive (ih _)

theorem globals (revised : Revised relation first second) : second.globals = first.globals := by
  rw [revised.same]
  rfl

/-- A variable of the revised shader has come from one that it is related to. -/
theorem origin (revised : Revised relation first second) {id : VariableId} {found : Variable}
    (now : second.vars.get? id = some found) :
    ∃ declared, first.vars.get? id = some declared ∧ relation declared found := by
  have inside : id < first.vars.size := revised.size ▸ Arena.lt_of_get? now
  obtain ⟨declared, was⟩ := Arena.exists_get? inside
  obtain ⟨later, found_later, related⟩ := revised.related was
  rw [now] at found_later
  obtain rfl : found = later := Option.some.inj found_later
  exact ⟨declared, was, related⟩

theorem imp {weaker : Variable → Variable → Prop}
    (implies : ∀ one other, relation one other → weaker one other)
    (revised : Revised relation first second) : Revised weaker first second := by
  refine ⟨revised.same, revised.size, fun found => ?_⟩
  obtain ⟨later, now, related⟩ := revised.related found
  exact ⟨later, now, implies _ _ related⟩

/-- If the relation keeps something about variables, then the declared variables agree on it. -/
theorem declared_map {Key : Type} {key : Variable → Key}
    (keeps : ∀ one other, relation one other → key other = key one)
    (revised : Revised relation first second) :
    second.declaredVariables.map key = first.declaredVariables.map key := by
  simp only [declaredVariables, revised.globals, List.map_filterMap]
  refine List.filterMap_congr fun id _ => ?_
  cases was : first.vars.get? id with
  | none =>
      have outside : second.vars.get? id = none := by
        rw [Arena.get?_eq_none_iff, revised.size]
        exact (Arena.get?_eq_none_iff _ _).mp was
      rw [outside]
  | some declared =>
      obtain ⟨later, now, related⟩ := revised.related was
      simp [now, keeps _ _ related]

theorem tidy (keeps_names : ∀ one other, relation one other → other.name = one.name)
    (revised : Revised relation first second) (first_tidy : first.Tidy) : second.Tidy := by
  refine ⟨?_, ?_, ?_⟩
  · rw [revised.same]
    exact first_tidy.flat
  · rw [revised.globals, revised.size]
    exact first_tidy.bound
  · rw [revised.declared_map keeps_names]
    exact first_tidy.distinct

/-- The declared variables are those that were declared before, revised. -/
theorem mem_declared (revised : Revised relation first second) {found : Variable}
    (declared_now : found ∈ second.declaredVariables) :
    ∃ declared ∈ first.declaredVariables, relation declared found := by
  obtain ⟨id, global, now⟩ := mem_declaredVariables.mp declared_now
  obtain ⟨declared, was, related⟩ := revised.origin now
  exact ⟨declared, mem_declaredVariables.mpr ⟨id, revised.globals ▸ global, was⟩, related⟩

end Revised

theorem revised_modifyVariable {relation : Variable → Variable → Prop} {shader : Shader}
    {id : VariableId} {change : Variable → Variable}
    (reflexive : ∀ declared, relation declared declared)
    (changes : ∀ declared, shader.vars.get? id = some declared →
      relation declared (change declared)) :
    Revised relation shader (shader.modifyVariable id change) := by
  refine ⟨rfl, by simp [modifyVariable], ?_⟩
  intro position declared found
  simp only [modifyVariable, Arena.get?_modify, found, Option.map_some, Option.some.injEq,
    exists_eq_left']
  split
  · next same => exact changes declared (same ▸ found)
  · exact reflexive declared

/-! ## Changing variables -/

/-- A shader with the same globals, each of which has changed in one way, declares the variables
changed in that way. -/
theorem declaredVariables_of_changed {before after : Shader} {change : Variable → Variable}
    (same : after.globals = before.globals)
    (bound : ∀ id ∈ before.globals, id < before.vars.size)
    (changed : ∀ id ∈ before.globals, ∀ declared, before.vars.get? id = some declared →
      after.vars.get? id = some (change declared)) :
    after.declaredVariables = before.declaredVariables.map change := by
  simp only [declaredVariables, same, List.map_filterMap]
  refine List.filterMap_congr fun id global => ?_
  obtain ⟨declared, found⟩ := Arena.exists_get? (bound id global)
  rw [found, changed id global declared found]
  rfl

/-- Changing variables one after the other changes each as often as it is listed. -/
theorem modifyVariables_eq_ok {change : Variable → Variable} {ids : List VariableId} :
    ∀ {shader result : Shader}, shader.modifyVariables change ids = .ok result →
      result = { shader with vars := result.vars } ∧ result.vars.size = shader.vars.size ∧
        (∀ id ∈ ids, id < shader.vars.size) ∧
        ∀ position, result.vars.get? position =
          (shader.vars.get? position).map change^[ids.count position] := by
  induction ids with
  | nil =>
      intro shader result runs
      obtain rfl : shader = result := by simpa [modifyVariables] using runs
      simp
  | cons id ids ih =>
      intro shader result runs
      rw [modifyVariables] at runs
      obtain ⟨declared, fetched, following⟩ := Checked.bind_eq_ok.mp runs
      have inside := Arena.lt_of_get? (fetchVariable_eq_ok.mp fetched)
      obtain ⟨same, size, bound, changed⟩ := ih following
      rw [modifyVariable, Arena.size_modify] at size
      refine ⟨same, size, ?_, fun position => ?_⟩
      · intro other listed
        rcases List.mem_cons.mp listed with rfl | later
        · exact inside
        · simpa [modifyVariable] using bound other later
      · rw [changed, modifyVariable, Arena.get?_modify, Option.map_map, List.count_cons]
        congr 1
        funext entry
        by_cases here : id = position
        · simp [here]
        · simp [here]

theorem revised_modifyVariables {relation : Variable → Variable → Prop}
    {change : Variable → Variable} {ids : List VariableId} {shader result : Shader}
    (reflexive : ∀ declared, relation declared declared)
    (transitive : ∀ one other last, relation one other → relation other last →
      relation one last)
    (changes : ∀ declared, relation declared (change declared))
    (runs : shader.modifyVariables change ids = .ok result) : Revised relation shader result := by
  obtain ⟨same, size, -, changed⟩ := modifyVariables_eq_ok runs
  refine ⟨same, size, fun {id declared} found => ⟨_, by rw [changed, found]; rfl, ?_⟩⟩
  generalize ids.count id = count
  induction count with
  | zero => exact reflexive declared
  | succ count ih =>
      rw [Function.iterate_succ_apply']
      exact transitive _ _ _ ih (changes _)

/-- Changing variables changes nothing else. -/
theorem modifyVariables_revises {change : Variable → Variable} {ids : List VariableId}
    {shader result : Shader} (runs : shader.modifyVariables change ids = .ok result) :
    Revised (fun _ _ => True) shader result :=
  revised_modifyVariables (fun _ => trivial) (fun _ _ _ _ _ => trivial) (fun _ => trivial) runs

theorem declaredVariables_modifyGlobals {change : Variable → Variable} {shader result : Shader}
    (tidy : shader.Tidy) (runs : shader.modifyGlobals change = .ok result) :
    result.declaredVariables = shader.declaredVariables.map change := by
  obtain ⟨same, -, -, changed⟩ := modifyVariables_eq_ok runs
  refine declaredVariables_of_changed (by rw [same]; rfl) tidy.bound
    fun id global declared found => ?_
  rw [changed, found, List.count_eq_one_of_mem tidy.nodup_globals global]
  rfl

end Shader
end StageLink
