import StageLink.Proofs.Ledger
import StageLink.Proofs.Slots
import StageLink.Proofs.Storage

/-!
# Texture units

A sampler takes the texture unit that is bound to it, or the next one.  As long as a word can say
how many they are, the next units follow each other without a gap from the lowest one on, whatever
has been bound.  So samplers without a binding never meet each other, and meet those with a binding
unless every binding lies beyond all of the next units.
-/

namespace StageLink

/-! ## Running totals -/

/-- What comes before a later number includes an earlier one. -/
theorem total_take_le {numbers : List Nat} {number : Nat} :
    ∀ {position later : Nat}, position < later → numbers[position]? = some number →
      total (numbers.take position) + number ≤ total (numbers.take later) := by
  induction numbers with
  | nil =>
      intro position later _ there
      simp at there
  | cons first rest ih =>
      intro position later before there
      obtain ⟨later, rfl⟩ :=
        Nat.exists_eq_add_one_of_ne_zero (Nat.ne_of_gt (Nat.zero_lt_of_lt before))
      cases position with
      | zero =>
          obtain rfl : first = number := by simpa using there
          simp
      | succ position =>
          have rest_le := ih (Nat.lt_of_succ_lt_succ before) (by simpa using there)
          simp only [List.take_succ_cons, total_cons]
          omega

theorem exists_of_lt_total {numbers : List Nat} :
    ∀ {unit : Nat}, unit < total numbers → ∃ (position number : Nat),
      numbers[position]? = some number ∧ total (numbers.take position) ≤ unit ∧
        unit < total (numbers.take position) + number := by
  induction numbers with
  | nil =>
      intro unit below
      simp at below
  | cons first rest ih =>
      intro unit below
      by_cases here : unit < first
      · exact ⟨0, first, rfl, by simp, by simpa using here⟩
      · have below_rest : unit - first < total rest := by
          rw [total_cons] at below
          omega
        obtain ⟨position, number, there, above, inside⟩ := ih below_rest
        refine ⟨position + 1, number, there, ?_, ?_⟩ <;>
          · simp only [List.take_succ_cons, total_cons]
            omega

namespace Uniform

namespace Leaf

def takesUnits (leaf : Leaf) : Bool := leaf.block.isNone && leaf.ty.containsSampler

def unit? (next : Nat) (leaf : Leaf) : Option Nat :=
  if leaf.takesUnits then some (leaf.binding.getD next) else none

def nextUnits (leaf : Leaf) : Nat :=
  if leaf.takesUnits && leaf.binding.isNone then leaf.ty.samplerCount else 0

end Leaf

/-! ## First leaves -/

def firstLeaves : List Leaf → List Leaf
  | [] => []
  | leaf :: leaves => leaf :: (firstLeaves leaves).filter (·.name ≠ leaf.name)

theorem exists_firstLeaves_iff {leaves : List Leaf} {name : String} :
    (∃ leaf ∈ firstLeaves leaves, leaf.name = name) ↔ ∃ leaf ∈ leaves, leaf.name = name := by
  induction leaves with
  | nil => rfl
  | cons first leaves ih =>
      by_cases here : first.name = name
      · exact iff_of_true ⟨first, List.mem_cons_self .., here⟩ ⟨first, List.mem_cons_self .., here⟩
      · simp only [firstLeaves, List.mem_cons, exists_eq_or_imp, here, false_or, ← ih,
          List.mem_filter]
        refine exists_congr fun leaf => ?_
        constructor
        · rintro ⟨⟨listed, -⟩, same⟩
          exact ⟨listed, same⟩
        · rintro ⟨listed, rfl⟩
          exact ⟨⟨listed, by simpa using Ne.symm here⟩, rfl⟩

theorem nodup_firstLeaves (leaves : List Leaf) : ((firstLeaves leaves).map (·.name)).Nodup := by
  induction leaves with
  | nil => exact List.nodup_nil
  | cons first leaves ih =>
      rw [firstLeaves, List.map_cons, List.nodup_cons]
      refine ⟨fun listed => ?_, ih.sublist (List.filter_sublist.map _)⟩
      obtain ⟨other, kept, same⟩ := List.mem_map.mp listed
      simpa [same] using (List.mem_filter.mp kept).2

/-- Another leaf is a first one unless its name has come up. -/
theorem firstLeaves_concat (leaves : List Leaf) (leaf : Leaf) :
    firstLeaves (leaves ++ [leaf]) =
      if ∃ other ∈ leaves, other.name = leaf.name then firstLeaves leaves
      else firstLeaves leaves ++ [leaf] := by
  induction leaves with
  | nil => simp [firstLeaves]
  | cons first leaves ih =>
      rw [List.cons_append, firstLeaves, ih, firstLeaves]
      by_cases later : ∃ other ∈ leaves, other.name = leaf.name
      · simp [later]
      · by_cases here : first.name = leaf.name
        · simp [later, here]
        · simp [later, here, Ne.symm here]

/-! ## Numbering -/

/-- An entry stands for a leaf for which some unit has been the next one. -/
structure Stands (next : Nat) (leaf : Leaf) (entry : UniformEntry) : Prop where
  name : entry.name = leaf.name
  ty : entry.ty = leaf.ty
  unit : entry.samplerUnit = leaf.unit? (wrap next)

/-- Entries stand for leaves one by one, the next unit being counted from one on. -/
inductive Numbered : Nat → List Leaf → List UniformEntry → Prop
  | nil (next : Nat) : Numbered next [] []
  | cons {next : Nat} {leaf : Leaf} {entry : UniformEntry} {leaves : List Leaf}
      {entries : List UniformEntry} (stands : Stands next leaf entry)
      (rest : Numbered (next + leaf.nextUnits) leaves entries) :
      Numbered next (leaf :: leaves) (entry :: entries)

namespace Numbered

variable {next : Nat} {leaves : List Leaf} {entries : List UniformEntry} {leaf : Leaf}
  {entry : UniformEntry}

theorem concat (numbered : Numbered next leaves entries)
    (stands : Stands (next + total (leaves.map Leaf.nextUnits)) leaf entry) :
    Numbered next (leaves ++ [leaf]) (entries ++ [entry]) := by
  induction numbered with
  | nil next => exact .cons stands (.nil _)
  | cons here _ ih =>
      refine .cons here (ih ?_)
      rwa [List.map_cons, total_cons, ← Nat.add_assoc] at stands

theorem markStage (numbered : Numbered next leaves entries) (stage : Stage) (name : String) :
    Numbered next leaves (markStage stage name entries) := by
  induction numbered with
  | nil next => exact .nil next
  | cons here rest ih =>
      rw [Uniform.markStage]
      split
      · exact .cons ⟨here.name, here.ty, here.unit⟩ rest
      · exact .cons here ih

theorem names (numbered : Numbered next leaves entries) :
    entries.map (·.name) = leaves.map (·.name) := by
  induction numbered with
  | nil _ => rfl
  | cons here _ ih => rw [List.map_cons, List.map_cons, here.name, ih]

/-- Before an entry only the leaves before its own have taken next units. -/
theorem stands (numbered : Numbered next leaves entries) :
    ∀ {position : Nat} {leaf : Leaf}, leaves[position]? = some leaf →
      ∃ entry, entries[position]? = some entry ∧
        Stands (next + total ((leaves.map Leaf.nextUnits).take position)) leaf entry := by
  induction numbered with
  | nil _ =>
      intro position leaf there
      simp at there
  | cons here _ ih =>
      intro position leaf there
      cases position with
      | zero =>
          obtain rfl := Option.some.inj there
          exact ⟨_, rfl, here⟩
      | succ position =>
          obtain ⟨entry, found, stands⟩ := ih there
          refine ⟨entry, found, ?_⟩
          rwa [List.map_cons, List.take_succ_cons, total_cons, ← Nat.add_assoc]

end Numbered

/-- Some leaves have been entered, and the next unit is counted. -/
structure Numbers (leaves : List Leaf) (table : Table) : Prop where
  numbered : Numbered 0 (firstLeaves leaves) table.entries
  next : table.nextUnit = wrap (total ((firstLeaves leaves).map Leaf.nextUnits))

namespace Numbers

variable {leaves : List Leaf} {table : Table}

theorem nothing : Numbers [] {} := ⟨.nil 0, rfl⟩

/-- Whether a name has an entry is whether a leaf of the name has been entered. -/
theorem listed_iff (numbers : Numbers leaves table) (name : String) :
    table.entries.any (·.name = name) = true ↔ ∃ leaf ∈ leaves, leaf.name = name := by
  have named : ∀ entries : List UniformEntry, entries.any (·.name = name) = true ↔
      name ∈ entries.map (·.name) := fun entries => by simp
  rw [named, numbers.numbered.names, ← exists_firstLeaves_iff]
  exact List.mem_map

theorem enterLeaf (numbers : Numbers leaves table) (stage : Stage) (leaf : Leaf) :
    Numbers (leaves ++ [leaf]) (enterLeaf stage table leaf) := by
  have added : Numbers (leaves ++ [leaf]) (addLeaf table leaf) := by
    unfold addLeaf
    split
    · next there =>
        have known := (numbers.listed_iff leaf.name).mp there
        constructor <;> rw [firstLeaves_concat, if_pos known]
        · exact numbers.numbered
        · exact numbers.next
    · next absent =>
        have unknown := (numbers.listed_iff leaf.name).not.mp absent
        split
        · next of_block =>
            have takes_none : leaf.takesUnits = false := by
              simp [Leaf.takesUnits, Option.isSome_iff_ne_none.mp of_block]
            constructor <;> rw [firstLeaves_concat, if_neg unknown]
            · exact numbers.numbered.concat ⟨rfl, rfl, by simp [Leaf.unit?, takes_none]⟩
            · simp [addBlockMember, numbers.next, Leaf.nextUnits, takes_none]
        · next of_none =>
            have no_block : leaf.block = none := by simpa using of_none
            have takes_eq : leaf.takesUnits = leaf.ty.containsSampler := by
              simp [Leaf.takesUnits, no_block]
            constructor <;> rw [firstLeaves_concat, if_neg unknown]
            · refine numbers.numbered.concat ⟨rfl, rfl, ?_⟩
              simp only [Leaf.unit?, takes_eq, Nat.zero_add, ← numbers.next]
            · simp only [addDefault, numbers.next, Leaf.nextUnits, takes_eq, List.map_append,
                List.map_cons, List.map_nil, total_append, total_cons, total_nil]
              split <;> simp
  exact ⟨added.numbered.markStage stage leaf.name, added.next⟩

theorem enterAll (pairs : List (Stage × Leaf)) :
    ∀ {leaves : List Leaf} {table : Table}, Numbers leaves table →
      Numbers (leaves ++ pairs.map (·.2))
        (pairs.foldl (fun table pair => Uniform.enterLeaf pair.1 table pair.2) table) := by
  induction pairs with
  | nil =>
      intro leaves table numbers
      simpa using numbers
  | cons pair pairs ih =>
      intro leaves table numbers
      have all := ih (numbers.enterLeaf pair.1 pair.2)
      rwa [List.append_assoc] at all

end Numbers

/-! ## Units in use -/

def listedLeaves (executables : PerStage (Option Shader)) : List Leaf :=
  firstLeaves ((stagedLeaves executables Stage.all).map (·.2))

def units? (entry : UniformEntry) : Option Span :=
  entry.samplerUnit.map fun unit => ⟨unit, entry.ty.samplerCount⟩

/-- The unit of an entry has been assigned automatically: the first leaf of its name takes units and
has no binding. -/
def IsAutomatic (executables : PerStage (Option Shader)) (entry : UniformEntry) : Prop :=
  ∃ leaf ∈ listedLeaves executables, leaf.name = entry.name ∧ leaf.takesUnits = true ∧
    leaf.binding = none

/-- Entries of two kinds have no unit in common, unless they are the same. -/
def UnitsApart (entries : List UniformEntry) (first second : UniformEntry → Prop) : Prop :=
  ∀ {one other : Nat} {entry another : UniformEntry} {span occupied : Span}, one ≠ other →
    entries[one]? = some entry → entries[other]? = some another → first entry → second another →
      units? entry = some span → units? another = some occupied → span.Apart occupied

/-- The number of units that are assigned automatically. -/
def automaticUnits (executables : PerStage (Option Shader)) : Nat :=
  total ((listedLeaves executables).map Leaf.nextUnits)

/-- Every sampler with a binding, if it has any units, is bound beyond the units that are assigned
automatically. -/
def BindingsBeyond (executables : PerStage (Option Shader)) : Prop :=
  ∀ leaf ∈ listedLeaves executables, leaf.takesUnits = true → 0 < leaf.ty.samplerCount →
    ∀ binding ∈ leaf.binding, automaticUnits executables ≤ binding

variable {executables : PerStage (Option Shader)} {entries : List UniformEntry}
  {usages : PerStage StageUsage} {position : Nat} {entry : UniformEntry} {leaf : Leaf}

theorem numbered_of_storage (runs : storage executables = .ok (entries, usages)) :
    Numbered 0 (listedLeaves executables) entries := by
  obtain ⟨rfl, -⟩ := storage_eq_entered runs
  exact (Numbers.nothing.enterAll (stagedLeaves executables Stage.all)).numbered

/-- The next unit when a listed leaf has its turn. -/
def nextUnitAt (executables : PerStage (Option Shader)) (position : Nat) : Nat :=
  total (((listedLeaves executables).map Leaf.nextUnits).take position)

theorem exists_entry (runs : storage executables = .ok (entries, usages))
    (found : (listedLeaves executables)[position]? = some leaf) :
    ∃ entry, entries[position]? = some entry ∧
      Stands (nextUnitAt executables position) leaf entry := by
  obtain ⟨entry, there, stands⟩ := (numbered_of_storage runs).stands found
  rw [Nat.zero_add] at stands
  exact ⟨entry, there, stands⟩

theorem exists_listedLeaf (runs : storage executables = .ok (entries, usages))
    (there : entries[position]? = some entry) :
    ∃ leaf, (listedLeaves executables)[position]? = some leaf ∧
      Stands (nextUnitAt executables position) leaf entry := by
  have lengths := congrArg List.length (numbered_of_storage runs).names
  rw [List.length_map, List.length_map] at lengths
  have found := List.getElem?_eq_getElem (lengths ▸ (List.getElem?_eq_some_iff.mp there).1)
  obtain ⟨same, also_there, stands⟩ := exists_entry runs found
  obtain rfl := Option.some.inj (there.symm.trans also_there)
  exact ⟨_, found, stands⟩

theorem automatic_units (few : automaticUnits executables < UInt32.size)
    (runs : storage executables = .ok (entries, usages))
    (there : entries[position]? = some entry) (automatic : IsAutomatic executables entry) :
    ∃ count, ((listedLeaves executables).map Leaf.nextUnits)[position]? = some count ∧
      units? entry = some ⟨nextUnitAt executables position, count⟩ := by
  obtain ⟨leaf, found, stands⟩ := exists_listedLeaf runs there
  obtain ⟨first, listed, same, takes, unbound⟩ := automatic
  obtain rfl : first = leaf :=
    List.inj_on_of_nodup_map (nodup_firstLeaves _) listed (List.mem_of_getElem? found)
      (same.trans stands.name)
  have counted : ((listedLeaves executables).map Leaf.nextUnits)[position]? =
      some first.ty.samplerCount := by
    simp [found, Leaf.nextUnits, takes, unbound]
  have ends := total_take_le (List.getElem?_eq_some_iff.mp counted).1 counted
  rw [List.take_length] at ends
  have next_few : nextUnitAt executables position < UInt32.size :=
    Nat.lt_of_le_of_lt (Nat.le_trans (Nat.le_add_right ..) ends) few
  refine ⟨first.ty.samplerCount, counted, ?_⟩
  rw [units?, stands.unit, stands.ty, wrap_of_lt next_few]
  simp [Leaf.unit?, takes, unbound]

theorem Stands.bound_units {next binding : Nat} (stands : Stands next leaf entry)
    (takes : leaf.takesUnits = true) (bound : leaf.binding = some binding) :
    units? entry = some ⟨binding, leaf.ty.samplerCount⟩ := by
  simp [units?, stands.unit, stands.ty, Leaf.unit?, takes, bound]

theorem automatic_or_bound (runs : storage executables = .ok (entries, usages))
    (there : entries[position]? = some entry) {span : Span} (has : units? entry = some span) :
    IsAutomatic executables entry ∨ ∃ leaf ∈ listedLeaves executables, leaf.takesUnits = true ∧
      ∃ binding ∈ leaf.binding, span = ⟨binding, leaf.ty.samplerCount⟩ := by
  obtain ⟨leaf, found, stands⟩ := exists_listedLeaf runs there
  have listed := List.mem_of_getElem? found
  obtain ⟨unit, taken, -⟩ := Option.map_eq_some_iff.mp has
  rw [stands.unit, Leaf.unit?, Option.ite_none_right_eq_some] at taken
  cases bound : leaf.binding with
  | none => exact .inl ⟨leaf, listed, stands.name.symm, taken.1, bound⟩
  | some binding =>
      have spans := stands.bound_units taken.1 bound
      exact .inr ⟨leaf, listed, taken.1, binding, bound, Option.some.inj (has.symm.trans spans)⟩

theorem automatic_apart (few : automaticUnits executables < UInt32.size)
    (runs : storage executables = .ok (entries, usages)) :
    UnitsApart entries (IsAutomatic executables) (IsAutomatic executables) := by
  intro one other entry another span occupied differ there there_too automatic
    automatic_too has has_too
  obtain ⟨count, counted, spans⟩ := automatic_units few runs there automatic
  obtain ⟨number, numbered, occupies⟩ := automatic_units few runs there_too automatic_too
  obtain rfl := Option.some.inj (spans.symm.trans has)
  obtain rfl := Option.some.inj (occupies.symm.trans has_too)
  rcases Nat.lt_or_gt_of_ne differ with before | after
  · exact Span.apart_of_le (total_take_le before counted)
  · exact (Span.apart_of_le (total_take_le after numbered)).symm

/-- Every unit below their number belongs to an automatic entry. -/
theorem exists_automatic (few : automaticUnits executables < UInt32.size)
    (runs : storage executables = .ok (entries, usages)) {unit : Nat}
    (below : unit < automaticUnits executables) :
    ∃ (position : Nat) (entry : UniformEntry) (span : Span),
      entries[position]? = some entry ∧ IsAutomatic executables entry ∧ units? entry = some span ∧
        span.Covers unit := by
  obtain ⟨position, count, counted, above, inside⟩ := exists_of_lt_total below
  rw [List.getElem?_map, Option.map_eq_some_iff] at counted
  obtain ⟨leaf, found, rfl⟩ := counted
  obtain ⟨entry, there, stands⟩ := exists_entry runs found
  obtain ⟨takes, unbound⟩ : leaf.takesUnits = true ∧ leaf.binding = none := by
    by_contra takes_none
    have none_taken : leaf.nextUnits = 0 := by
      rw [Leaf.nextUnits, if_neg (by simpa using takes_none)]
    omega
  have automatic : IsAutomatic executables entry :=
    ⟨leaf, List.mem_of_getElem? found, stands.name.symm, takes, unbound⟩
  obtain ⟨count, counted, spans⟩ := automatic_units few runs there automatic
  rw [List.getElem?_map, found, Option.map_some, Option.some.injEq] at counted
  exact ⟨position, entry, _, there, automatic, spans, above, counted ▸ inside⟩

/-- Automatic entries have no unit in common with each other, and none with any other entry exactly
if all bindings lie beyond the automatic units, the number of which must be a word. -/
theorem storage_units_apart_iff (few : automaticUnits executables < UInt32.size)
    (runs : storage executables = .ok (entries, usages)) :
    UnitsApart entries (IsAutomatic executables) (IsAutomatic executables) ∧
      (UnitsApart entries (IsAutomatic executables) (fun _ => True) ↔
        BindingsBeyond executables) := by
  refine ⟨automatic_apart few runs, fun apart leaf listed takes has_units binding bound => ?_,
    fun beyond => ?_⟩
  · by_contra below
    obtain ⟨position, found⟩ := List.mem_iff_getElem?.mp listed
    obtain ⟨another, there_too, stands⟩ := exists_entry runs found
    obtain ⟨taker, entry, span, there, automatic, has, covers⟩ :=
      exists_automatic few runs (Nat.lt_of_not_le below)
    have differ : taker ≠ position := by
      rintro rfl
      obtain rfl := Option.some.inj (there.symm.trans there_too)
      obtain ⟨first, first_listed, same, -, unbound⟩ := automatic
      obtain rfl : first = leaf :=
        List.inj_on_of_nodup_map (nodup_firstLeaves _) first_listed listed
        (same.trans stands.name)
      rw [unbound] at bound
      cases bound
    exact apart differ there there_too automatic trivial has
      (stands.bound_units takes bound) binding
      covers ⟨Nat.le_refl binding, Nat.lt_add_of_pos_right has_units⟩
  · intro one other entry another span occupied differ there there_too automatic _ has has_too
    rcases automatic_or_bound runs there_too has_too with automatic_too | ⟨leaf, listed, takes,
      binding, bound, rfl⟩
    · exact automatic_apart few runs differ there there_too automatic automatic_too has has_too
    · obtain ⟨count, counted, spans⟩ := automatic_units few runs there automatic
      obtain rfl := Option.some.inj (spans.symm.trans has)
      rcases Nat.eq_zero_or_pos leaf.ty.samplerCount with no_units | has_units
      · rw [no_units]
        rintro unit - ⟨above, below⟩
        exact absurd below (Nat.not_lt_of_le above)
      · have ends := total_take_le (List.getElem?_eq_some_iff.mp counted).1 counted
        rw [List.take_length] at ends
        exact Span.apart_of_le
          (Nat.le_trans ends (beyond leaf listed takes has_units binding bound))

/-- A sampler of plane textures. -/
def sampling (name : String) : Variable := .ofType name (.sampler .d2 .float false) .uniform

/-- A fragment stage with two samplers, the first of which is bound to a unit. -/
def shadowed (unit : Nat) : Shader :=
  .ofParts .fragment
    [{ sampling "shadow" with explicitBinding := true, binding := unit }, sampling "surface"] []

/-- A vertex stage with an array of samplers before it. -/
def relief : PerStage (Option Shader) where
  vertex := some (.ofParts .vertex
    [.ofType "heights" (.array (.sampler .d2 .float false) (some 2)) .uniform] [])
  geometry := none
  fragment := some (shadowed 3)

/-- The array takes two units and the sampler without a binding a third one, beyond which the other
is bound. -/
theorem relief_units_apart : ∃ entries usages, storage relief = .ok (entries, usages) ∧
    entries.map units? = [some ⟨0, 2⟩, some ⟨3, 1⟩, some ⟨2, 1⟩] ∧
    automaticUnits relief < UInt32.size ∧ BindingsBeyond relief ∧
    UnitsApart entries (IsAutomatic relief) (fun _ => True) := by
  have gives : (storage relief).givesTo (fun result =>
      decide (result.1.map units? = [some ⟨0, 2⟩, some ⟨3, 1⟩, some ⟨2, 1⟩])) = true := by
    decide +kernel
  obtain ⟨⟨entries, usages⟩, runs, passes⟩ := Checked.exists_of_givesTo gives
  have beyond : BindingsBeyond relief := by
    unfold BindingsBeyond
    decide +kernel
  have few : automaticUnits relief < UInt32.size := by decide +kernel
  exact ⟨entries, usages, runs, of_decide_eq_true passes, few, beyond,
    (storage_units_apart_iff few runs).2.mpr beyond⟩

/-- A stage whose sampler with a binding is bound to the lowest unit. -/
def clashing : PerStage (Option Shader) where
  vertex := none
  geometry := none
  fragment := some (shadowed 0)

/-- A sampler without a binding may get the unit that another one is bound to. -/
theorem clashing_units_meet : ∃ entries usages, storage clashing = .ok (entries, usages) ∧
    ¬ UnitsApart entries (IsAutomatic clashing) (fun _ => True) := by
  have gives : (storage clashing).givesTo (fun result =>
      decide (result.1.map (fun entry => (entry.name, units? entry)) =
        [("shadow", some ⟨0, 1⟩), ("surface", some ⟨0, 1⟩)])) = true := by decide +kernel
  obtain ⟨⟨entries, usages⟩, runs, passes⟩ := Checked.exists_of_givesTo gives
  obtain ⟨first, rest, rfl, first_is, rest_is⟩ := List.map_eq_cons_iff.mp (of_decide_eq_true passes)
  obtain ⟨second, last, rfl, second_is, -⟩ := List.map_eq_cons_iff.mp rest_is
  obtain ⟨-, bound⟩ := Prod.mk.inj first_is
  obtain ⟨named, numbered⟩ := Prod.mk.inj second_is
  have automatic : IsAutomatic clashing second :=
    ⟨{ name := "surface", ty := .sampler .d2 .float false },
      List.mem_of_getElem? (i := 1) rfl, named.symm, rfl, rfl⟩
  exact ⟨_, usages, runs, fun apart =>
    apart Nat.one_ne_zero rfl rfl automatic trivial numbered bound 0
      ⟨Nat.le_refl 0, Nat.one_pos⟩ ⟨Nat.le_refl 0, Nat.one_pos⟩⟩

end Uniform
end StageLink
