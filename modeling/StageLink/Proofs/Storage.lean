import StageLink.Proofs.Globals
import StageLink.Proofs.Leaves

/-!
# The list of uniforms

The leaves that the stages declare are entered one after the other.  Each gets an entry at the first
stage that declares it, and every stage that declares it marks the entry.  So the list has one entry
for each name, the locations follow each other without a gap, and the entries that a stage has
marked are its own leaves as long as leaves of one name stand for the same part of the same uniform.
-/

namespace StageLink
namespace Uniform

/-! ## Ranges -/

/-- Ranges of some start and length follow each other from one place to another. -/
def Tile : Nat → List (Nat × Nat) → Nat → Prop
  | start, [], final => start = final
  | start, (first, length) :: rest, final => first = start ∧ Tile (start + length) rest final

/-- Ranges that follow each other end where their lengths together lead to. -/
theorem Tile.final_eq {ranges : List (Nat × Nat)} {start final : Nat}
    (tile : Tile start ranges final) :
    final = start + total (ranges.map (·.2)) := by
  induction ranges generalizing start with
  | nil => exact tile.symm
  | cons range ranges ih => rw [ih tile.2, List.map_cons, total_cons, Nat.add_assoc]

theorem Tile.snoc {ranges : List (Nat × Nat)} {start final : Nat} (tile : Tile start ranges final)
    (length : Nat) : Tile start (ranges ++ [(final, length)]) (final + length) := by
  induction ranges generalizing start with
  | nil =>
      obtain rfl : start = final := tile
      exact ⟨rfl, rfl⟩
  | cons range ranges ih => exact ⟨tile.1, ih tile.2⟩

/-- The locations that some entries take, those of one entry as a range. -/
def ranges (entries : List UniformEntry) : List (Nat × Nat) :=
  entries.filterMap fun entry => entry.location.map fun first => (first, max 1 entry.arrayElements)

/-! ## Marking -/

def marked (stage : Stage) (name : String) (entry : UniformEntry) : UniformEntry :=
  if entry.name = name then { entry with stages := entry.stages.set stage true } else entry

section Marked

variable (stage : Stage) (name : String) (entry : UniformEntry)

@[simp]
theorem marked_name : (marked stage name entry).name = entry.name := by
  unfold marked
  split <;> rfl

@[simp]
theorem marked_ty : (marked stage name entry).ty = entry.ty := by
  unfold marked
  split <;> rfl

@[simp]
theorem marked_block : (marked stage name entry).block = entry.block := by
  unfold marked
  split <;> rfl

@[simp]
theorem marked_location : (marked stage name entry).location = entry.location := by
  unfold marked
  split <;> rfl

@[simp]
theorem marked_arrayElements : (marked stage name entry).arrayElements = entry.arrayElements := by
  unfold marked
  split <;> rfl

theorem marked_stages (other : Stage) : (marked stage name entry).stages.get other = true ↔
    entry.stages.get other = true ∨ other = stage ∧ name = entry.name := by
  unfold marked
  split
  · next same =>
      by_cases here : stage = other
      · simp [here, same]
      · simp [PerStage.get_set_other _ _ here, Ne.symm here]
  · next differs => simp [Ne.symm differs]

end Marked

/-- Among entries of different names, marking the first of a name is marking all of it. -/
theorem markStage_eq_map {stage : Stage} {name : String} {entries : List UniformEntry}
    (distinct : (entries.map (·.name)).Nodup) :
    markStage stage name entries = entries.map (marked stage name) := by
  induction entries with
  | nil => rfl
  | cons entry entries ih =>
      obtain ⟨apart, distinct⟩ := List.nodup_cons.mp distinct
      rw [markStage, List.map_cons, ih distinct]
      split
      · next same =>
          have unmarked : entries.map (marked stage name) = entries := by
            refine (List.map_congr_left fun other listed => ?_).trans (List.map_id _)
            refine if_neg fun equal => apart ?_
            exact List.mem_map.mpr ⟨other, listed, equal.trans same.symm⟩
          rw [unmarked, marked, if_pos same]
      · next differs => rw [marked, if_neg differs]

/-! ## Entering leaves -/

/-- The list has some leaves and no others, and some leaves are marked, each for a stage. -/
structure Lists (entered marks : List (Stage × Leaf)) (table : Table) : Prop where
  distinct : (table.entries.map (·.name)).Nodup
  tiled : total ((ranges table.entries).map (·.2)) < UInt32.size →
    Tile 0 (ranges table.entries) table.nextLocation
  unplaced : ∀ entry ∈ table.entries, entry.location = none ↔ entry.block.isSome = true
  origin : ∀ entry ∈ table.entries, ∃ pair ∈ entered,
    pair.2.name = entry.name ∧ pair.2.ty = entry.ty ∧ pair.2.block = entry.block
  listed : ∀ pair ∈ entered, ∃ entry ∈ table.entries, entry.name = pair.2.name
  flagged : ∀ entry ∈ table.entries, ∀ stage, entry.stages.get stage = true ↔
    ∃ leaf, (stage, leaf) ∈ marks ∧ leaf.name = entry.name

variable {entered marks : List (Stage × Leaf)} {table : Table}

theorem lists_nothing : Lists [] [] {} where
  distinct := List.nodup_nil
  tiled _ := rfl
  unplaced := by simp
  origin := by simp
  listed := by simp
  flagged := by simp

/-- A leaf is added as it is, unless its name is listed. -/
theorem addLeaf_cases (table : Table) (leaf : Leaf) :
    (addLeaf table leaf = table ∧ ∃ entry ∈ table.entries, entry.name = leaf.name) ∨
    (∀ entry ∈ table.entries, entry.name ≠ leaf.name) ∧ ∃ entry,
      (addLeaf table leaf).entries = table.entries ++ [entry] ∧ entry.name = leaf.name ∧
      entry.ty = leaf.ty ∧ entry.block = leaf.block ∧ entry.stages = .constant false ∧
      ((leaf.block.isSome = true ∧ entry.location = none ∧
          (addLeaf table leaf).nextLocation = table.nextLocation) ∨
        leaf.block = none ∧ entry.location = some table.nextLocation ∧
          (addLeaf table leaf).nextLocation =
            wrap (table.nextLocation + max 1 entry.arrayElements)) := by
  unfold addLeaf
  split
  · next there => exact .inl ⟨rfl, by simpa using there⟩
  · next absent =>
      refine .inr ⟨by simpa using absent, ?_⟩
      split
      · next of_block => exact ⟨_, rfl, rfl, rfl, rfl, rfl, .inl ⟨of_block, rfl, rfl⟩⟩
      · next of_none =>
          have no_block : leaf.block = none := by simpa using of_none
          exact ⟨_, rfl, rfl, rfl, no_block.symm, rfl, .inr ⟨no_block, rfl, by
            rw [Nat.max_comm]
            rfl⟩⟩

theorem Lists.addLeaf (lists : Lists entered marks table) (known : marks ⊆ entered) (stage : Stage)
    (leaf : Leaf) : Lists (entered ++ [(stage, leaf)]) marks (addLeaf table leaf) := by
  have origin : ∀ entry ∈ table.entries, ∃ pair ∈ entered ++ [(stage, leaf)],
      pair.2.name = entry.name ∧ pair.2.ty = entry.ty ∧ pair.2.block = entry.block := by
    intro entry listed
    obtain ⟨pair, inside, same⟩ := lists.origin entry listed
    exact ⟨pair, List.mem_append_left _ inside, same⟩
  rcases addLeaf_cases table leaf with ⟨same, there⟩ | ⟨absent, entry, entries, name, ty, block,
    unmarked, placed⟩
  · rw [same]
    refine { lists with origin := origin, listed := fun pair inside => ?_ }
    rcases List.mem_append.mp inside with before | here
    · exact lists.listed pair before
    · obtain rfl := List.mem_singleton.mp here
      exact there
  · constructor
    · rw [entries, List.map_append, List.nodup_append]
      refine ⟨lists.distinct, List.nodup_singleton _, fun one listed other new => ?_⟩
      obtain ⟨old, old_listed, rfl⟩ := List.mem_map.mp listed
      obtain rfl : other = entry.name := List.mem_singleton.mp new
      exact name ▸ absent old old_listed
    · rw [entries, ranges, List.filterMap_append]
      rcases placed with ⟨-, no_location, same⟩ | ⟨-, location, next⟩
      · rw [same, List.filterMap_cons_none (by rw [no_location]; rfl), List.filterMap_nil,
          List.append_nil]
        exact lists.tiled
      · rw [next, List.filterMap_cons_some (by rw [location]; rfl), List.filterMap_nil]
        intro fits
        rw [List.map_append, total_append, List.map_singleton, total_cons, total_nil] at fits
        have tile := lists.tiled (Nat.lt_of_le_of_lt (Nat.le_add_right ..) fits)
        have no_wrap : table.nextLocation + max 1 entry.arrayElements < UInt32.size := by
          rw [tile.final_eq, Nat.zero_add]
          exact fits
        rw [wrap_of_lt no_wrap]
        exact tile.snoc _
    · rw [entries]
      refine List.forall_mem_append.mpr ⟨lists.unplaced, List.forall_mem_singleton.mpr ?_⟩
      rw [block]
      rcases placed with ⟨of_block, no_location, -⟩ | ⟨no_block, location, -⟩
      · simp [of_block, no_location]
      · simp [no_block, location]
    · rw [entries]
      refine List.forall_mem_append.mpr ⟨origin, List.forall_mem_singleton.mpr ?_⟩
      exact ⟨(stage, leaf), by simp, name.symm, ty.symm, block.symm⟩
    · intro pair inside
      rw [entries]
      rcases List.mem_append.mp inside with before | here
      · obtain ⟨old, listed, same⟩ := lists.listed pair before
        exact ⟨old, List.mem_append_left _ listed, same⟩
      · obtain rfl := List.mem_singleton.mp here
        exact ⟨entry, by simp, name⟩
    · rw [entries]
      refine List.forall_mem_append.mpr ⟨lists.flagged, List.forall_mem_singleton.mpr ?_⟩
      intro other
      rw [unmarked, name]
      -- a leaf of the name that is marked would have been listed
      refine ⟨fun set => by simp at set, fun ⟨marked, inside, same⟩ => ?_⟩
      obtain ⟨old, listed, old_name⟩ := lists.listed _ (known inside)
      exact absurd (old_name.trans same) (absent old listed)

/-- Marking a name for a stage changes nothing else. -/
theorem Lists.markStage (lists : Lists entered marks table) (stage : Stage) (leaf : Leaf) :
    Lists entered (marks ++ [(stage, leaf)])
      { table with entries := markStage stage leaf.name table.entries } := by
  rw [markStage_eq_map lists.distinct]
  constructor
  · have same : (table.entries.map (marked stage leaf.name)).map (·.name) =
        table.entries.map (·.name) := by
      rw [List.map_map]
      exact List.map_congr_left fun _ _ => marked_name ..
    exact same ▸ lists.distinct
  · rw [ranges, List.filterMap_map]
    have same : (fun entry => (marked stage leaf.name entry).location.map
        fun first => (first, max 1 (marked stage leaf.name entry).arrayElements)) =
        fun entry : UniformEntry => entry.location.map
          fun first => (first, max 1 entry.arrayElements) := by
      funext entry
      simp
    exact (congrArg (fun range => total ((table.entries.filterMap range).map (·.2)) < UInt32.size →
      Tile 0 (table.entries.filterMap range) table.nextLocation) same).mpr lists.tiled
  · exact List.forall_mem_map.mpr fun entry listed => by simpa using lists.unplaced entry listed
  · exact List.forall_mem_map.mpr fun entry listed => by simpa using lists.origin entry listed
  · intro pair inside
    obtain ⟨entry, listed, same⟩ := lists.listed pair inside
    exact ⟨_, List.mem_map_of_mem listed, by simpa using same⟩
  · refine List.forall_mem_map.mpr fun entry listed other => ?_
    rw [marked_stages, lists.flagged entry listed, marked_name]
    constructor
    · rintro (⟨old, inside, same⟩ | ⟨rfl, same⟩)
      · exact ⟨old, List.mem_append_left _ inside, same⟩
      · exact ⟨leaf, by simp, same⟩
    · rintro ⟨found, inside, same⟩
      rcases List.mem_append.mp inside with before | here
      · exact .inl ⟨found, before, same⟩
      · obtain ⟨rfl, rfl⟩ := Prod.mk.inj (List.mem_singleton.mp here)
        exact .inr ⟨rfl, same⟩

/-- Entering leaves in order lists and marks all of them. -/
theorem Lists.enterAll (pairs : List (Stage × Leaf)) :
    ∀ {entered : List (Stage × Leaf)} {table : Table}, Lists entered entered table →
      Lists (entered ++ pairs) (entered ++ pairs)
        (pairs.foldl (fun table pair => enterLeaf pair.1 table pair.2) table) := by
  induction pairs with
  | nil =>
      intro entered table lists
      rw [List.append_nil]
      exact lists
  | cons pair pairs ih =>
      intro entered table lists
      have entered_here :=
        (lists.addLeaf (List.Subset.refl _) pair.1 pair.2).markStage pair.1 pair.2
      have all := ih entered_here
      rw [List.append_assoc] at all
      exact all

/-! ## Stages -/

def uniformsAt (executables : PerStage (Option Shader)) (stage : Stage) : List Variable :=
  ((executables.get stage).toList.flatMap Shader.declaredVariables).filter (·.mode = .uniform)

def defaultsAt (executables : PerStage (Option Shader)) (stage : Stage) : List Variable :=
  (uniformsAt executables stage).filter fun declared => !declared.isInUniformBlock

def leavesAt (executables : PerStage (Option Shader)) (stage : Stage) : List Leaf :=
  (uniformsAt executables stage).flatMap leaves

/-- The leaves that some stages declare, each with its stage. -/
def stagedLeaves (executables : PerStage (Option Shader)) (stages : List Stage) :
    List (Stage × Leaf) :=
  stages.flatMap fun stage => (leavesAt executables stage).map fun leaf => (stage, leaf)

variable {executables : PerStage (Option Shader)}

theorem mem_stagedLeaves {pair : Stage × Leaf} :
    pair ∈ stagedLeaves executables Stage.all ↔ pair.2 ∈ leavesAt executables pair.1 := by
  simp only [stagedLeaves, List.mem_flatMap, List.mem_map]
  constructor
  · rintro ⟨stage, -, leaf, listed, rfl⟩
    exact listed
  · exact fun listed => ⟨pair.1, by cases pair.1 <;> decide, pair.2, listed, rfl⟩

theorem uniformsOf_eq_ok {shader : Shader} {declared : List Variable}
    (runs : uniformsOf shader = .ok declared) :
    declared = shader.declaredVariables.filter (·.mode = .uniform) := by
  obtain ⟨fetched, fetches, equal⟩ := Checked.bind_eq_ok.mp runs
  obtain rfl := Checked.pure_eq_ok.mp equal
  congr 1
  have found := Checked.mapM_eq_ok.mp fetches
  rw [Shader.declaredVariables]
  generalize shader.globals = ids at found
  clear runs fetches equal
  induction found with
  | nil => rfl
  | cons fetched _ ih =>
      rw [List.filterMap_cons_some (Shader.fetchVariable_eq_ok.mp fetched), ih]

/-- A stage is charged for its uniforms of the default block. -/
structure Charged (executables : PerStage (Option Shader)) (stage : Stage) (usage : StageUsage) :
    Prop where
  components : usage.components =
    wrap (total ((defaultsAt executables stage).map (·.ty.componentSlots)))
  samplers : usage.samplers =
    wrap (total ((defaultsAt executables stage).map (·.ty.samplerCount)))

theorem charged_nothing {stage : Stage} (absent : executables.get stage = none) :
    Charged executables stage {} := by
  constructor <;> simp [defaultsAt, uniformsAt, absent]

theorem charged_usage {stage : Stage} {shader : Shader} {blocks : List UniformBlock}
    (found : executables.get stage = some shader) : Charged executables stage
      (usage (shader.declaredVariables.filter (·.mode = .uniform)) blocks) := by
  constructor <;> simp [defaultsAt, uniformsAt, found, usage]

/-- Going through some stages enters their leaves in order and charges each of them. -/
theorem storageFrom_eq_ok {stages : List Stage} :
    ∀ {table final : Table} {usages charges : PerStage StageUsage},
      (∀ stage, stage ∉ stages ∨ executables.get stage = none →
        Charged executables stage (usages.get stage)) →
      storageFrom executables table usages stages = .ok (final, charges) →
      final = (stagedLeaves executables stages).foldl
          (fun table pair => enterLeaf pair.1 table pair.2) table ∧
        ∀ stage, Charged executables stage (charges.get stage) := by
  induction stages with
  | nil =>
      intro table final usages charges charged runs
      obtain ⟨rfl, rfl⟩ := Prod.mk.inj (Checked.pure_eq_ok.mp runs)
      exact ⟨rfl, fun stage => charged stage (.inl List.not_mem_nil)⟩
  | cons stage stages ih =>
      intro table final usages charges charged runs
      rw [storageFrom] at runs
      rw [stagedLeaves, List.flatMap_cons, ← stagedLeaves, List.foldl_append]
      split at runs
      · next absent =>
          have no_leaves : leavesAt executables stage = [] := by simp [leavesAt, uniformsAt, absent]
          rw [no_leaves]
          refine ih (fun other unlisted => charged other ?_) runs
          by_cases here : other = stage
          · exact .inr (here ▸ absent)
          · exact unlisted.imp_left fun later listed =>
              later ((List.mem_cons.mp listed).resolve_left here)
      · next shader found =>
          obtain ⟨declared, lists, following⟩ := Checked.bind_eq_ok.mp runs
          obtain rfl := uniformsOf_eq_ok lists
          have entered :
            enterStage stage table (shader.declaredVariables.filter (·.mode = .uniform)) =
              ((leavesAt executables stage).map fun leaf => (stage, leaf)).foldl
                (fun table pair => enterLeaf pair.1 table pair.2) table := by
            simp [enterStage, leavesAt, uniformsAt, found, List.foldl_map]
          rw [← entered]
          refine ih (fun other unlisted => ?_) following
          by_cases here : stage = other
          · subst here
            rw [PerStage.get_set_same]
            exact charged_usage found
          · rw [PerStage.get_set_other _ _ here]
            exact charged other (unlisted.imp_left fun later listed =>
              later ((List.mem_cons.mp listed).resolve_left (Ne.symm here)))

/-- The list of uniforms is what comes of entering the leaves of all stages in order, and each stage
is charged. -/
theorem storage_eq_entered {entries : List UniformEntry} {usages : PerStage StageUsage}
    (runs : storage executables = .ok (entries, usages)) :
    entries = ((stagedLeaves executables Stage.all).foldl
        (fun table pair => enterLeaf pair.1 table pair.2) {}).entries ∧
      ∀ stage, Charged executables stage (usages.get stage) := by
  obtain ⟨⟨table, charges⟩, walks, equal⟩ := Checked.bind_eq_ok.mp runs
  obtain ⟨rfl, rfl⟩ := Prod.mk.inj (Checked.pure_eq_ok.mp equal)
  obtain ⟨rfl, charged⟩ := storageFrom_eq_ok (fun stage unlisted => by
    rw [PerStage.get_constant]
    exact charged_nothing (unlisted.resolve_left fun absent => absent (by cases stage <;> decide)))
    walks
  exact ⟨rfl, charged⟩

theorem storage_eq_ok {entries : List UniformEntry} {usages : PerStage StageUsage}
    (runs : storage executables = .ok (entries, usages)) :
    (∃ table, table.entries = entries ∧ Lists (stagedLeaves executables Stage.all)
      (stagedLeaves executables Stage.all) table) ∧
    ∀ stage, Charged executables stage (usages.get stage) := by
  obtain ⟨rfl, charged⟩ := storage_eq_entered runs
  exact ⟨⟨_, rfl, lists_nothing.enterAll _⟩, charged⟩

/-! ## Accounts -/

/-- Leaves are told apart by their names: no stage declares two leaves of one name, no leaf of the
default block has the name of a leaf of another block, and leaves of the default block that have the
same name in some stages belong to the uniforms of one name. -/
structure Separable (executables : PerStage (Option Shader)) : Prop where
  distinct : ∀ stage, ((leavesAt executables stage).map (·.name)).Nodup
  apart : ∀ stage, ∀ leaf ∈ leavesAt executables stage, ∀ other,
    ∀ found ∈ leavesAt executables other, leaf.name = found.name →
      leaf.block.isSome = found.block.isSome
  unshared : ∀ stage, ∀ declared ∈ defaultsAt executables stage, ∀ leaf ∈ defaultLeaves declared,
    ∀ other, ∀ found ∈ defaultsAt executables other, ∀ part ∈ defaultLeaves found,
      leaf.name = part.name → declared.name = found.name

instance (executables : PerStage (Option Shader)) : Decidable (Separable executables) :=
  decidable_of_iff (_ ∧ _ ∧ _)
    ⟨fun ⟨distinct, apart, unshared⟩ => ⟨distinct, apart, unshared⟩, fun separable =>
      ⟨separable.distinct, separable.apart, separable.unshared⟩⟩

/-- Uniforms of the default block have one type in all stages. -/
def Agreed (executables : PerStage (Option Shader)) : Prop :=
  ∀ stage, ∀ one ∈ defaultsAt executables stage, ∀ other, ∀ found ∈ defaultsAt executables other,
    one.name = found.name → one.ty = found.ty

/-- The entries of the default block that are flagged for a stage. -/
def flaggedDefaults (stage : Stage) (entries : List UniformEntry) : List UniformEntry :=
  entries.filter fun entry => entry.stages.get stage && entry.block.isNone

/-- All sums over a list of uniforms are words: of the locations that the entries take, and of the
components and the samplers of the entries of the default block that are flagged for a stage. -/
structure Fits (entries : List UniformEntry) : Prop where
  locations : total ((ranges entries).map (·.2)) < UInt32.size
  components : ∀ stage,
    total ((flaggedDefaults stage entries).map (·.ty.componentSlots)) < UInt32.size
  samplers : ∀ stage, total ((flaggedDefaults stage entries).map (·.ty.samplerCount)) < UInt32.size

instance (entries : List UniformEntry) : Decidable (Fits entries) :=
  decidable_of_iff (_ ∧ _ ∧ _)
    ⟨fun ⟨locations, components, samplers⟩ => ⟨locations, components, samplers⟩, fun fits =>
      ⟨fits.locations, fits.components, fits.samplers⟩⟩

/-- The list of uniforms and the charges of the stages go with what the executables declare. -/
structure Accounts (executables : PerStage (Option Shader)) (entries : List UniformEntry)
    (usages : PerStage StageUsage) : Prop where
  agreed : Agreed executables
  tiled : ∃ final, Tile 0 (ranges entries) final
  unplaced : ∀ entry ∈ entries, entry.location = none ↔ ∃ stage,
    ∃ leaf ∈ leavesAt executables stage,
    leaf.name = entry.name ∧ leaf.block.isSome = true
  distinct : (entries.map (·.name)).Nodup
  listed : ∀ stage, ∀ leaf ∈ leavesAt executables stage, ∃ entry ∈ entries, entry.name = leaf.name
  flagged : ∀ entry ∈ entries, ∀ stage, entry.stages.get stage = true ↔
    ∃ leaf ∈ leavesAt executables stage, leaf.name = entry.name
  components : ∀ stage, (usages.get stage).components =
    total ((flaggedDefaults stage entries).map (·.ty.componentSlots))
  samplers : ∀ stage, (usages.get stage).samplers =
    total ((flaggedDefaults stage entries).map (·.ty.samplerCount))

theorem block_of_leaves {declared : Variable} {leaf : Leaf} (listed : leaf ∈ leaves declared) :
    leaf.block.isSome = declared.isInUniformBlock := by
  unfold leaves at listed
  split at listed
  · next in_block =>
      rw [in_block]
      unfold blockLeaves at listed
      split at listed
      · exact absurd listed List.not_mem_nil
      · dsimp only at listed
        split at listed
        · obtain ⟨_, -, rfl⟩ := List.mem_map.mp listed
          rfl
        · obtain rfl := List.mem_singleton.mp listed
          rfl
  · next outside =>
      obtain ⟨_, -, rfl⟩ := List.mem_map.mp listed
      simp [outside]

theorem leavesAt_filter (executables : PerStage (Option Shader)) (stage : Stage) :
    (leavesAt executables stage).filter (·.block.isNone) =
      (defaultsAt executables stage).flatMap defaultLeaves := by
  rw [leavesAt, defaultsAt]
  generalize uniformsAt executables stage = declared
  induction declared with
  | nil => rfl
  | cons uniform rest ih =>
      rw [List.flatMap_cons, List.filter_append, ih, List.filter_cons]
      cases inside : uniform.isInUniformBlock with
      | true =>
          have none_there : (leaves uniform).filter (·.block.isNone) = [] := by
            refine List.filter_eq_nil_iff.mpr fun leaf listed => ?_
            simp [Option.isSome_iff_ne_none.mp ((block_of_leaves listed).trans inside)]
          rw [none_there]
          rfl
      | false =>
          have all_there : (leaves uniform).filter (·.block.isNone) = leaves uniform := by
            refine List.filter_eq_self.mpr fun leaf listed => ?_
            simpa using (block_of_leaves listed).trans inside
          rw [all_there, leaves, inside]
          rfl

theorem Separable.ty_eq (separable : Separable executables) (agreed : Agreed executables)
    {stage other : Stage} {leaf part : Leaf}
    (listed : leaf ∈ (defaultsAt executables stage).flatMap defaultLeaves)
    (found : part ∈ (defaultsAt executables other).flatMap defaultLeaves)
    (same : leaf.name = part.name) : leaf.ty = part.ty := by
  obtain ⟨one, one_listed, leaf_of_one⟩ := List.mem_flatMap.mp listed
  obtain ⟨two, two_listed, part_of_two⟩ := List.mem_flatMap.mp found
  have named := separable.unshared stage one one_listed leaf leaf_of_one other two two_listed part
    part_of_two same
  have typed := agreed stage one one_listed other two two_listed named
  have parts : (defaultLeaves one).map Leaf.part = (defaultLeaves two).map Leaf.part := by
    rw [defaultLeaves_parts, defaultLeaves_parts, named, typed]
  -- the part of the other stage is a leaf of this stage, which has only one of the name
  have inside : part.part ∈ (defaultLeaves one).map Leaf.part :=
    parts ▸ List.mem_map_of_mem part_of_two
  obtain ⟨twin, twin_listed, equal⟩ := List.mem_map.mp inside
  obtain ⟨twin_name, twin_ty⟩ := Prod.mk.inj equal
  have here : ∀ found ∈ defaultLeaves one, found ∈ leavesAt executables stage := fun found inside =>
    List.mem_of_mem_filter (leavesAt_filter executables stage ▸
      List.mem_flatMap.mpr ⟨one, one_listed, inside⟩)
  obtain rfl := List.inj_on_of_nodup_map (separable.distinct stage) (here leaf leaf_of_one)
    (here twin twin_listed) (same.trans twin_name.symm)
  exact twin_ty

theorem default_of_leaf {stage : Stage} {leaf : Leaf} (listed : leaf ∈ leavesAt executables stage)
    (no_block : leaf.block.isNone = true) :
    leaf ∈ (defaultsAt executables stage).flatMap defaultLeaves := by
  rw [← leavesAt_filter]
  exact List.mem_filter.mpr ⟨listed, no_block⟩

/-- A leaf is in the default block exactly if the entry of its name is, and then it has the type of
the entry. -/
theorem leaf_of_entry (separable : Separable executables) (agreed : Agreed executables)
    (lists : Lists (stagedLeaves executables Stage.all) (stagedLeaves executables Stage.all) table)
    {entry : UniformEntry} {stage : Stage} {leaf : Leaf} (listed : entry ∈ table.entries)
    (declared : leaf ∈ leavesAt executables stage) (same : leaf.name = entry.name) :
    leaf.block.isNone = entry.block.isNone ∧ (leaf.block.isNone = true → leaf.ty = entry.ty) := by
  obtain ⟨pair, inside, first_name, first_ty, first_block⟩ := lists.origin entry listed
  have first_declared := mem_stagedLeaves.mp inside
  have named := same.trans first_name.symm
  have alike : leaf.block.isNone = pair.2.block.isNone := by
    have apart := separable.apart stage leaf declared pair.1 pair.2 first_declared named
    rw [← Option.not_isSome, ← Option.not_isSome, apart]
  refine ⟨first_block ▸ alike, fun no_block => ?_⟩
  have first_default := default_of_leaf first_declared (alike ▸ no_block)
  rw [separable.ty_eq agreed (default_of_leaf declared no_block) first_default named, first_ty]

/-- The entries of the default block that are flagged for a stage are the leaves of its uniforms in
the default block. -/
theorem flaggedDefaults_perm (separable : Separable executables) (agreed : Agreed executables)
    (lists : Lists (stagedLeaves executables Stage.all) (stagedLeaves executables Stage.all) table)
    (stage : Stage) :
    ((flaggedDefaults stage table.entries).map fun entry => (entry.name, entry.ty)).Perm
      (((defaultsAt executables stage).flatMap defaultLeaves).map Leaf.part) := by
  refine (List.perm_ext_iff_of_nodup ?_ ?_).mpr fun ⟨name, ty⟩ => ⟨?_, ?_⟩
  · refine List.Nodup.of_map Prod.fst ?_
    rw [List.map_map]
    exact lists.distinct.sublist (List.filter_sublist.map _)
  · refine List.Nodup.of_map Prod.fst ?_
    rw [List.map_map, ← leavesAt_filter]
    exact (separable.distinct stage).sublist (List.filter_sublist.map _)
  · intro inside
    obtain ⟨entry, chosen, equal⟩ := List.mem_map.mp inside
    obtain ⟨rfl, rfl⟩ := Prod.mk.inj equal
    obtain ⟨listed, flagged⟩ := List.mem_filter.mp chosen
    obtain ⟨flagged, no_block⟩ := Bool.and_eq_true_iff.mp flagged
    obtain ⟨leaf, staged, same⟩ := (lists.flagged entry listed stage).mp flagged
    have declared := mem_stagedLeaves.mp staged
    obtain ⟨alike, typed⟩ := leaf_of_entry separable agreed lists listed declared same
    have leaf_default : leaf.block.isNone = true := alike.trans no_block
    refine List.mem_map.mpr ⟨leaf, default_of_leaf declared leaf_default, ?_⟩
    rw [Leaf.part, same, typed leaf_default]
  · intro inside
    obtain ⟨leaf, leaf_default, equal⟩ := List.mem_map.mp inside
    obtain ⟨rfl, rfl⟩ := Prod.mk.inj equal
    obtain ⟨declared, no_block⟩ :=
      List.mem_filter.mp (leavesAt_filter executables stage ▸ leaf_default)
    have staged : (stage, leaf) ∈ stagedLeaves executables Stage.all :=
      mem_stagedLeaves.mpr declared
    obtain ⟨entry, listed, same⟩ := lists.listed _ staged
    obtain ⟨alike, typed⟩ := leaf_of_entry separable agreed lists listed declared same.symm
    refine List.mem_map.mpr ⟨entry, List.mem_filter.mpr ⟨listed, ?_⟩, ?_⟩
    · rw [(lists.flagged entry listed stage).mpr ⟨leaf, staged, same.symm⟩, ← alike, no_block]
      rfl
    · rw [same, typed no_block]

/-- The uniforms that a stage has in the default block take what the entries flagged for it take. -/
theorem total_flaggedDefaults {weight : Ty → Nat} (additive : Additive weight)
    (separable : Separable executables) (agreed : Agreed executables)
    (lists : Lists (stagedLeaves executables Stage.all) (stagedLeaves executables Stage.all) table)
    (stage : Stage) :
    wrap (total ((defaultsAt executables stage).map (weight ·.ty))) =
      wrap (total ((flaggedDefaults stage table.entries).map (weight ·.ty))) := by
  have perm := (flaggedDefaults_perm separable agreed lists stage).map (weight ·.2)
  rw [List.map_map, List.map_map] at perm
  rw [← total_defaultLeaves additive]
  exact congrArg wrap (total_perm perm).symm

/-- The list of uniforms accounts for what the executables declare, if leaves are told apart by
their names, uniforms have one type, and sums are words. -/
theorem accounts_of_storage {entries : List UniformEntry} {usages : PerStage StageUsage}
    (separable : Separable executables) (agreed : Agreed executables) (fits : Fits entries)
    (runs : storage executables = .ok (entries, usages)) :
    Accounts executables entries usages := by
  obtain ⟨⟨table, rfl, lists⟩, charged⟩ := storage_eq_ok runs
  constructor
  · exact agreed
  · exact ⟨_, lists.tiled fits.locations⟩
  · intro entry listed
    rw [lists.unplaced entry listed]
    obtain ⟨⟨stage, leaf⟩, inside, same, -, block⟩ := lists.origin entry listed
    have declared := mem_stagedLeaves.mp inside
    constructor
    · exact fun of_block => ⟨stage, leaf, declared, same, by rw [block, of_block]⟩
    · rintro ⟨other, found, found_declared, found_name, of_block⟩
      rw [← block, separable.apart stage leaf declared other found found_declared
        (same.trans found_name.symm), of_block]
  · exact lists.distinct
  · exact fun stage leaf declared => lists.listed (stage, leaf) (mem_stagedLeaves.mpr declared)
  · intro entry listed stage
    rw [lists.flagged entry listed stage]
    exact exists_congr fun leaf => and_congr_left fun _ => mem_stagedLeaves
  · exact fun stage => (charged stage).components.trans
      ((total_flaggedDefaults additive_componentSlots separable agreed lists stage).trans
        (wrap_of_lt (fits.components stage)))
  · exact fun stage => (charged stage).samplers.trans
      ((total_flaggedDefaults additive_samplerCount separable agreed lists stage).trans
        (wrap_of_lt (fits.samplers stage)))

end Uniform
end StageLink
