import StageLink.Proofs.BlockTable
import Mathlib.Data.List.Nodup

/-!
# Positions of uniform blocks

The table of a program has one block for each name, in the order in which the names come up in the
executables, and the blocks of one name must be defined alike in all of them.  The positions of a
stage lead from each block of the table to the block of its name in the stage, and to every block of
the stage from one block of the table.
-/

namespace StageLink

/-! ## Definitions -/

namespace BlockMember

/-- What a member declares, wherever it is placed. -/
def definition (member : BlockMember) : String × Ty × Bool :=
  (member.name, member.ty, member.rowMajor)

theorem sameDefinition_iff {one other : BlockMember} :
    one.sameDefinition other = true ↔ one.definition = other.definition := by
  simp [sameDefinition, definition]

end BlockMember

namespace UniformBlock

/-- What a block declares, wherever its members are placed. -/
def definition (block : UniformBlock) : String × Packing × List (String × Ty × Bool) :=
  (block.name, block.packing, block.members.map BlockMember.definition)

/-- To be defined alike is an equivalence. -/
theorem sameDefinition_iff {one other : UniformBlock} :
    one.sameDefinition other = true ↔ one.definition = other.definition := by
  have members : (one.members.length = other.members.length ∧
      (one.members.zip other.members).all (fun pair => pair.1.sameDefinition pair.2) = true) ↔
      one.members.map BlockMember.definition = other.members.map BlockMember.definition := by
    rw [← List.forall₂_eq_eq_eq, List.forall₂_map_left_iff, List.forall₂_map_right_iff,
      List.forall₂_iff_zip, List.all_eq_true]
    refine and_congr_right fun _ => ⟨fun alike first second paired => ?_,
      fun alike pair paired => ?_⟩
    · exact BlockMember.sameDefinition_iff.mp (alike (first, second) paired)
    · exact BlockMember.sameDefinition_iff.mpr (alike paired)
  simp only [sameDefinition, Bool.and_eq_true, decide_eq_true_eq, definition,
    Prod.mk.injEq, ← members,
    and_assoc]

/-- The blocks are defined alike if they have the same name. -/
def Agree (one other : UniformBlock) : Prop :=
  one.name = other.name → one.sameDefinition other = true

theorem Agree.refl (block : UniformBlock) : Agree block block :=
  fun _ => sameDefinition_iff.mpr rfl

theorem Agree.symm {one other : UniformBlock} (agree : Agree one other) : Agree other one :=
  fun same => sameDefinition_iff.mpr (sameDefinition_iff.mp (agree same.symm)).symm

theorem Agree.of_common {one other common : UniformBlock} (named : common.name = one.name)
    (first : Agree common one) (second : Agree common other) : Agree one other := by
  intro same
  have alike := sameDefinition_iff.mp (first named)
  have alike_too := sameDefinition_iff.mp (second (named.trans same))
  exact sameDefinition_iff.mpr (alike.symm.trans alike_too)

/-! ## Entering blocks -/

/-- A name at the end counts unless it has come up before. -/
theorem eraseDups_concat (names : List String) (name : String) : (names ++ [name]).eraseDups =
    if name ∈ names then names.eraseDups else names.eraseDups ++ [name] := by
  rw [List.eraseDups_append]
  by_cases seen : name ∈ names
  · have gone : [name].removeAll names = [] := by simpa [List.removeAll] using seen
    rw [gone, if_pos seen, List.eraseDups_nil, List.append_nil]
  · have stays : [name].removeAll names = [name] := by simpa [List.removeAll] using seen
    rw [stays, if_neg seen, List.eraseDups_cons, List.filter_nil, List.eraseDups_nil]

/-- The table has the first block of each name that comes up in some blocks, in order. -/
structure ListsFirst (blocks table : List UniformBlock) : Prop where
  names : table.map (·.name) = (blocks.map (·.name)).eraseDups
  once : (table.map (·.name)).Nodup
  first : ∀ block ∈ table, blocks.find? (·.name = block.name) = some block

variable {blocks table result : List UniformBlock} {block : UniformBlock}

namespace ListsFirst

theorem nil : ListsFirst [] [] := ⟨rfl, List.nodup_nil, by simp⟩

theorem exists_name_iff (lists : ListsFirst blocks table) {name : String} :
    (∃ block ∈ table, block.name = name) ↔ ∃ block ∈ blocks, block.name = name := by
  have same : name ∈ table.map (·.name) ↔ name ∈ blocks.map (·.name) := by
    rw [lists.names, List.mem_eraseDups]
  simpa only [List.mem_map] using same

/-- A block whose name is in the table adds nothing. -/
theorem skip (lists : ListsFirst blocks table)
    (known : ∃ existing ∈ table, existing.name = block.name) :
    ListsFirst (blocks ++ [block]) table := by
  have seen : block.name ∈ blocks.map (·.name) := List.mem_map.mpr (lists.exists_name_iff.mp known)
  refine ⟨?_, lists.once, fun entry listed => ?_⟩
  · rw [lists.names, List.map_append, List.map_singleton, eraseDups_concat, if_pos seen]
  · rw [List.find?_append, lists.first entry listed, Option.some_or]

/-- A block whose name is not in the table comes last. -/
theorem push (lists : ListsFirst blocks table)
    (unknown : ¬ ∃ existing ∈ table, existing.name = block.name) :
    ListsFirst (blocks ++ [block]) (table ++ [block]) := by
  have unseen : block.name ∉ blocks.map (·.name) := fun seen =>
    unknown (lists.exists_name_iff.mpr (List.mem_map.mp seen))
  refine ⟨?_, ?_, fun entry listed => ?_⟩
  · rw [List.map_append, lists.names, List.map_append, List.map_singleton, eraseDups_concat,
      if_neg unseen]
  · rw [List.map_append]
    refine List.nodup_append.mpr ⟨lists.once, List.nodup_singleton _, ?_⟩
    rintro name listed _ (- | ⟨_, ⟨⟩⟩) rfl
    exact unknown (List.mem_map.mp listed)
  · rcases List.mem_append.mp listed with old | new
    · rw [List.find?_append, lists.first entry old, Option.some_or]
    · rw [List.mem_singleton.mp new]
      have none_before : blocks.find? (·.name = block.name) = none := by
        refine List.find?_eq_none.mpr fun other among same => unseen ?_
        exact List.mem_map.mpr ⟨other, among, by simpa using same⟩
      simp [List.find?_append, none_before]

end ListsFirst

/-- Some blocks have been entered into a table without finding two that disagree. -/
structure Entered (blocks table : List UniformBlock) : Prop extends ListsFirst blocks table where
  agree : ∀ one ∈ blocks, ∀ other ∈ blocks, Agree one other

/-- A name stands for two blocks that are not defined alike. -/
def Disputed (blocks : List UniformBlock) (name : String) : Prop :=
  ∃ one ∈ blocks, ∃ other ∈ blocks,
    one.name = name ∧ other.name = name ∧ one.sameDefinition other = false

theorem Disputed.mono {others : List UniformBlock} {name : String} (fewer : blocks ⊆ others)
    (disputed : Disputed blocks name) : Disputed others name := by
  obtain ⟨one, one_listed, other, other_listed, rest⟩ := disputed
  exact ⟨one, fewer one_listed, other, fewer other_listed, rest⟩

theorem Entered.not_disputed (entered : Entered blocks table) (name : String) :
    ¬ Disputed blocks name := by
  rintro ⟨one, one_listed, other, other_listed, rfl, same, differs⟩
  rw [entered.agree one one_listed other other_listed same.symm] at differs
  cases differs

/-- Another block that agrees with the block of its name in the table agrees with all others. -/
theorem Entered.agree_concat (entered : Entered blocks table)
    (agrees : ∀ existing ∈ table, Agree existing block) :
    ∀ one ∈ blocks ++ [block], ∀ other ∈ blocks ++ [block], Agree one other := by
  have with_new : ∀ one ∈ blocks, Agree one block := by
    intro one listed same
    obtain ⟨existing, in_table, named⟩ := entered.exists_name_iff.mpr ⟨one, listed, rfl⟩
    have among := List.mem_of_find?_eq_some (entered.first existing in_table)
    exact Agree.of_common named (entered.agree existing among one listed)
      (agrees existing in_table) same
  intro one one_listed other other_listed
  rcases List.mem_append.mp one_listed with one_old | one_new
  · rcases List.mem_append.mp other_listed with other_old | other_new
    · exact entered.agree one one_old other other_old
    · exact List.mem_singleton.mp other_new ▸ with_new one one_old
  · rw [List.mem_singleton.mp one_new]
    rcases List.mem_append.mp other_listed with other_old | other_new
    · exact (with_new other other_old).symm
    · exact List.mem_singleton.mp other_new ▸ Agree.refl block

theorem Entered.enter (entered : Entered blocks table) (block : UniformBlock) :
    (∃ result, enter table block = .ok result ∧ Entered (blocks ++ [block]) result) ∨
      enter table block = .error (.uniformBlockMismatch block.name) ∧
        Disputed (blocks ++ [block]) block.name := by
  unfold UniformBlock.enter
  cases found : table.find? (·.name = block.name) with
  | none =>
      have unknown : ¬ ∃ existing ∈ table, existing.name = block.name := by
        simpa using List.find?_eq_none.mp found
      refine .inl ⟨_, rfl, entered.push unknown, entered.agree_concat
        fun existing listed same => ?_⟩
      exact absurd ⟨existing, listed, same⟩ unknown
  | some existing =>
      have in_table := List.mem_of_find?_eq_some found
      have named : existing.name = block.name := by simpa using List.find?_some found
      dsimp only
      cases alike : existing.sameDefinition block with
      | true =>
          refine .inl ⟨_, rfl, entered.skip ⟨existing, in_table, named⟩,
            entered.agree_concat fun other listed same => ?_⟩
          obtain rfl : other = existing :=
            List.inj_on_of_nodup_map entered.once listed in_table (same.trans named.symm)
          exact alike
      | false =>
          have among := List.mem_of_find?_eq_some (entered.first existing in_table)
          exact .inr ⟨rfl, existing, List.mem_append_left _ among,
            block, by simp, named, rfl, alike⟩

/-- Entering some blocks comes upon one in dispute if there is any, and lists the first of each name
otherwise. -/
theorem Entered.enterAll (later : List UniformBlock) : ∀ {blocks table : List UniformBlock},
    Entered blocks table →
      (∃ result, enterAll table later = .ok result ∧ Entered (blocks ++ later) result) ∨
      ∃ name, enterAll table later = .error (.uniformBlockMismatch name) ∧
        Disputed (blocks ++ later) name := by
  induction later with
  | nil =>
      intro blocks table entered
      exact .inl ⟨table, rfl, by simpa using entered⟩
  | cons block later ih =>
      intro blocks table entered
      rw [UniformBlock.enterAll, List.append_cons]
      rcases entered.enter block with ⟨extended, enters, now⟩ | ⟨fails, disputed⟩
      · rw [enters]
        exact ih now
      · rw [fails]
        exact .inr ⟨block.name, rfl, disputed.mono (List.subset_append_left ..)⟩

/-! ## Positions -/

/-- The last block of a name stands at a position where names are distinct exactly if a block of the
name stands there. -/
theorem find?_position_iff {stage : List UniformBlock} {name : String} {position : Nat}
    (distinct : (stage.map (·.name)).Nodup) :
    (stage.zipIdx.reverse.find? fun pair => pair.1.name = name).map (·.2) = some position ↔
      ∃ block, stage[position]? = some block ∧ block.name = name := by
  constructor
  · intro found
    obtain ⟨⟨block, _⟩, is_found, rfl⟩ := Option.map_eq_some_iff.mp found
    have listed := List.mem_reverse.mp (List.mem_of_find?_eq_some is_found)
    exact ⟨block, List.mem_zipIdx_iff_getElem?.mp listed, by simpa using List.find?_some is_found⟩
  · rintro ⟨block, there, rfl⟩
    have listed : (block, position) ∈ stage.zipIdx.reverse :=
      List.mem_reverse.mpr (List.mem_zipIdx_iff_getElem?.mpr there)
    have is_some : (stage.zipIdx.reverse.find? fun pair => pair.1.name = block.name).isSome := by
      exact List.find?_isSome.mpr ⟨_, listed, by simp⟩
    obtain ⟨⟨other, place⟩, is_found⟩ := Option.isSome_iff_exists.mp is_some
    have other_there := List.mem_zipIdx_iff_getElem?.mp
      (List.mem_reverse.mp (List.mem_of_find?_eq_some is_found))
    have named : other.name = block.name := by simpa using List.find?_some is_found
    rw [is_found, Option.map_some, Option.some.injEq]
    obtain ⟨inside, -⟩ := List.getElem?_eq_some_iff.mp other_there
    refine (List.getElem?_inj (by simpa using inside) distinct).mp ?_
    rw [List.getElem?_map, List.getElem?_map, other_there, there, Option.map_some,
      Option.map_some, named]

theorem positionsIn_eq_some_iff {stage : List UniformBlock} {index position : Nat}
    (distinct : (stage.map (·.name)).Nodup) :
    (positionsIn table stage)[index]? = some (some position) ↔
      ∃ entry block, table[index]? = some entry ∧ stage[position]? = some block ∧
        block.name = entry.name := by
  rw [positionsIn, List.getElem?_map, Option.map_eq_some_iff]
  refine exists_congr fun entry => ?_
  rw [find?_position_iff distinct, ← exists_and_left]

/-! ## Tables of programs -/

def stagedBlocks (executables : PerStage (Option Shader)) : List UniformBlock :=
  executables.toList.flatMap fun executable => executable.toList.flatMap Shader.uniformBlocks

/-- Two stages have blocks of a name that are not defined alike. -/
def Conflict (executables : PerStage (Option Shader)) (name : String) : Prop :=
  ∃ stage other shader shader' block block', stage ≠ other ∧
    executables.get stage = some shader ∧ executables.get other = some shader' ∧
    block ∈ shader.uniformBlocks ∧ block' ∈ shader'.uniformBlocks ∧
    block.name = name ∧ block'.name = name ∧ block.sameDefinition block' = false

/-- The table of a program has the first block of each name, and the positions of a stage lead to
the blocks of the stage by their names, and to each of them from one block of the table. -/
structure TabulatedBy (executables : PerStage (Option Shader)) (table : List UniformBlock)
    (positions : PerStage (List (Option Nat))) : Prop extends
    ListsFirst (stagedBlocks executables) table where
  length : ∀ stage, (positions.get stage).length = table.length
  position_iff : ∀ (stage : Stage) (index position : Nat),
    (positions.get stage)[index]? = some (some position) ↔
    ∃ (shader : Shader) (entry block : UniformBlock), executables.get stage = some shader ∧
      table[index]? = some entry ∧ shader.uniformBlocks[position]? = some block ∧
      block.name = entry.name
  reached : ∀ (stage : Stage) (shader : Shader) (position : Nat),
    executables.get stage = some shader →
    position < shader.uniformBlocks.length →
    ∃! index : Nat, (positions.get stage)[index]? = some (some position)

variable {executables : PerStage (Option Shader)}

theorem mem_stagedBlocks : block ∈ stagedBlocks executables ↔
    ∃ stage shader, executables.get stage = some shader ∧ block ∈ shader.uniformBlocks := by
  have stages : ∀ holds : Stage → Prop,
      (∃ stage, holds stage) ↔ holds .vertex ∨ holds .geometry ∨ holds .fragment := by
    intro holds
    refine ⟨fun ⟨stage, holding⟩ => ?_, ?_⟩
    · cases stage with
      | vertex => exact .inl holding
      | geometry => exact .inr (.inl holding)
      | fragment => exact .inr (.inr holding)
    · rintro (holding | holding | holding) <;> exact ⟨_, holding⟩
  simp [stagedBlocks, PerStage.toList, stages, PerStage.get]

theorem ofProgram_eq (executables : PerStage (Option Shader)) : ofProgram executables =
    (enterAll [] (stagedBlocks executables)).map fun table =>
    (table, executables.map fun executable =>
      positionsIn table (executable.toList.flatMap Shader.uniformBlocks)) := by
  have same : ∀ executable : Option Shader, (executable.map Shader.uniformBlocks).getD [] =
      executable.toList.flatMap Shader.uniformBlocks := by
    intro executable
    cases executable <;> simp
  have staged : (executables.map fun executable => (executable.map Shader.uniformBlocks).getD []
      ).toList.flatMap id = stagedBlocks executables := by
    simp [stagedBlocks, PerStage.toList, PerStage.map, same]
  rw [ofProgram, staged]
  cases enterAll [] (stagedBlocks executables) with
  | error cause => rfl
  | ok table => simp [Except.map, PerStage.map, same, bind, Except.bind, pure, Except.pure]

/-- Where the names of the blocks of each executable are distinct, a dispute is between two
stages. -/
theorem conflict_iff_disputed {name : String} (distinct : ∀ stage shader,
    executables.get stage = some shader → (shader.uniformBlocks.map (·.name)).Nodup) :
    Conflict executables name ↔ Disputed (stagedBlocks executables) name := by
  constructor
  · rintro ⟨stage, other, shader, shader', block, block', -, present, present',
      listed, listed', rest⟩
    exact ⟨block, mem_stagedBlocks.mpr ⟨stage, shader, present, listed⟩, block',
      mem_stagedBlocks.mpr ⟨other, shader', present', listed'⟩, rest⟩
  · rintro ⟨block, listed, block', listed', named, named', differs⟩
    obtain ⟨stage, shader, present, inside⟩ := mem_stagedBlocks.mp listed
    obtain ⟨other, shader', present', inside'⟩ := mem_stagedBlocks.mp listed'
    refine ⟨stage, other, shader, shader', block, block', ?_, present, present', inside, inside',
      named, named', differs⟩
    rintro rfl
    obtain rfl : shader = shader' := Option.some.inj (present.symm.trans present')
    obtain rfl : block = block' :=
      List.inj_on_of_nodup_map (distinct _ _ present) inside inside' (named.trans named'.symm)
    rw [sameDefinition_iff.mpr rfl] at differs
    cases differs

/-- What is tabulated after all blocks have been entered. -/
theorem Entered.tabulated (entered : Entered (stagedBlocks executables) table)
    (distinct : ∀ stage shader, executables.get stage = some shader →
      (shader.uniformBlocks.map (·.name)).Nodup) :
    TabulatedBy executables table (executables.map fun executable =>
      positionsIn table (executable.toList.flatMap Shader.uniformBlocks)) := by
  have position_iff : ∀ (stage : Stage) (index position : Nat),
      (positionsIn table ((executables.get stage).toList.flatMap Shader.uniformBlocks))[index]? =
        some (some position) ↔
      ∃ (shader : Shader) (entry block : UniformBlock), executables.get stage = some shader ∧
        table[index]? = some entry ∧ shader.uniformBlocks[position]? = some block ∧
        block.name = entry.name := by
    intro stage index position
    cases present : executables.get stage with
    | none => simp [@positionsIn_eq_some_iff table [] index position List.nodup_nil]
    | some shader => simp [positionsIn_eq_some_iff (distinct stage shader present)]
  refine ⟨entered.toListsFirst, fun stage => ?_, fun stage index position => ?_,
    fun stage shader position present inside => ?_⟩
  · simp [positionsIn]
  · rw [PerStage.get_map]
    exact position_iff stage index position
  · simp only [PerStage.get_map, position_iff]
    have block_there := List.getElem?_eq_getElem inside
    obtain ⟨entry, in_table, named⟩ := entered.exists_name_iff.mpr
      ⟨_, mem_stagedBlocks.mpr ⟨stage, shader, present, List.getElem_mem inside⟩, rfl⟩
    obtain ⟨index, entry_there⟩ := List.mem_iff_getElem?.mp in_table
    refine ⟨index, ⟨shader, entry, _, present, entry_there, block_there, named.symm⟩, ?_⟩
    rintro other ⟨shader', entry', block', present', entry_there', block_there', named'⟩
    obtain rfl : shader = shader' := Option.some.inj (present.symm.trans present')
    obtain rfl := Option.some.inj (block_there.symm.trans block_there')
    obtain ⟨below, -⟩ := List.getElem?_eq_some_iff.mp entry_there'
    refine (List.getElem?_inj (by simpa using below) entered.once).mp ?_
    rw [List.getElem?_map, List.getElem?_map, entry_there, entry_there', Option.map_some,
      Option.map_some, named, named']

/-- A program has a table of its blocks unless two stages define blocks of one name differently, and
then reports such a name.  The table lists the first block of each name, and tells for each stage
where it has the blocks. -/
theorem ofProgram_exact (executables : PerStage (Option Shader)) (distinct : ∀ stage shader,
      executables.get stage = some shader → (shader.uniformBlocks.map (·.name)).Nodup) :
    ((∃ cause, ofProgram executables = .error cause) ↔ ∃ name, Conflict executables name) ∧
    (∀ cause, ofProgram executables = .error cause →
      ∃ name, cause = .uniformBlockMismatch name ∧ Conflict executables name) ∧
    ∀ table positions, ofProgram executables = .ok (table, positions) →
      TabulatedBy executables table positions := by
  rw [ofProgram_eq]
  simp only [conflict_iff_disputed distinct]
  have nothing_entered : Entered [] [] := ⟨.nil, by simp⟩
  rcases nothing_entered.enterAll (stagedBlocks executables) with
    ⟨table, enters, entered⟩ | ⟨name, fails, disputed⟩
  · rw [enters, List.nil_append] at *
    refine ⟨⟨?_, ?_⟩, ?_, ?_⟩
    · rintro ⟨cause, ⟨⟩⟩
    · rintro ⟨name, disputed⟩
      exact absurd disputed (entered.not_disputed name)
    · rintro cause ⟨⟩
    · rintro _ _ ⟨⟩
      exact entered.tabulated distinct
  · rw [fails, List.nil_append] at *
    refine ⟨⟨fun _ => ⟨name, disputed⟩, fun _ => ⟨_, rfl⟩⟩, ?_, ?_⟩
    · rintro _ ⟨⟩
      exact ⟨name, rfl, disputed⟩
    · rintro _ _ ⟨⟩

/-! ## Two stages that share a block -/

/-- A block of colors. -/
def palette : UniformBlock := ofMembers "Palette" [("tint", .floatVector .four)]

/-- A block that only the fragment stage has. -/
def fog : UniformBlock := ofMembers "Fog" [("density", .float)]

/-- A vertex stage with the palette, and a fragment stage with the fog and the palette. -/
def painted : PerStage (Option Shader) where
  vertex := some { stage := .vertex, version := 150, uniformBlocks := [palette] }
  geometry := none
  fragment := some { stage := .fragment, version := 150, uniformBlocks := [fog, palette] }

/-- The positions of the palette and of the fog. -/
def paintedPositions : PerStage (List (Option Nat)) :=
  ⟨[some 0, none], [none, none], [some 1, some 0]⟩

theorem painted_exact : (∀ stage shader, painted.get stage = some shader →
      (shader.uniformBlocks.map (·.name)).Nodup) ∧
    ofProgram painted = .ok ([palette, fog], paintedPositions) ∧
    TabulatedBy painted [palette, fog] paintedPositions := by
  have distinct : ∀ stage shader, painted.get stage = some shader →
      (shader.uniformBlocks.map (·.name)).Nodup := by
    rintro (- | - | -) _ ⟨⟩ <;> decide
  have tabulates : ofProgram painted = .ok ([palette, fog], paintedPositions) := by rfl
  exact ⟨distinct, tabulates, (ofProgram_exact painted distinct).2.2 _ _ tabulates⟩

end UniformBlock
end StageLink
