import StageLink.Proofs.Bytes
import StageLink.Proofs.Runs
import StageLink.UniformBlock.Table

/-!
# Tables of uniform blocks

A table that takes blocks in declares every member with the type that the blocks give it, since
blocks of one name are defined alike; laying blocks out changes no type.  In a block that has been
laid out every member lies inside, and with it every element of a member that is an array.
-/

namespace StageLink
namespace UniformBlock

/-! ## Types of members -/

/-- The type that a block declares for a member. -/
def memberType? (block : UniformBlock) (name : String) : Option Ty :=
  (block.members.find? (·.name = name)).map (·.ty)

/-- The type that the block of a name among some blocks declares for a member. -/
def typeAmong? (blocks : List UniformBlock) (block name : String) : Option Ty :=
  (blocks.find? (·.name = block)).bind (·.memberType? name)

/-- What some blocks declare for a member is declared among other blocks, too. -/
def Covered (blocks others : List UniformBlock) : Prop :=
  ∀ block name ty, typeAmong? blocks block name = some ty → typeAmong? others block name = some ty

theorem Covered.trans {first second third : List UniformBlock} (before : Covered first second)
    (after : Covered second third) : Covered first third :=
  fun block name ty declares => after block name ty (before block name ty declares)

theorem memberType?_of_sameDefinition {one other : UniformBlock}
    (same : one.sameDefinition other = true) (name : String) :
    one.memberType? name = other.memberType? name := by
  simp only [sameDefinition, Bool.and_eq_true, decide_eq_true_eq] at same
  obtain ⟨⟨-, lengths⟩, alike⟩ := same
  unfold memberType?
  revert lengths alike
  generalize one.members = members
  generalize other.members = others
  intro alike lengths
  induction members generalizing others with
  | nil => rw [List.eq_nil_of_length_eq_zero lengths.symm]
  | cons member members ih =>
      cases others with
      | nil => simp at lengths
      | cons first rest =>
          rw [List.zip_cons_cons, List.all_cons, Bool.and_eq_true] at alike
          obtain ⟨here, later⟩ := alike
          have follows := ih rest later (by simpa using lengths)
          simp only [BlockMember.sameDefinition, decide_eq_true_eq] at here
          obtain ⟨named, typed, -⟩ := here
          by_cases found : first.name = name
          · simp [named, found, typed]
          · simpa [List.find?_cons, named, found] using follows

/-! ## Entering blocks -/

/-- A block that is entered is declared in the table, and nothing is lost. -/
theorem enter_eq_ok {table result : List UniformBlock} {block : UniformBlock}
    (enters : enter table block = .ok result) :
    Covered table result ∧ Covered [block] result ∧ result ⊆ table ++ [block] := by
  unfold enter at enters
  split at enters
  · next unknown =>
      obtain rfl := Except.ok.inj enters
      refine ⟨fun name member ty declares => ?_, fun name member ty declares => ?_,
        List.Subset.refl _⟩
      · obtain ⟨found, is_found, typed⟩ := Option.bind_eq_some_iff.mp declares
        rw [typeAmong?, List.find?_append, is_found]
        exact typed
      · obtain ⟨found, is_found, typed⟩ := Option.bind_eq_some_iff.mp declares
        have here : block.name = name ∧ block = found := by simpa using is_found
        obtain ⟨rfl, rfl⟩ := here
        rw [typeAmong?, List.find?_append, unknown]
        simpa using typed
  · next existing is_existing =>
      split at enters
      · next same =>
          obtain rfl := Except.ok.inj enters
          refine ⟨fun _ _ _ declares => declares, fun name member ty declares => ?_,
            List.subset_append_left ..⟩
          obtain ⟨found, is_found, typed⟩ := Option.bind_eq_some_iff.mp declares
          have here : block.name = name ∧ block = found := by simpa using is_found
          obtain ⟨rfl, rfl⟩ := here
          rw [typeAmong?, is_existing, Option.bind_some, memberType?_of_sameDefinition same]
          exact typed
      · cases enters

theorem enterAll_eq_ok {blocks : List UniformBlock} :
    ∀ {table result : List UniformBlock}, enterAll table blocks = .ok result →
      Covered table result ∧ (∀ block ∈ blocks, Covered [block] result) ∧
        result ⊆ table ++ blocks := by
  induction blocks with
  | nil =>
      intro table result enters
      obtain rfl := Except.ok.inj enters
      exact ⟨fun _ _ _ declares => declares, by simp, by simp⟩
  | cons block blocks ih =>
      intro table result enters
      obtain ⟨extended, enters_first, enters_rest⟩ := except_bind_eq_ok.mp enters
      obtain ⟨kept, entered, from_first⟩ := enter_eq_ok enters_first
      obtain ⟨kept_later, entered_later, from_rest⟩ := ih enters_rest
      refine ⟨kept.trans kept_later, fun other listed => ?_, fun other listed => ?_⟩
      · rcases List.mem_cons.mp listed with rfl | later
        · exact entered.trans kept_later
        · exact entered_later other later
      · rcases List.mem_append.mp (from_rest listed) with early | late
        · rcases List.mem_append.mp (from_first early) with old | new
          · exact List.mem_append_left _ old
          · rw [List.mem_singleton.mp new]
            exact List.mem_append_right _ (List.mem_cons_self ..)
        · exact List.mem_append_right _ (List.mem_cons_of_mem block late)

theorem covered_of_enterAll {blocks listed result : List UniformBlock}
    (enters : enterAll [] listed = .ok result) (fewer : blocks ⊆ listed) :
    Covered blocks result := by
  obtain ⟨-, entered, -⟩ := enterAll_eq_ok enters
  intro block name ty declares
  obtain ⟨found, is_found, typed⟩ := Option.bind_eq_some_iff.mp declares
  have named : found.name = block := by simpa using List.find?_some is_found
  refine entered found (fewer (List.mem_of_find?_eq_some is_found)) block name ty ?_
  simpa [typeAmong?, named] using typed

/-! ## Laying blocks out -/

/-- The block has been given its offsets and its size. -/
def LaidOut (block : UniformBlock) : Prop := ∃ bare : UniformBlock, block = bare.layout

theorem find?_placeMembers (name : String) {members : List BlockMember} :
    ∀ offset, ((Std140.placeMembers offset members).1.find? (·.name = name)).map (·.ty) =
      (members.find? (·.name = name)).map (·.ty) := by
  induction members with
  | nil => exact fun _ => rfl
  | cons member members ih =>
      intro offset
      by_cases here : member.name = name
      · simp [Std140.placeMembers, here]
      · simpa [Std140.placeMembers, here] using ih _

@[simp]
theorem memberType?_layout (block : UniformBlock) (name : String) :
    block.layout.memberType? name = block.memberType? name :=
  find?_placeMembers name 0

theorem layoutAll_eq_ok {limit : Nat} {blocks : List UniformBlock} :
    ∀ {result : List UniformBlock}, layoutAll limit blocks = .ok result →
      result = blocks.map layout := by
  induction blocks with
  | nil =>
      intro result lays
      obtain rfl := Except.ok.inj lays
      rfl
  | cons block blocks ih =>
      intro result lays
      rw [layoutAll] at lays
      split at lays
      · cases lays
      · obtain ⟨rest, lays_rest, finish⟩ := except_bind_eq_ok.mp lays
        obtain rfl := Except.ok.inj finish
        rw [ih lays_rest, List.map_cons]

theorem typeAmong?_layout (blocks : List UniformBlock) (block name : String) :
    typeAmong? (blocks.map layout) block name = typeAmong? blocks block name := by
  induction blocks with
  | nil => rfl
  | cons first rest ih =>
      have named : first.layout.name = first.name := rfl
      by_cases here : first.name = block
      · simp [typeAmong?, named, here]
      · simpa [typeAmong?, named, here] using ih

theorem ofUnits_eq_ok {limit : Nat} {units : List Shader} {blocks : List UniformBlock}
    (merges : ofUnits limit units = .ok blocks) :
    (∀ unit ∈ units, Covered unit.uniformBlocks blocks) ∧ ∀ block ∈ blocks, block.LaidOut := by
  obtain ⟨table, enters, lays⟩ := except_bind_eq_ok.mp merges
  obtain rfl := layoutAll_eq_ok lays
  refine ⟨fun unit listed block name ty declares => ?_, fun block listed => ?_⟩
  · rw [typeAmong?_layout]
    exact covered_of_enterAll enters
      (fun block inside => List.mem_flatMap.mpr ⟨unit, listed, inside⟩) block name ty declares
  · obtain ⟨bare, -, rfl⟩ := List.mem_map.mp listed
    exact ⟨bare, rfl⟩

/-- The table of a program declares what the blocks of its executables do, and has no other
blocks. -/
theorem ofProgram_eq_ok {executables : PerStage (Option Shader)} {table : List UniformBlock}
    {positions : PerStage (List (Option Nat))}
    (tables : ofProgram executables = .ok (table, positions)) :
    (∀ stage shader, executables.get stage = some shader → Covered shader.uniformBlocks table) ∧
      ∀ block ∈ table, ∃ stage shader, executables.get stage = some shader ∧
        block ∈ shader.uniformBlocks := by
  obtain ⟨found, enters, finish⟩ := except_bind_eq_ok.mp tables
  obtain ⟨rfl, -⟩ := Prod.mk.inj (Except.ok.inj finish)
  have listed_iff : ∀ block, block ∈ (executables.map fun executable =>
      (executable.map Shader.uniformBlocks).getD []).toList.flatMap id ↔
      ∃ stage shader, executables.get stage = some shader ∧ block ∈ shader.uniformBlocks := by
    intro block
    have there : ∀ executable : Option Shader,
        block ∈ (executable.map Shader.uniformBlocks).getD [] ↔
          ∃ shader, executable = some shader ∧ block ∈ shader.uniformBlocks := by
      intro executable
      cases executable <;> simp
    simp only [PerStage.map, PerStage.toList, List.mem_flatMap, List.mem_cons, List.not_mem_nil,
      or_false, exists_eq_or_imp, exists_eq_left, id_eq, there]
    constructor
    · rintro (found | found | found)
      · exact ⟨.vertex, found⟩
      · exact ⟨.geometry, found⟩
      · exact ⟨.fragment, found⟩
    · rintro ⟨stage, found⟩
      cases stage with
      | vertex => exact .inl found
      | geometry => exact .inr (.inl found)
      | fragment => exact .inr (.inr found)
  obtain ⟨-, -, no_others⟩ := enterAll_eq_ok enters
  refine ⟨fun stage shader found => ?_, fun block listed => ?_⟩
  · exact covered_of_enterAll enters fun block listed =>
      (listed_iff block).mpr ⟨stage, shader, found, listed⟩
  · exact (listed_iff block).mp (by simpa using no_others listed)

end UniformBlock

/-! ## Room for members -/

namespace Std140

theorem element_inside (rowMajor : Bool) (element : Ty) {length : Option Nat} {index : Nat}
    (inside : index < length.getD 0) :
    stride rowMajor element * index + bytes rowMajor element ≤
      bytes rowMajor (.array element length) := by
  have fits := bytes_le_stride rowMajor element
  have enough : stride rowMajor element * (index + 1) ≤
      stride rowMajor element * max (length.getD 0) 1 := Nat.mul_le_mul_left _ (by omega)
  rw [Nat.mul_succ] at enough
  rw [bytes, ← stride, Nat.mul_comm (max _ _)]
  exact Nat.le_trans (Nat.add_le_add_left fits _) enough

/-- Members are placed before the final offset. -/
theorem placeMembers_inside {members : List BlockMember} : ∀ start : Nat,
    bytesBehind start (members.map BlockMember.field) < UInt32.size →
      start ≤ (placeMembers start members).2 ∧ ∀ member ∈ (placeMembers start members).1,
        member.offset + bytes member.rowMajor member.ty ≤ (placeMembers start members).2 := by
  induction members with
  | nil => simp [placeMembers]
  | cons member members ih =>
      intro start fits
      have begins := le_leastMultiple (baseAlignment_pos member.ty) start
      obtain ⟨fits_behind, places⟩ := placeMembers_cons fits
      obtain ⟨rest, inside⟩ := ih _ fits_behind
      rw [places]
      refine ⟨by dsimp only; omega, fun other listed => ?_⟩
      rcases List.mem_cons.mp listed with rfl | later
      · exact rest
      · exact inside other later

/-- Placing members changes none of their declarations. -/
theorem placeMembers_fields (members : List BlockMember) : ∀ start : Nat,
    (placeMembers start members).1.map BlockMember.field = members.map BlockMember.field := by
  induction members with
  | nil => exact fun _ => rfl
  | cons member members ih =>
      intro start
      rw [placeMembers, List.map_cons, List.map_cons, ih]
      rfl

end Std140

namespace UniformBlock

/-- The block has room for a variable: its member of that name has the variable's type and lies
inside, and so does every element if it is an array. -/
structure HasRoom (block : UniformBlock) (declared : Variable) (member : BlockMember) : Prop where
  found : block.members.find? (·.name = declared.name) = some member
  ty : member.ty = declared.ty
  inside : member.offset + Std140.bytes member.rowMajor declared.ty ≤ block.size
  elements : ∀ element length index, declared.ty = .array element length → index < length.getD 0 →
    member.offset + Std140.stride member.rowMajor element * index +
      Std140.bytes member.rowMajor element ≤ block.size

/-- Laying a block out does not change how many bytes the rules give it. -/
theorem bytes_layout (block : UniformBlock) : block.layout.bytes = block.bytes :=
  congrArg (fun fields => Std140.leastMultiple 16 (Std140.bytesBehind 0 fields))
    (Std140.placeMembers_fields block.members 0)

/-- A block that has been laid out has room for a variable of the type that it declares, if its
bytes are words. -/
theorem LaidOut.hasRoom {block : UniformBlock} (laid_out : block.LaidOut)
    (fits : block.bytes < UInt32.size) {declared : Variable}
    (typed : block.memberType? declared.name = some declared.ty) :
    ∃ member, block.HasRoom declared member := by
  obtain ⟨member, found, same⟩ := Option.map_eq_some_iff.mp typed
  have inside : member.offset + Std140.bytes member.rowMajor declared.ty ≤ block.size := by
    obtain ⟨bare, rfl⟩ := laid_out
    rw [bytes_layout] at fits
    have behind := Nat.lt_of_le_of_lt (Std140.le_leastMultiple (by decide) _) fits
    have final := Std140.placeMembers_final bare.members 0 behind
    rw [← same]
    refine Nat.le_trans ((Std140.placeMembers_inside 0 behind).2 member
      (List.mem_of_find?_eq_some found)) ?_
    show _ ≤ Std140.roundUp (Std140.placeMembers 0 bare.members).2 16
    rw [final, Std140.roundUp_of_lt fits]
    exact Std140.le_leastMultiple (by decide) _
  refine ⟨member, found, same, inside, fun element length index is_array short => ?_⟩
  have placed := Std140.element_inside member.rowMajor element short
  rw [is_array] at inside
  omega

end UniformBlock
end StageLink
