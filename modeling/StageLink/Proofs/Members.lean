import StageLink.Proofs.BlockTable
import StageLink.Proofs.Lasting

/-!
# Members of uniform blocks

A uniform block without an instance is met twice in a program: as a block of the table, which is
laid out before the arrays of an executable get their sizes, and as one variable for each member.
If no array is left to be sized then the two agree to the end, and the block has room for every
element of its members.
-/

namespace StageLink

/-- The name of the uniform block of which a variable is a member, if the block has no instance. -/
def Variable.unnamedBlock? (declared : Variable) : Option String :=
  if declared.isInUniformBlock && declared.ty.interface?.isNone then
    declared.interfaceType.bind (·.name?)
  else
    none

/-- A variable of a uniform block has a length if it is an array, and as a member without an
instance it has the type that a block of one of the units declares. -/
def Variable.Filed (units : List Shader) (declared : Variable) : Prop :=
  declared.isInUniformBlock = true → declared.ty.isUnsizedArray = false ∧
    ∀ block ∈ declared.unnamedBlock?, ∃ unit ∈ units,
      UniformBlock.typeAmong? unit.uniformBlocks block declared.name = some declared.ty

namespace Variable

variable {units : List Shader} {one other : Variable}

/-! ## Variables that change -/

theorem isInUniformBlock_iff {declared : Variable} : declared.isInUniformBlock = true ↔
    declared.mode = .uniform ∧ declared.interfaceType.isSome = true := by
  simp [isInUniformBlock]

theorem filed_of_instance {declared : Variable} (sized : declared.ty.isUnsizedArray = false)
    (is_instance : declared.ty.interface?.isSome = true) : declared.Filed units := by
  refine fun _ => ⟨sized, ?_⟩
  simp [unnamedBlock?, Option.isSome_iff_ne_none.mp is_instance]

theorem Filed.keepsExtent (filed : one.Filed units) (keeps : one.KeepsExtent other) :
    other.Filed units := by
  intro in_block
  obtain ⟨is_uniform, has_block⟩ := isInUniformBlock_iff.mp in_block
  have was_in_block : one.isInUniformBlock = true :=
    isInUniformBlock_iff.mpr ⟨keeps.uniform is_uniform, keeps.interfaceType ▸ has_block⟩
  obtain ⟨sized, typed⟩ := filed was_in_block
  have same := keeps.ty sized
  have same_block : other.unnamedBlock? = one.unnamedBlock? := by
    rw [unnamedBlock?, unnamedBlock?, in_block, was_in_block, same, keeps.interfaceType]
  rw [same, same_block, keeps.name]
  exact ⟨sized, typed⟩

/-- Only the block of the second variable may differ from that of the first, but not in its name. -/
structure KeepsBlock (one other : Variable) : Prop where
  same : other = { one with interfaceType := other.interfaceType }
  block : other.interfaceType.map (·.name?) = one.interfaceType.map (·.name?)

namespace KeepsBlock

theorem refl (declared : Variable) : declared.KeepsBlock declared := ⟨rfl, rfl⟩

theorem trans (one other last : Variable) (before : one.KeepsBlock other)
    (after : other.KeepsBlock last) : one.KeepsBlock last := by
  refine ⟨?_, after.block.trans before.block⟩
  rw [after.same, before.same]

end KeepsBlock

theorem Filed.keepsBlock (filed : one.Filed units) (keeps : one.KeepsBlock other) :
    other.Filed units := by
  have same_in_block : other.isInUniformBlock = one.isInUniformBlock := by
    have named := congrArg Option.isSome keeps.block
    simp only [Option.isSome_map] at named
    rw [isInUniformBlock, isInUniformBlock, named, keeps.same]
  have same_block : other.unnamedBlock? = one.unnamedBlock? := by
    have bound : other.interfaceType.bind (·.name?) = one.interfaceType.bind (·.name?) := by
      have named := keeps.block
      revert named
      cases other.interfaceType <;> cases one.interfaceType <;> simp
    have same_ty : other.ty = one.ty := by rw [keeps.same]
    rw [unnamedBlock?, unnamedBlock?, same_in_block, bound, same_ty]
  intro in_block
  have found := filed (same_in_block ▸ in_block)
  have same_name : other.name = one.name := by rw [keeps.same]
  have same_ty : other.ty = one.ty := by rw [keeps.same]
  rw [same_block, same_ty, same_name]
  exact found

end Variable

/-! ## Sizing -/

namespace ArraySize

open Variable

variable {units : List Shader} {shader result : Shader}

theorem sized_of_sized {ty : Ty} (has_length : ty.isUnsizedArray = false) (highest : Nat) :
    sized highest ty = ty := by
  rw [sized, if_neg (by simp [has_length])]

@[simp]
theorem interface?_sized (highest : Nat) (ty : Ty) :
    (sized highest ty).interface? = ty.interface? := by
  unfold sized
  split
  · cases ty with
    | array element _ => cases element <;> rfl
    | _ => rfl
  · rfl

theorem sizedMembers?_eq_some {highest : List Nat} {ty definition : Ty}
    (sizes : sizedMembers? highest ty = some definition) : ∃ name fields sized_fields packing,
      ty = .interface name fields packing ∧ definition = .interface name sized_fields packing := by
  unfold sizedMembers? at sizes
  split at sizes
  · split at sizes
    · obtain rfl := Option.some.inj sizes
      exact ⟨_, _, _, _, rfl, rfl⟩
    · cases sizes
  · cases sizes

/-- A sized variable has got a length at most, or it is an instance of a block whose members have
been sized. -/
theorem sizedVariable_cases (declared : Variable) :
    sizedVariable declared = { declared with ty := sized declared.maxArrayAccess declared.ty } ∨
      declared.ty.interface?.isSome = true ∧ ∃ ty definition, ty.interface?.isSome = true ∧
        ty.isUnsizedArray = false ∧
        sizedVariable declared = { declared with ty := ty, interfaceType := some definition } := by
  rw [← interface?_sized declared.maxArrayAccess]
  unfold sizedVariable
  dsimp only
  generalize sized declared.maxArrayAccess declared.ty = ty
  split
  · split
    · next definition sizes =>
        obtain ⟨_, _, _, _, -, rfl⟩ := sizedMembers?_eq_some sizes
        exact .inr ⟨rfl, _, _, rfl, rfl, rfl⟩
    · exact .inl rfl
  · next element length =>
      split
      · next definition sizes =>
          obtain ⟨_, _, _, _, rfl, rfl⟩ := sizedMembers?_eq_some sizes
          exact .inr ⟨rfl, .sizedArray _ _, _, rfl, rfl, rfl⟩
      · exact .inl rfl
  · exact .inl rfl

/-- A variable that is no instance of a block gets a length at most. -/
theorem sizedVariable_of_noInstance {declared : Variable}
    (no_instance : declared.ty.interface? = none) :
    sizedVariable declared = { declared with ty := sized declared.maxArrayAccess declared.ty } := by
  rcases sizedVariable_cases declared with lengthened | ⟨is_instance, -⟩
  · exact lengthened
  · rw [no_instance] at is_instance
    cases is_instance

theorem filed_sizedVariable {declared : Variable} (filed : declared.Filed units) :
    (sizedVariable declared).Filed units := by
  rcases sizedVariable_cases declared with lengthened | ⟨-, ty, definition, is_instance,
    has_length, same⟩
  · rw [lengthened]
    intro in_block
    have in_block : declared.isInUniformBlock = true := in_block
    rw [sized_of_sized (filed in_block).1]
    exact filed in_block
  · rw [same]
    exact filed_of_instance has_length is_instance

/-- The members of every group are no instances, and their blocks have the name of the group's. -/
def Grouped (shader : Shader) (groups : List Group) : Prop :=
  ∀ group ∈ groups, ∀ id, some id ∈ group.members → ∃ declared,
    shader.vars.get? id = some declared ∧ declared.ty.interface? = none ∧
      declared.interfaceType.map (·.name?) = some group.definition.name?

theorem Grouped.revised {before after : Shader} {groups : List Group}
    (grouped : Grouped before groups) {relation : Variable → Variable → Prop}
    (revised : Shader.Revised relation before after)
    (keeps : ∀ one other, relation one other → one.ty.interface? = none →
      other.ty.interface? = none ∧
        other.interfaceType.map (·.name?) = one.interfaceType.map (·.name?)) :
    Grouped after groups := by
  intro group listed id member
  obtain ⟨declared, was, no_instance, named⟩ := grouped group listed id member
  obtain ⟨revised_variable, now, related⟩ := revised.related was
  obtain ⟨no_instance_now, same⟩ := keeps _ _ related no_instance
  exact ⟨revised_variable, now, no_instance_now, same.trans named⟩

theorem mem_noteMember {definition : Ty} {field : Nat} {id : VariableId} {groups : List Group} :
    ∀ group ∈ noteMember definition field id groups, ∀ other, some other ∈ group.members →
      (other = id ∧ group.definition = definition) ∨
        ∃ old ∈ groups, some other ∈ old.members ∧ group.definition = old.definition := by
  have noted : ∀ (members : List (Option VariableId)) other,
      some other ∈ members.set field (some id) → other = id ∨ some other ∈ members := by
    intro members other member
    rcases List.mem_or_eq_of_mem_set member with old | new
    · exact .inr old
    · exact .inl (Option.some.inj new)
  induction groups with
  | nil =>
      intro group listed other member
      obtain rfl := List.mem_singleton.mp listed
      rcases noted _ other member with rfl | none_there
      · exact .inl ⟨rfl, rfl⟩
      · exact absurd (List.eq_of_mem_replicate none_there) (by simp)
  | cons first rest ih =>
      intro group listed other member
      rw [noteMember] at listed
      split at listed
      · next same =>
          rcases List.mem_cons.mp listed with rfl | later
          · rcases noted _ other member with rfl | old
            · exact .inl ⟨rfl, same⟩
            · exact .inr ⟨first, List.mem_cons_self .., old, rfl⟩
          · exact .inr ⟨group, List.mem_cons_of_mem _ later, member, rfl⟩
      · rcases List.mem_cons.mp listed with rfl | later
        · exact .inr ⟨group, List.mem_cons_self .., member, rfl⟩
        · refine (ih group later other member).imp_right ?_
          rintro ⟨old, in_rest, was_member, same⟩
          exact ⟨old, List.mem_cons_of_mem _ in_rest, was_member, same⟩

theorem sizeVariables_grouped {ids : List VariableId} :
    ∀ {shader result : Shader} {groups found : List Group}, Grouped shader groups →
      sizeVariables shader groups ids = .ok (result, found) → Grouped result found := by
  induction ids with
  | nil =>
      intro shader result groups found grouped runs
      obtain ⟨rfl, rfl⟩ : shader = result ∧ groups = found := by
        simpa [sizeVariables] using runs
      exact grouped
  | cons id ids ih =>
      intro shader result groups found grouped runs
      rw [sizeVariables] at runs
      obtain ⟨declared, fetched, following⟩ := Checked.bind_eq_ok.mp runs
      have was := Shader.fetchVariable_eq_ok.mp fetched
      have resized :
        Shader.Revised (fun one other => other = one ∨ other = sizedVariable one) shader
          (shader.modifyVariable id fun _ => sizedVariable declared) := by
        refine Shader.revised_modifyVariable (fun _ => .inl rfl) fun other here => ?_
        exact .inr (by rw [Option.some.inj (was.symm.trans here)])
      have grouped_now := grouped.revised resized fun one other related no_instance => by
        rcases related with rfl | rfl
        · exact ⟨no_instance, rfl⟩
        · rw [sizedVariable_of_noInstance no_instance]
          exact ⟨by rw [interface?_sized, no_instance], rfl⟩
      dsimp only at following
      split at following
      · next definition field belongs =>
          refine ih (fun group listed other member => ?_) following
          rcases mem_noteMember group listed other member with ⟨rfl, same⟩ | ⟨old, in_old,
            was_member, same⟩
          · unfold membership? at belongs
            split at belongs
            · cases belongs
            · next no_instance =>
                obtain ⟨block, is_block, placed⟩ := Option.bind_eq_some_iff.mp belongs
                obtain ⟨_, -, equal⟩ := Option.map_eq_some_iff.mp placed
                obtain ⟨rfl, -⟩ := Prod.mk.inj equal
                refine ⟨sizedVariable declared, ?_, by simpa using no_instance, ?_⟩
                · rw [Shader.modifyVariable, Arena.get?_modify, was]
                  simp
                · rw [is_block, same]
                  rfl
          · rw [same]
            exact grouped_now old in_old other was_member
      · exact ih grouped_now following

/-- Storing a block type on variables whose blocks have its name changes no block's name. -/
theorem revised_restore {definition : Ty} {ids : List VariableId} :
    ∀ {shader : Shader}, (∀ id ∈ ids, ∃ declared, shader.vars.get? id = some declared ∧
        declared.interfaceType.map (·.name?) = some definition.name?) →
      Shader.Revised KeepsBlock shader (ids.foldl (fun shader member =>
        shader.modifyVariable member fun declared =>
          { declared with interfaceType := some definition }) shader) := by
  induction ids with
  | nil => exact fun _ => .refl .refl _
  | cons id ids ih =>
      intro shader named
      have restored : Shader.Revised KeepsBlock shader (shader.modifyVariable id fun declared =>
          { declared with interfaceType := some definition }) := by
        refine Shader.revised_modifyVariable .refl fun other here => ⟨rfl, ?_⟩
        obtain ⟨declared, was, block⟩ := named id (List.mem_cons_self ..)
        obtain rfl := Option.some.inj (was.symm.trans here)
        exact block.symm
      refine restored.trans .trans (ih fun later listed => ?_)
      obtain ⟨declared, was, block⟩ := named later (List.mem_cons_of_mem id listed)
      obtain ⟨now, is_now, keeps⟩ := restored.related was
      exact ⟨now, is_now, keeps.block.trans block⟩

theorem rebuildGroup_keepsBlock {groups : List Group} (grouped : Grouped shader groups)
    {group : Group} (listed : group ∈ groups) :
    Shader.Revised KeepsBlock shader (rebuildGroup shader group) := by
  unfold rebuildGroup
  split
  · next name fields packing is_interface =>
      dsimp only
      split
      · exact .refl .refl _
      · refine revised_restore fun id member => ?_
        obtain ⟨declared, was, -, named⟩ := grouped group listed id (by simpa using member)
        exact ⟨declared, was, by rw [named, is_interface]; rfl⟩
  · exact .refl .refl _

theorem rebuildGroups_keepsBlock {groups all : List Group} (fewer : groups ⊆ all) :
    ∀ {shader : Shader}, Grouped shader all →
      Shader.Revised KeepsBlock shader (groups.foldl rebuildGroup shader) := by
  induction groups with
  | nil => exact fun _ => .refl .refl _
  | cons group groups ih =>
      intro shader grouped
      obtain ⟨listed, fewer_later⟩ := List.cons_subset.mp fewer
      have rebuilt := rebuildGroup_keepsBlock grouped listed
      refine rebuilt.trans .trans (ih fewer_later (grouped.revised rebuilt ?_))
      exact fun one other keeps no_instance =>
        ⟨by rw [keeps.same]; exact no_instance, keeps.block⟩

theorem sizeArrays_filed (runs : sizeArrays shader = .ok result) :
    Shader.Revised (fun one other => one.Filed units → other.Filed units) shader result := by
  obtain ⟨ids, -, following⟩ := Checked.bind_eq_ok.mp runs
  obtain ⟨⟨sized, groups⟩, sizing, finish⟩ := Checked.bind_eq_ok.mp following
  obtain rfl := Checked.pure_eq_ok.mp finish
  have sized_filed : Shader.Revised (fun one other => one.Filed units → other.Filed units)
      shader sized := Merge.sizeVariables_revised (fun _ filed => filed)
    (fun _ _ _ first second filed => second (first filed)) (fun _ => filed_sizedVariable) sizing
  have grouped : Grouped sized groups :=
    sizeVariables_grouped (fun _ listed => absurd listed List.not_mem_nil) sizing
  exact sized_filed.trans (fun _ _ _ first second filed => second (first filed))
    ((rebuildGroups_keepsBlock (List.Subset.refl _) grouped).imp
      fun _ _ keeps filed => filed.keepsBlock keeps)

theorem fitInput_filed {vertices : Nat} {declared fitted : Variable}
    (fits : fitInput vertices declared = .ok fitted) (filed : declared.Filed units) :
    fitted.Filed units := by
  obtain rfl | ⟨is_input, -, -, rfl⟩ := Merge.fitInput_eq_ok fits
  · exact filed
  · intro in_block
    obtain ⟨is_uniform, -⟩ := isInUniformBlock_iff.mp in_block
    have is_uniform : declared.mode = .uniform := is_uniform
    rw [is_uniform] at is_input
    cases is_input

end ArraySize
end StageLink
