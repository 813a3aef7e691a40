import StageLink.Proofs.Accesses
import StageLink.Proofs.Assembling
import StageLink.Proofs.Members

/-!
# Sized arrays

Once the arrays of a shader have been sized, nothing that was reached is implicitly sized.  What is
reached are the variables declared anywhere and the parameters of the functions declared at the top
level.  The members of an unnamed block find each other by their equal block types, so that all of
them carry one type again, rebuilt from what each of them has become, as long as no two variables
with block types share a name.

That two members of one block never fall on the same field is what the groups of members need: then
a group holds for each field whoever stands for it, in whatever order the members are met.
-/

namespace StageLink

/-! ## What has been sized -/

namespace Ty

/-- The second type is the first, which has been given a length if it was an array without one. -/
structure Lengthens (highest : Nat) (was now : Ty) : Prop where
  has_length : now.isUnsizedArray = false
  lengthened : ∀ element, was = .unsizedArray element → now = .sizedArray element (highest + 1)
  kept : was.isUnsizedArray = false → now = was

/-- The second fields are the first, each of which has been given a length if it was an array
without one.  Where no index is known for a field, the highest is zero. -/
structure LengthensFields (highest : List Nat) (was now : List (Field Ty)) : Prop where
  length : now.length = was.length
  each : ∀ {position : Nat} {field : Field Ty}, was[position]? = some field → ∃ ty,
    now[position]? = some { field with ty := ty } ∧
      field.ty.Lengthens ((highest[position]?).getD 0) ty

end Ty

namespace Variable

/-- Words can say the lengths that the highest indices on a variable and on its members ask for. -/
structure Counted (declared : Variable) : Prop where
  elements : declared.maxArrayAccess + 1 < UInt32.size
  members : ∀ highest ∈ declared.maxMemberAccess, highest + 1 < UInt32.size

instance (declared : Variable) : Decidable declared.Counted :=
  decidable_of_iff (_ ∧ _)
    ⟨fun ⟨elements, members⟩ => ⟨elements, members⟩, fun counted =>
      ⟨counted.elements, counted.members⟩⟩

/-- The second variable is the first after it has been sized.  An instance of a block, or an array
of instances, has its members sized, and its block type is replaced with its type. -/
structure Sizes (was now : Variable) : Prop where
  same : now = { was with ty := now.ty, interfaceType := now.interfaceType }
  has_length : now.ty.isUnsizedArray = false
  length : was.ty.isUnsizedArray = true → now.ty.length? = some (was.maxArrayAccess + 1)
  plain : was.ty.interface? = none → was.ty.Lengthens was.maxArrayAccess now.ty
  block : ∀ name fields packing, was.ty.interface? = some (.interface name fields packing) →
    ∃ sized, Ty.LengthensFields was.maxMemberAccess fields sized ∧
      (was.ty = .interface name fields packing → now.ty = .interface name sized packing) ∧
      (∀ length, was.ty = .array (.interface name fields packing) length →
        now.ty = .sizedArray (.interface name sized packing)
          (length.getD (was.maxArrayAccess + 1))) ∧
      now.interfaceType =
        if fields.any (·.ty.isUnsizedArray) then some (.interface name sized packing)
        else was.interfaceType

/-- The variable stands for a field of an unnamed block. -/
structure IsMember (definition : Ty) (field : Nat) (declared : Variable) : Prop where
  no_instance : declared.ty.interface? = none
  block : declared.interfaceType = some definition
  named : definition.fieldIndex? declared.name = some field

theorem IsMember.exists_field {definition : Ty} {field : Nat} {declared : Variable}
    (is_member : declared.IsMember definition field) :
    ∃ placed, definition.fields[field]? = some placed ∧ placed.name = declared.name := by
  obtain ⟨inside, named, -⟩ := List.findIdx?_eq_some_iff_getElem.mp is_member.named
  exact ⟨_, List.getElem?_eq_getElem inside, by simpa using named⟩

end Variable

namespace Shader

/-- The variables declared anywhere, and the parameters of the functions declared at the top
level. -/
def sizable (shader : Shader) : List VariableId :=
  declaredIn shader.nodes ++
    shader.declaredFunctions.flatMap fun id => (shader.signaturesOf id).flatMap (·.parameters)

/-- A variable that is to be sized stands for a field of an unnamed block. -/
def HasMember (shader : Shader) (definition : Ty) (field : Nat) (id : VariableId) : Prop :=
  id ∈ shader.sizable ∧
    ∃ declared, shader.vars.get? id = some declared ∧ declared.IsMember definition field

/-- All members of an unnamed block carry one block type after sizing, which has the types that the
members have got for the fields they stand for. -/
structure Rebuilds (before after : Shader) (name : String) (packing : Packing)
    (fields rebuilt : List (Field Ty)) : Prop where
  length : rebuilt.length = fields.length
  member : ∀ {field id}, before.HasMember (.interface name fields packing) field id →
    ∃ now placed, after.vars.get? id = some now ∧ fields[field]? = some placed ∧
      now.interfaceType = some (.interface name rebuilt packing) ∧
      rebuilt[field]? = some { placed with ty := now.ty }
  other : ∀ field, (∀ id, ¬ before.HasMember (.interface name fields packing) field id) →
    rebuilt[field]? = fields[field]?

/-- The second shader is the first after its arrays have been sized. -/
structure Sizes (before after : Shader) : Prop where
  same : after = { before with vars := after.vars }
  size : after.vars.size = before.vars.size
  other : ∀ id ∉ before.sizable, after.vars.get? id = before.vars.get? id
  each : ∀ id ∈ before.sizable, ∃ was now, before.vars.get? id = some was ∧
    after.vars.get? id = some now ∧ was.Sizes now ∧
    (was.ty.interface? = none → (∀ definition field, ¬ was.IsMember definition field) →
      now.interfaceType = was.interfaceType)
  blocks : ∀ name fields packing, ∃ rebuilt, before.Rebuilds after name packing fields rebuilt

/-- The variables that carry block types have names of their own. -/
def BlocksApart (shader : Shader) : Prop :=
  ∀ one ∈ shader.sizable, ∀ other ∈ shader.sizable, ∀ first ∈ shader.vars.get? one,
    ∀ second ∈ shader.vars.get? other, first.interfaceType.isSome = true →
      second.interfaceType.isSome = true → first.name = second.name → one = other

end Shader

namespace ArraySize

/-! ## Single variables -/

section Single

variable {highest : Nat} {ty : Ty} {declared : Variable} {name : String} {fields : List (Field Ty)}
  {packing : Packing}

theorem isUnsizedArray_sized (highest : Nat) (ty : Ty) :
    (sized highest ty).isUnsizedArray = false := by
  unfold sized
  split
  · cases ty <;> rfl
  · next has_length => simpa using has_length

theorem lengthens_sized (counted : highest + 1 < UInt32.size) (ty : Ty) :
    ty.Lengthens highest (sized highest ty) where
  has_length := isUnsizedArray_sized highest ty
  lengthened := by
    rintro element rfl
    exact congrArg (Ty.sizedArray element) (wrap_of_lt counted)
  kept has_length := sized_of_sized has_length highest

/-- The members of a block after they have been sized. -/
def sizedFields (highest : List Nat) (fields : List (Field Ty)) : List (Field Ty) :=
  fields.zipIdx.map fun pair => { pair.1 with ty := sized ((highest[pair.2]?).getD 0) pair.1.ty }

theorem getElem?_sizedFields (highest : List Nat) (fields : List (Field Ty)) (position : Nat) :
    (sizedFields highest fields)[position]? = fields[position]?.map fun field =>
      { field with ty := sized ((highest[position]?).getD 0) field.ty } := by
  simp [sizedFields, Function.comp_def]

theorem lengthens_sizedFields {highest : List Nat}
    (counted : ∀ index ∈ highest, index + 1 < UInt32.size) (fields : List (Field Ty)) :
    Ty.LengthensFields highest fields (sizedFields highest fields) := by
  refine ⟨by simp [sizedFields],
    fun {position field} placed => ⟨_, ?_, lengthens_sized ?_ field.ty⟩⟩
  · rw [getElem?_sizedFields, placed]
    rfl
  · cases known : highest[position]? with
    | none => decide
    | some index => exact counted index (List.mem_of_getElem? known)

theorem sizedFields_have_lengths (highest : List Nat) (fields : List (Field Ty)) :
    (sizedFields highest fields).any (·.ty.isUnsizedArray) = false := by
  simp [sizedFields, isUnsizedArray_sized]

/-- There is nothing to size if all members have lengths. -/
theorem sizedFields_of_lengths {highest : List Nat}
    (lengths : fields.any (·.ty.isUnsizedArray) = false) :
    sizedFields highest fields = fields := by
  refine List.ext_getElem? fun position => ?_
  rw [getElem?_sizedFields]
  cases placed : fields[position]? with
  | none => rfl
  | some field =>
      have has_length := List.any_eq_false.mp lengths field (List.mem_of_getElem? placed)
      rw [Option.map_some, sized_of_sized (by simpa using has_length)]

theorem sizedMembers?_interface (highest : List Nat) :
    sizedMembers? highest (.interface name fields packing) =
    if fields.any (·.ty.isUnsizedArray) then some
      (.interface name (sizedFields highest fields) packing)
    else none := rfl

theorem sizedVariable_of_block (is_block : declared.ty = .interface name fields packing) :
    sizedVariable declared = { declared with
      ty := .interface name (sizedFields declared.maxMemberAccess fields) packing
      interfaceType :=
        if fields.any (·.ty.isUnsizedArray) then
          some (.interface name (sizedFields declared.maxMemberAccess fields) packing)
        else declared.interfaceType } := by
  have still : sized declared.maxArrayAccess declared.ty = .interface name fields packing := by
    rw [is_block]
    exact sized_of_sized rfl _
  unfold sizedVariable
  dsimp only
  rw [still]
  dsimp only
  rw [sizedMembers?_interface]
  by_cases unsized : fields.any (·.ty.isUnsizedArray) = true
  · rw [if_pos unsized, if_pos unsized]
  · rw [if_neg unsized, if_neg unsized, sizedFields_of_lengths (by simpa using unsized)]

/-- Sizing the members of an array of instances replaces its block type with that of its
elements. -/
theorem sizedVariable_of_blocks {length : Option Nat}
    (is_array : declared.ty = .array (.interface name fields packing) length) :
    sizedVariable declared = { declared with
      ty := .sizedArray (.interface name (sizedFields declared.maxMemberAccess fields) packing)
        (length.getD (wrap (declared.maxArrayAccess + 1)))
      interfaceType :=
        if fields.any (·.ty.isUnsizedArray) then
          some (.interface name (sizedFields declared.maxMemberAccess fields) packing)
        else declared.interfaceType } := by
  have still : sized declared.maxArrayAccess declared.ty =
      .sizedArray (.interface name fields packing)
        (length.getD (wrap (declared.maxArrayAccess + 1))) := by
    rw [is_array]
    cases length with
    | none => rfl
    | some length => exact sized_of_sized rfl _
  unfold sizedVariable
  dsimp only
  rw [still]
  unfold Ty.sizedArray
  dsimp only
  rw [sizedMembers?_interface]
  by_cases unsized : fields.any (·.ty.isUnsizedArray) = true
  · rw [if_pos unsized, if_pos unsized]
    rfl
  · rw [if_neg unsized, if_neg unsized, sizedFields_of_lengths (by simpa using unsized)]

/-- A type that holds a block is the block, or an array of it. -/
theorem interface?_eq_some {definition : Ty} (holds : ty.interface? = some definition) :
    ∃ name fields packing, definition = .interface name fields packing ∧
      (ty = .interface name fields packing ∨
        ∃ length, ty = .array (.interface name fields packing) length) := by
  unfold Ty.interface? at holds
  split at holds
  · obtain rfl := Option.some.inj holds
    exact ⟨_, _, _, rfl, .inl rfl⟩
  · obtain rfl := Option.some.inj holds
    exact ⟨_, _, _, rfl, .inr ⟨_, rfl⟩⟩
  · cases holds

/-- What has been sized is not sized again. -/
theorem sizedVariable_sizedVariable (declared : Variable) :
    sizedVariable (sizedVariable declared) = sizedVariable declared := by
  cases holds : declared.ty.interface? with
  | none =>
      rw [sizedVariable_of_noInstance holds, sizedVariable_of_noInstance (by simpa using holds)]
      dsimp only
      rw [sized_of_sized (isUnsizedArray_sized ..)]
  | some definition =>
      obtain ⟨name, fields, packing, rfl, is_block | ⟨length, is_array⟩⟩ := interface?_eq_some holds
      · have lengths := sizedFields_have_lengths declared.maxMemberAccess fields
        rw [sizedVariable_of_block is_block, sizedVariable_of_block rfl]
        dsimp only
        rw [sizedFields_of_lengths lengths, lengths]
        rfl
      · have lengths := sizedFields_have_lengths declared.maxMemberAccess fields
        rw [sizedVariable_of_blocks is_array, sizedVariable_of_blocks rfl]
        dsimp only [Ty.sizedArray, Option.getD_some]
        rw [sizedFields_of_lengths lengths, lengths]
        rfl

theorem length_of_unsized (counted : declared.maxArrayAccess + 1 < UInt32.size)
    (unsized : declared.ty.isUnsizedArray = true) :
    (sizedVariable declared).ty.length? = some (declared.maxArrayAccess + 1) := by
  rw [length_sizedVariable, sized, if_pos unsized, Ty.length?_withLength, wrap_of_lt counted]
  cases ty_is : declared.ty with
  | array element length => rfl
  | _ => simp [ty_is, Ty.isUnsizedArray] at unsized

theorem sizes_sizedVariable (counted : declared.Counted) :
    declared.Sizes (sizedVariable declared) where
  same := by
    rcases sizedVariable_cases declared with lengthened | ⟨-, _, _, -, -, replaced⟩
    · rw [lengthened]
    · rw [replaced]
  has_length := by
    rcases sizedVariable_cases declared with lengthened | ⟨-, _, _, -, has_length, replaced⟩
    · rw [lengthened]
      exact isUnsizedArray_sized ..
    · rw [replaced]
      exact has_length
  length := length_of_unsized counted.elements
  plain no_instance := by
    rw [sizedVariable_of_noInstance no_instance]
    exact lengthens_sized counted.elements _
  block name fields packing holds := by
    obtain ⟨_, _, _, same, shape⟩ := interface?_eq_some holds
    cases same
    refine ⟨_, lengthens_sizedFields counted.members fields, fun is_block => ?_,
      fun extent is_array => ?_, ?_⟩
    · rw [sizedVariable_of_block is_block]
    · rw [sizedVariable_of_blocks is_array, wrap_of_lt counted.elements]
    · rcases shape with is_block | ⟨extent, is_array⟩
      · rw [sizedVariable_of_block is_block]
      · rw [sizedVariable_of_blocks is_array]

theorem membership?_eq_some {definition : Ty} {field : Nat} :
    membership? declared = some (definition, field) ↔ declared.IsMember definition field := by
  unfold membership?
  constructor
  · intro belongs
    split at belongs
    · cases belongs
    · next no_instance =>
        obtain ⟨block, is_block, placed⟩ := Option.bind_eq_some_iff.mp belongs
        obtain ⟨position, named, same⟩ := Option.map_eq_some_iff.mp placed
        obtain ⟨rfl, rfl⟩ := Prod.mk.inj same
        exact ⟨by simpa using no_instance, is_block, named⟩
  · rintro ⟨no_instance, is_block, named⟩
    rw [no_instance, is_block]
    simp [named]

/-- Sizing a variable does not change which field it stands for. -/
theorem membership?_sizedVariable (declared : Variable) :
    membership? (sizedVariable declared) = membership? declared := by
  rcases sizedVariable_cases declared with
    lengthened | ⟨is_instance, ty, definition, still_instance, -, same⟩
  · simp [lengthened, membership?]
  · simp [same, membership?, is_instance, still_instance]

end Single

/-! ## Groups of members -/

section Groups

variable {groups : List Group} {definition : Ty} {field : Nat} {id : VariableId}

/-- The member that stands for a field of an unnamed block. -/
def member? (groups : List Group) (definition : Ty) (field : Nat) : Option VariableId :=
  (groups.find? (·.definition = definition)).bind fun group => (group.members[field]?).join

/-- Every block has one group at most, with a place for each of its fields. -/
structure OneGroupEach (groups : List Group) : Prop where
  apart : (groups.map (·.definition)).Nodup
  room : ∀ group ∈ groups, group.members.length = group.definition.fields.length

theorem definitions_noteMember (definition : Ty) (field : Nat) (id : VariableId)
    (groups : List Group) :
    (noteMember definition field id groups).map (·.definition) =
      if definition ∈ groups.map (·.definition) then groups.map (·.definition)
      else groups.map (·.definition) ++ [definition] := by
  induction groups with
  | nil => rfl
  | cons group groups ih =>
      rw [noteMember]
      by_cases same : group.definition = definition
      · rw [if_pos same, if_pos (by simp [same])]
        rfl
      · rw [if_neg same, List.map_cons, ih, List.map_cons]
        by_cases among : definition ∈ groups.map (·.definition)
        · rw [if_pos among, if_pos (List.mem_cons_of_mem _ among)]
        · have fresh : definition ∉ group.definition :: groups.map (·.definition) :=
            List.not_mem_cons_of_ne_of_not_mem (Ne.symm same) among
          rw [if_neg among, if_neg fresh, List.cons_append]

theorem OneGroupEach.noteMember (one_each : OneGroupEach groups) (definition : Ty) (field : Nat)
    (id : VariableId) :
    OneGroupEach (noteMember definition field id groups) := by
  constructor
  · rw [definitions_noteMember]
    split
    · exact one_each.apart
    · next absent =>
        exact List.nodup_append.mpr ⟨one_each.apart, List.nodup_singleton _, by simpa using absent⟩
  · have room := one_each.room
    clear one_each
    induction groups with
    | nil => simp [ArraySize.noteMember]
    | cons group groups ih =>
        obtain ⟨first_room, later_room⟩ := List.forall_mem_cons.mp room
        rw [ArraySize.noteMember]
        split
        · exact List.forall_mem_cons.mpr ⟨by simpa using first_room, later_room⟩
        · exact List.forall_mem_cons.mpr ⟨first_room, ih later_room⟩

theorem join_getElem?_set {members : List (Option VariableId)} (inside : field < members.length)
    (position : Nat) : ((members.set field (some id))[position]?).join =
      if position = field then some id else (members[position]?).join := by
  by_cases same : position = field
  · rw [if_pos same, same, List.getElem?_set_self inside, Option.join_some]
  · rw [if_neg same, List.getElem?_set_ne (Ne.symm same)]

/-- A member that is noted stands for its field, and all others stay where they are. -/
theorem member?_noteMember
    (room : ∀ group ∈ groups, group.members.length = group.definition.fields.length)
    (inside : field < definition.fields.length) (block : Ty) (position : Nat) :
    member? (noteMember definition field id groups) block position =
      if block = definition ∧ position = field then some id else member? groups block position := by
  induction groups with
  | nil =>
      have inside_new : field < (List.replicate definition.fields.length
        (none : Option VariableId)).length := by simpa using inside
      have empty : ((List.replicate definition.fields.length
          (none : Option VariableId))[position]?).join = none := by
        rw [List.getElem?_replicate]
        split <;> rfl
      by_cases same : block = definition
      · simp [noteMember, member?, same, join_getElem?_set inside_new, empty]
      · simp [noteMember, member?, same, Ne.symm same]
  | cons group groups ih =>
      obtain ⟨first_room, later_room⟩ := List.forall_mem_cons.mp room
      rw [noteMember]
      split
      · next here =>
          have inside_group : field < group.members.length := by rwa [first_room, here]
          by_cases same : block = definition
          · simp [member?, same, here, join_getElem?_set inside_group]
          · simp [member?, same, here, Ne.symm same]
      · next elsewhere =>
          have ih := ih later_room
          unfold member? at ih ⊢
          by_cases found : group.definition = block
          · have other : block ≠ definition := fun same => elsewhere (found.trans same)
            simp [found, other]
          · simpa [found] using ih

theorem member?_of_mem (one_each : OneGroupEach groups) {group : Group} (listed : group ∈ groups)
    (field : Nat) :
    member? groups group.definition field = (group.members[field]?).join := by
  have finds : groups.find? (·.definition = group.definition) = some group := by
    cases finds : groups.find? (·.definition = group.definition) with
    | none => exact absurd (List.find?_eq_none.mp finds group listed) (by simp)
    | some other =>
        have same : other.definition = group.definition := by simpa using List.find?_some finds
        rw [List.inj_on_of_nodup_map one_each.apart (List.mem_of_find?_eq_some finds) listed same]
  rw [member?, finds, Option.bind_some]

def noted (place : VariableId → Option (Ty × Nat)) (groups : List Group)
    (id : VariableId) : List Group :=
  match place id with
  | some (definition, field) => noteMember definition field id groups
  | none => groups

/-- The groups hold, for each field of a block, the one of the variables that stands for it. -/
structure Holds (place : VariableId → Option (Ty × Nat)) (ids : List VariableId)
    (groups : List Group) : Prop extends OneGroupEach groups where
  exact : ∀ {definition field id}, member? groups definition field = some id ↔
    id ∈ ids ∧ place id = some (definition, field)

/-- No two of the variables stand for the same field of the same block. -/
def Apart (place : VariableId → Option (Ty × Nat)) (ids : List VariableId) : Prop :=
  ∀ one ∈ ids, ∀ other ∈ ids, ∀ slot, place one = some slot → place other = some slot → one = other

variable {place : VariableId → Option (Ty × Nat)} {ids : List VariableId}

/-- One more variable takes no place that another holds. -/
theorem Holds.noted (holds : Holds place ids groups)
    (inside : ∀ {id definition field}, place id = some (definition, field) →
      field < definition.fields.length)
    (apart : Apart place (ids ++ [id])) : Holds place (ids ++ [id]) (noted place groups id) := by
  have listed_last : id ∈ ids ++ [id] := List.mem_append_right _ (List.mem_singleton.mpr rfl)
  unfold ArraySize.noted
  split
  · next definition field placed =>
      refine ⟨holds.toOneGroupEach.noteMember definition field id, fun {block position other} => ?_⟩
      rw [member?_noteMember holds.room (inside placed)]
      split
      · next here =>
          obtain ⟨rfl, rfl⟩ := here
          constructor
          · rintro ⟨⟩
            exact ⟨listed_last, placed⟩
          · rintro ⟨listed, placed_there⟩
            rw [apart id listed_last other listed _ placed placed_there]
      · next elsewhere =>
          rw [holds.exact, List.mem_append, List.mem_singleton]
          constructor
          · exact fun found => ⟨.inl found.1, found.2⟩
          · rintro ⟨listed | rfl, placed_there⟩
            · exact ⟨listed, placed_there⟩
            · rw [placed] at placed_there
              cases placed_there
              exact absurd ⟨rfl, rfl⟩ elsewhere
  · next unplaced =>
      refine ⟨holds.toOneGroupEach, fun {block position other} => ?_⟩
      rw [holds.exact, List.mem_append, List.mem_singleton]
      constructor
      · exact fun found => ⟨.inl found.1, found.2⟩
      · rintro ⟨listed | rfl, placed_there⟩
        · exact ⟨listed, placed_there⟩
        · rw [unplaced] at placed_there
          cases placed_there

theorem Holds.foldl_noted (inside : ∀ {id definition field}, place id = some (definition, field) →
      field < definition.fields.length) {later : List VariableId} :
    ∀ {ids : List VariableId} {groups : List Group}, Holds place ids groups →
      Apart place (ids ++ later) →
      Holds place (ids ++ later) (later.foldl (ArraySize.noted place) groups) := by
  -- The variables that have been noted are a prefix of the list, which grows by one with every
  -- step.
  induction later with
  | nil =>
      intro ids groups holds _
      rwa [List.append_nil]
  | cons id later ih =>
      intro ids groups holds apart
      rw [List.append_cons] at apart ⊢
      refine ih (holds.noted inside fun one one_listed other other_listed => ?_) apart
      exact apart one (List.mem_append_left _ one_listed) other
        (List.mem_append_left _ other_listed)

end Groups

/-! ## Variables in turn -/

section Turns

variable {shader sized : Shader} {groups found : List Group} {ids : List VariableId}

/-- Changing variables one after the other, by a change that does nothing more the second time,
changes those that are listed. -/
theorem get?_foldl_modifyVariable {change : Variable → Variable}
    (idempotent : ∀ declared, change (change declared) = change declared) (ids : List VariableId)
    (shader : Shader) (id : VariableId) :
    (ids.foldl (fun shader id => shader.modifyVariable id change) shader).vars.get? id =
      (shader.vars.get? id).map fun declared => if id ∈ ids then change declared else declared := by
  induction ids generalizing shader with
  | nil => simp
  | cons first ids ih =>
      rw [List.foldl_cons, ih, Shader.modifyVariable, Arena.get?_modify, Option.map_map]
      congr 1
      funext declared
      by_cases here : first = id
      · by_cases later : id ∈ ids
        · simp [here, later, idempotent]
        · simp [here, later]
      · simp [here, Ne.symm here]

theorem modifyVariable_of_found {id : VariableId} {declared : Variable}
    (found : shader.vars.get? id = some declared) (change : Variable → Variable) :
    (shader.modifyVariable id fun _ => change declared) = shader.modifyVariable id change := by
  have same : (shader.vars.modify id fun _ => change declared).entries =
      (shader.vars.modify id change).entries := by
    refine List.ext_getElem? fun position => ?_
    change (shader.vars.modify id _).get? position = (shader.vars.modify id _).get? position
    rw [Arena.get?_modify, Arena.get?_modify]
    by_cases here : id = position
    · simp [← here, found]
    · simp [here]
  rw [Shader.modifyVariable, Shader.modifyVariable]
  exact congrArg (fun entries => { shader with vars := ⟨entries⟩ }) same

def placeIn (shader : Shader) (id : VariableId) : Option (Ty × Nat) :=
  (shader.vars.get? id).bind membership?

theorem placeIn_modifyVariable (shader : Shader) (id : VariableId) :
    placeIn (shader.modifyVariable id sizedVariable) = placeIn shader := by
  funext other
  rw [placeIn, placeIn, Shader.modifyVariable, Arena.get?_modify]
  cases shader.vars.get? other with
  | none => rfl
  | some declared =>
      simp only [Option.map_some, Option.bind_some]
      split
      · exact membership?_sizedVariable declared
      · rfl

theorem sizeVariables_eq_ok : ∀ {shader : Shader} {groups : List Group},
    sizeVariables shader groups ids = .ok (sized, found) →
      sized = ids.foldl (fun shader id => shader.modifyVariable id sizedVariable) shader ∧
        found = ids.foldl (noted (placeIn shader)) groups := by
  induction ids with
  | nil =>
      intro shader groups runs
      obtain ⟨rfl, rfl⟩ : shader = sized ∧ groups = found := by simpa [sizeVariables] using runs
      exact ⟨rfl, rfl⟩
  | cons id ids ih =>
      intro shader groups runs
      rw [sizeVariables] at runs
      obtain ⟨declared, fetched, following⟩ := Checked.bind_eq_ok.mp runs
      have was := Shader.fetchVariable_eq_ok.mp fetched
      have belongs : placeIn shader id = membership? declared := by
        rw [placeIn, was, Option.bind_some]
      dsimp only at following
      rw [modifyVariable_of_found was sizedVariable, membership?_sizedVariable,
        ← belongs] at following
      have continues : sizeVariables (shader.modifyVariable id sizedVariable)
          (noted (placeIn shader) groups id) ids = .ok (sized, found) := by
        rw [← following, noted]
        cases placeIn shader id <;> rfl
      obtain ⟨turned, filed⟩ := ih continues
      rw [placeIn_modifyVariable] at filed
      exact ⟨turned, filed⟩

/-! ## Rebuilding -/

/-- The type that an unnamed block gets from its members. -/
def rebuiltType (shader : Shader) (group : Group) : Ty :=
  match group.definition with
  | .interface name fields packing =>
      .interface name (List.zipWith (memberField shader) fields group.members) packing
  | other => other

/-- The members of the group are there, and carry its block type. -/
def Carried (shader : Shader) (group : Group) : Prop :=
  ∀ id, some id ∈ group.members → ∃ declared, shader.vars.get? id = some declared ∧
    declared.interfaceType = some group.definition

theorem get?_rebuildGroup {group : Group} (carried : Carried shader group) (id : VariableId) :
    (rebuildGroup shader group).vars.get? id = (shader.vars.get? id).map fun declared =>
      if some id ∈ group.members then
        { declared with interfaceType := some (rebuiltType shader group) }
      else declared := by
  have unchanged (same : rebuiltType shader group = group.definition) : shader.vars.get? id =
      (shader.vars.get? id).map fun declared =>
        if some id ∈ group.members then
          { declared with interfaceType := some (rebuiltType shader group) }
        else declared := by
    rw [same]
    by_cases member : some id ∈ group.members
    · obtain ⟨declared, was, carries⟩ := carried id member
      simp [was, member, ← carries]
    · simp [member]
  unfold rebuildGroup
  split
  · next name fields packing is_interface =>
      dsimp only
      split
      · next still => exact unchanged (by rw [rebuiltType, is_interface]; simp only [still])
      · refine (get?_foldl_modifyVariable ?_ _ shader id).trans ?_
        · exact fun _ => rfl
        · simp [rebuiltType, is_interface]
  · next other =>
      refine unchanged ?_
      rw [rebuiltType]
      split
      · next is_interface => exact absurd is_interface (other _ _ _)
      · rfl

/-- What a block type is rebuilt to depends on the types of variables only. -/
theorem rebuiltType_congr {before after : Shader}
    (same : ∀ id, (after.vars.get? id).map (·.ty) = (before.vars.get? id).map (·.ty))
    (group : Group) :
    rebuiltType after group = rebuiltType before group := by
  have each : memberField after = memberField before := by
    funext field member
    cases member with
    | none => rfl
    | some id =>
        have same := same id
        unfold memberField
        dsimp only [Option.bind_some]
        cases now : after.vars.get? id with
        | none =>
            rw [now, Option.map_none, eq_comm, Option.map_eq_none_iff] at same
            rw [same]
        | some later =>
            rw [now, Option.map_some, eq_comm, Option.map_eq_some_iff] at same
            obtain ⟨declared, was, same_type⟩ := same
            rw [was]
            dsimp only
            rw [same_type]
  rw [rebuiltType, rebuiltType, each]

theorem type_rebuildGroup {group : Group} (carried : Carried shader group) (id : VariableId) :
    ((rebuildGroup shader group).vars.get? id).map (·.ty) = (shader.vars.get? id).map (·.ty) := by
  rw [get?_rebuildGroup carried, Option.map_map]
  congr 1
  funext declared
  dsimp only [Function.comp_apply]
  split <;> rfl

/-- Rebuilding the groups of different blocks in turn stores the block type that each block gets on
its members, and leaves all other variables alone. -/
theorem get?_rebuildGroups : ∀ {shader : Shader}, (groups.map (·.definition)).Nodup →
    (∀ group ∈ groups, Carried shader group) →
      (∀ id, (∀ group ∈ groups, some id ∉ group.members) →
        (groups.foldl rebuildGroup shader).vars.get? id = shader.vars.get? id) ∧
      ∀ group ∈ groups, ∀ id, some id ∈ group.members →
        (groups.foldl rebuildGroup shader).vars.get? id = (shader.vars.get? id).map fun declared =>
          { declared with interfaceType := some (rebuiltType shader group) } := by
  induction groups with
  | nil => exact fun _ _ => ⟨fun _ _ => rfl, fun group listed => by cases listed⟩
  | cons first groups ih =>
      intro shader apart carried
      obtain ⟨fresh, apart⟩ := List.nodup_cons.mp apart
      obtain ⟨first_carried, later_carried⟩ := List.forall_mem_cons.mp carried
      -- A variable carries one block type, so it is a member of no second group.
      have elsewhere : ∀ group ∈ groups, ∀ id, some id ∈ group.members →
          some id ∉ first.members := by
        intro group listed id member also
        obtain ⟨declared, was, carries⟩ := later_carried group listed id member
        obtain ⟨again, was_again, carries_again⟩ := first_carried id also
        obtain rfl := Option.some.inj (was.symm.trans was_again)
        have same : group.definition = first.definition :=
          Option.some.inj (carries.symm.trans carries_again)
        exact fresh (List.mem_map.mpr ⟨group, listed, same⟩)
      have untouched : ∀ id, some id ∉ first.members →
          (rebuildGroup shader first).vars.get? id = shader.vars.get? id := by
        intro id no_member
        simp [get?_rebuildGroup first_carried, no_member]
      have still_carried : ∀ group ∈ groups, Carried (rebuildGroup shader first) group := by
        intro group listed id member
        rw [untouched id (elsewhere group listed id member)]
        exact later_carried group listed id member
      obtain ⟨others, members⟩ := ih apart still_carried
      refine ⟨fun id nowhere => ?_, fun group listed id member => ?_⟩
      · obtain ⟨not_first, not_later⟩ := List.forall_mem_cons.mp nowhere
        rw [List.foldl_cons, others id not_later, untouched id not_first]
      · rw [List.foldl_cons]
        rcases List.mem_cons.mp listed with rfl | later
        · rw [others id fun other other_listed also => elsewhere other other_listed id also member,
            get?_rebuildGroup first_carried]
          simp [member]
        · rw [members group later id member, untouched id (elsewhere group later id member),
            rebuiltType_congr (type_rebuildGroup first_carried)]

end Turns

/-! ## Shaders -/

section Shaders

open Shader

variable {shader sized result : Shader} {ids : List VariableId} {groups : List Group}

theorem sizedIn_eq_ok (lists : sizedIn shader = .ok ids) : ids = shader.sizable := by
  obtain ⟨functions, fetches, finish⟩ := Checked.bind_eq_ok.mp lists
  obtain rfl := Checked.pure_eq_ok.mp finish
  have same : functions.flatMap (fun function => function.signatures.flatMap (·.parameters)) =
      shader.declaredFunctions.flatMap fun id => (shader.signaturesOf id).flatMap
        (·.parameters) := by
    have each := Checked.mapM_eq_ok.mp fetches
    clear fetches lists finish
    generalize shader.declaredFunctions = listed at each
    induction each with
    | nil => rfl
    | cons fetched _ ih =>
        rw [List.flatMap_cons, List.flatMap_cons, ih,
          signaturesOf_eq (fetchFunction_eq_ok.mp fetched)]
  rw [sizable, same]
  rfl

theorem placeIn_eq_some {definition : Ty} {field : Nat} {id : VariableId} :
    placeIn shader id = some (definition, field) ↔
      ∃ declared, shader.vars.get? id = some declared ∧ declared.IsMember definition field := by
  simp only [placeIn, Option.bind_eq_some_iff, membership?_eq_some]

theorem apart_placeIn (apart : shader.BlocksApart) : Apart (placeIn shader) shader.sizable := by
  rintro one one_listed other other_listed ⟨definition, field⟩ one_placed other_placed
  obtain ⟨first, first_there, first_member⟩ := placeIn_eq_some.mp one_placed
  obtain ⟨second, second_there, second_member⟩ := placeIn_eq_some.mp other_placed
  obtain ⟨placed, there, first_named⟩ := first_member.exists_field
  obtain ⟨again, there_again, second_named⟩ := second_member.exists_field
  obtain rfl := Option.some.inj (there.symm.trans there_again)
  exact apart one one_listed other other_listed first first_there second second_there
    (by simp [first_member.block]) (by simp [second_member.block])
    (first_named.symm.trans second_named)

/-- The groups found hold, for each field of an unnamed block, the variable that stands for it. -/
theorem holds_of_sizeVariables (apart : shader.BlocksApart)
    (runs : sizeVariables shader [] shader.sizable = .ok (sized, groups)) :
    Holds (placeIn shader) shader.sizable groups := by
  obtain ⟨-, rfl⟩ := sizeVariables_eq_ok runs
  have nothing : Holds (placeIn shader) [] [] :=
    ⟨⟨List.nodup_nil, fun group listed => by cases listed⟩, by simp [member?]⟩
  refine nothing.foldl_noted (fun {id definition field} placed => ?_) (apart_placeIn apart)
  obtain ⟨declared, -, is_member⟩ := placeIn_eq_some.mp placed
  obtain ⟨_, there, -⟩ := is_member.exists_field
  exact (List.getElem?_eq_some_iff.mp there).1

/-- The members of a group are the variables that stand for a field of its block. -/
theorem Holds.member_iff (holds : Holds (placeIn shader) shader.sizable groups) {group : Group}
    (listed : group ∈ groups) {field : Nat} {id : VariableId} :
    group.members[field]? = some (some id) ↔ shader.HasMember group.definition field id := by
  rw [HasMember, ← placeIn_eq_some, ← holds.exact, member?_of_mem holds.toOneGroupEach listed]
  exact Option.join_eq_some_iff.symm

/-- The place of a field that nobody stands for is left empty. -/
theorem Holds.member_none (holds : Holds (placeIn shader) shader.sizable groups) {group : Group}
    (listed : group ∈ groups) {field : Nat} (inside : field < group.definition.fields.length)
    (nobody : ∀ id, ¬ shader.HasMember group.definition field id) :
    group.members[field]? = some none := by
  have inside_members : field < group.members.length := by rwa [holds.room group listed]
  have there := List.getElem?_eq_getElem inside_members
  cases member : group.members[field] with
  | none => rw [there, member]
  | some id => exact absurd ((holds.member_iff listed).mp (by rw [there, member])) (nobody id)

/-- A block of which a field is stood for has got a group. -/
theorem Holds.exists_group (holds : Holds (placeIn shader) shader.sizable groups) {definition : Ty}
    {field : Nat} {id : VariableId} (has_member : shader.HasMember definition field id) :
    ∃ group ∈ groups, group.definition = definition ∧ some id ∈ group.members := by
  have found := holds.exact.mpr ⟨has_member.1, placeIn_eq_some.mpr has_member.2⟩
  obtain ⟨group, finds, there⟩ := Option.bind_eq_some_iff.mp found
  exact ⟨group, List.mem_of_find?_eq_some finds, by simpa using List.find?_some finds,
    List.mem_of_getElem? (Option.join_eq_some_iff.mp there)⟩

theorem Holds.hasMember_of_mem (holds : Holds (placeIn shader) shader.sizable groups)
    {group : Group} (listed : group ∈ groups) {id : VariableId} (member : some id ∈ group.members) :
    ∃ field, shader.HasMember group.definition field id := by
  obtain ⟨field, there⟩ := List.mem_iff_getElem?.mp member
  exact ⟨field, (holds.member_iff listed).mp there⟩

section Outcome

variable (runs : sizeVariables shader [] shader.sizable = .ok (sized, groups))
  (apart : shader.BlocksApart)

include runs

theorem get?_sizeVariables (id : VariableId) : sized.vars.get? id =
    (shader.vars.get? id).map fun declared =>
      if id ∈ shader.sizable then sizedVariable declared else declared := by
  rw [(sizeVariables_eq_ok runs).1]
  exact get?_foldl_modifyVariable sizedVariable_sizedVariable shader.sizable shader id

/-- Until block types are rebuilt, a member carries the one that it had. -/
theorem get?_of_hasMember {definition : Ty} {field : Nat} {id : VariableId}
    (has_member : shader.HasMember definition field id) : ∃ declared,
      shader.vars.get? id = some declared ∧ declared.IsMember definition field ∧
      sized.vars.get? id = some (sizedVariable declared) ∧
      (sizedVariable declared).interfaceType = some definition := by
  obtain ⟨listed, declared, was, is_member⟩ := has_member
  refine ⟨declared, was, is_member, by rw [get?_sizeVariables runs, was]; simp [listed], ?_⟩
  rw [sizedVariable_of_noInstance is_member.no_instance]
  exact is_member.block

include apart

theorem carried_of_sizeVariables : ∀ group ∈ groups, Carried sized group := by
  intro group listed id member
  obtain ⟨field, has_member⟩ := (holds_of_sizeVariables apart runs).hasMember_of_mem listed member
  obtain ⟨declared, -, -, now, carries⟩ := get?_of_hasMember runs has_member
  exact ⟨_, now, carries⟩

/-- A variable that stands for no field of an unnamed block is sized, if it is to be, and left
otherwise. -/
theorem get?_of_no_member {id : VariableId}
    (no_member : ∀ definition field, ¬ shader.HasMember definition field id) :
    (groups.foldl rebuildGroup sized).vars.get? id = (shader.vars.get? id).map fun declared =>
      if id ∈ shader.sizable then sizedVariable declared else declared := by
  have holds := holds_of_sizeVariables apart runs
  have others := (get?_rebuildGroups holds.apart (carried_of_sizeVariables runs apart)).1
  rw [others id fun group listed member => ?_, get?_sizeVariables runs]
  obtain ⟨field, has_member⟩ := holds.hasMember_of_mem listed member
  exact no_member _ field has_member

/-- A member of an unnamed block is sized, and gets the block type that its group is rebuilt to. -/
theorem get?_of_mem_group {group : Group} (listed : group ∈ groups) {field : Nat} {id : VariableId}
    (has_member : shader.HasMember group.definition field id) : ∃ declared,
      shader.vars.get? id = some declared ∧ declared.IsMember group.definition field ∧
      sized.vars.get? id = some (sizedVariable declared) ∧
      (groups.foldl rebuildGroup sized).vars.get? id =
        some { sizedVariable declared with interfaceType := some (rebuiltType sized group) } := by
  have holds := holds_of_sizeVariables apart runs
  have members := (get?_rebuildGroups holds.apart (carried_of_sizeVariables runs apart)).2
  obtain ⟨declared, was, is_member, now, -⟩ := get?_of_hasMember runs has_member
  refine ⟨declared, was, is_member, now, ?_⟩
  have member : some id ∈ group.members :=
    List.mem_of_getElem? ((holds.member_iff listed).mpr has_member)
  rw [members group listed id member, now]
  rfl

/-- The fields of a block type that is rebuilt have the types of the members that stand for them. -/
theorem rebuilds_of_mem {group : Group} (listed : group ∈ groups) {name : String}
    {fields : List (Field Ty)} {packing : Packing}
    (is_block : group.definition = .interface name fields packing) :
    shader.Rebuilds (groups.foldl rebuildGroup sized) name packing fields
      (List.zipWith (memberField sized) fields group.members) := by
  have holds := holds_of_sizeVariables apart runs
  have room : group.members.length = fields.length := by
    rw [holds.room group listed, is_block]
    rfl
  have rebuilt : rebuiltType sized group =
      .interface name (List.zipWith (memberField sized) fields group.members) packing := by
    simp only [rebuiltType, is_block]
  refine ⟨by simp [room], fun {field id} has_member => ?_, fun field nobody => ?_⟩
  · rw [← is_block] at has_member
    obtain ⟨declared, -, is_member, now, stored⟩ := get?_of_mem_group runs apart listed has_member
    obtain ⟨placed, there, -⟩ := is_member.exists_field
    rw [is_block] at there
    refine ⟨_, placed, stored, there, congrArg some rebuilt, ?_⟩
    rw [List.getElem?_zipWith, (holds.member_iff listed).mpr has_member]
    have there : fields[field]? = some placed := there
    simp [there, memberField, now]
  · rw [List.getElem?_zipWith]
    cases there : fields[field]? with
    | none => rfl
    | some placed =>
        have inside : field < group.definition.fields.length := by
          rw [is_block]
          exact (List.getElem?_eq_some_iff.mp there).1
        rw [holds.member_none listed inside (is_block ▸ nobody)]
        rfl

/-- Every block type is rebuilt to one type for all its members. -/
theorem exists_rebuilds (name : String) (fields : List (Field Ty)) (packing : Packing) : ∃ rebuilt,
    shader.Rebuilds (groups.foldl rebuildGroup sized) name packing fields rebuilt := by
  by_cases grouped : ∃ group ∈ groups, group.definition = .interface name fields packing
  · obtain ⟨group, listed, is_block⟩ := grouped
    exact ⟨_, rebuilds_of_mem runs apart listed is_block⟩
  · refine ⟨fields, rfl, fun has_member => ?_, fun _ _ => rfl⟩
    obtain ⟨group, listed, is_block, -⟩ :=
      (holds_of_sizeVariables apart runs).exists_group has_member
    exact absurd ⟨group, listed, is_block⟩ grouped

/-- A variable that is to be sized is, whether its block type is rebuilt or not. -/
theorem exists_sizes (bound : ∀ id ∈ shader.sizable, id < shader.vars.size)
    (counted : ∀ id ∈ shader.sizable, ∀ declared ∈ shader.vars.get? id, declared.Counted)
    {id : VariableId} (listed : id ∈ shader.sizable) :
    ∃ was now, shader.vars.get? id = some was ∧
      (groups.foldl rebuildGroup sized).vars.get? id = some now ∧ was.Sizes now ∧
      (was.ty.interface? = none → (∀ definition field, ¬ was.IsMember definition field) →
        now.interfaceType = was.interfaceType) := by
  by_cases belongs : ∃ definition field, shader.HasMember definition field id
  · obtain ⟨definition, field, has_member⟩ := belongs
    obtain ⟨group, in_groups, rfl, -⟩ := (holds_of_sizeVariables apart runs).exists_group has_member
    obtain ⟨declared, was, is_member, -, now⟩ := get?_of_mem_group runs apart in_groups has_member
    have sizes := sizes_sizedVariable (counted id listed declared was)
    refine ⟨declared, _, was, now, ?_, fun _ no_member => absurd is_member (no_member _ _)⟩
    refine ⟨?_, sizes.has_length, sizes.length, sizes.plain, fun _ _ _ is_instance => ?_⟩
    · rw [sizes.same]
    · rw [is_member.no_instance] at is_instance
      cases is_instance
  · simp only [not_exists] at belongs
    obtain ⟨declared, was⟩ := Arena.exists_get? (bound id listed)
    refine ⟨declared, sizedVariable declared, was, ?_,
      sizes_sizedVariable (counted id listed declared was),
      fun no_instance _ => ?_⟩
    · rw [get?_of_no_member runs apart belongs, was]
      simp [listed]
    · rw [sizedVariable_of_noInstance no_instance]

end Outcome

/-- Sizing the arrays of a shader leaves nothing implicit and keeps the types of unnamed blocks in
step with their members. -/
theorem sizeArrays_sizes (confined : shader.Confined) (apart : shader.BlocksApart)
    (counted : ∀ id ∈ shader.sizable, ∀ declared ∈ shader.vars.get? id, declared.Counted) :
    ∃ result, sizeArrays shader = .ok result ∧ shader.Sizes result := by
  obtain ⟨result, runs, revised⟩ := exists_sized confined
  obtain ⟨ids, lists, bound⟩ := exists_sizedIn confined
  obtain rfl := sizedIn_eq_ok lists
  refine ⟨result, runs, ?_⟩
  rw [sizeArrays, lists, Checked.ok_bind] at runs
  obtain ⟨⟨sized, groups⟩, sizing, finish⟩ := Checked.bind_eq_ok.mp runs
  obtain rfl := Checked.pure_eq_ok.mp finish
  refine ⟨revised.same, revised.size, fun id not_listed => ?_,
    fun id listed => exists_sizes sizing apart bound counted listed, exists_rebuilds sizing apart⟩
  rw [get?_of_no_member sizing apart fun definition field has_member => not_listed has_member.1]
  simp [not_listed]

end Shaders

/-! ## A sheet of samples -/

section Sheets

open Shader

/-- The block of lamps, each with gains of its own. -/
def lamp (gains : Ty) : Ty :=
  .interface "Lamp" [⟨"gains", gains, false⟩, ⟨"tint", .floatVector .four, false⟩] .std140

/-- A block of samples and their scale. -/
def sheet (samples : Ty) : Ty :=
  .interface "Sheet" [⟨"samples", samples, false⟩, ⟨"scale", .float, false⟩] .std140

/-- A shader with weights, an array of lamps, the members of a sheet, and a function over values. -/
def sampled : Shader where
  stage := .fragment
  version := 150
  vars := ⟨[
    { name := "weights", ty := .unsizedArray .float, mode := .uniform, maxArrayAccess := 2 },
    { name := "lamps", ty := .unsizedArray (lamp (.unsizedArray .float)), mode := .uniform,
      maxArrayAccess := 1, maxMemberAccess := [4], interfaceType :=
        some (lamp (.unsizedArray .float)) },
    { name := "scale", ty := .float, mode := .uniform, interfaceType :=
      some (sheet (.unsizedArray .float)) },
    { name := "samples", ty := .unsizedArray .float, mode := .uniform, maxArrayAccess := 3,
      interfaceType := some (sheet (.unsizedArray .float)) },
    { name := "values", ty := .unsizedArray .float, mode := .functionIn, maxArrayAccess := 1 }]⟩
  functions := ⟨[{ name := "blend", signatures := [.define .void [4] []] }]⟩
  topLevel := [.declare 0, .declare 1, .declare 2, .declare 3, .function 0]

/-- The scale, which is met before the samples, gets the block type with the length of the
samples. -/
theorem sampled_sizes : sampled.Confined ∧ sampled.BlocksApart ∧
    (∀ id ∈ sampled.sizable, ∀ declared ∈ sampled.vars.get? id, declared.Counted) ∧
    ∃ result, sizeArrays sampled = .ok result ∧ sampled.Sizes result ∧
      result.vars.entries.map (·.ty) =
        [.sizedArray .float 3, .sizedArray (lamp (.sizedArray .float 5)) 2, .float,
          .sizedArray .float 4,
          .sizedArray .float 2] ∧
      result.vars.entries.map (·.interfaceType) =
        [none, some (lamp (.sizedArray .float 5)), some (sheet (.sizedArray .float 4)),
          some (sheet (.sizedArray .float 4)), none] := by
  have confined : sampled.Confined := by decide +kernel
  have apart : sampled.BlocksApart := by
    unfold BlocksApart
    decide +kernel
  have counted : ∀ id ∈ sampled.sizable, ∀ declared ∈ sampled.vars.get? id, declared.Counted := by
    decide +kernel
  obtain ⟨result, runs, sizes⟩ := sizeArrays_sizes confined apart counted
  have gives : (sizeArrays sampled).givesTo (fun after => decide
      (after.vars.entries.map (·.ty) =
        [.sizedArray .float 3, .sizedArray (lamp (.sizedArray .float 5)) 2, .float,
          .sizedArray .float 4,
          .sizedArray .float 2] ∧
      after.vars.entries.map (·.interfaceType) =
        [none, some (lamp (.sizedArray .float 5)), some (sheet (.sizedArray .float 4)),
          some (sheet (.sizedArray .float 4)), none])) = true := by decide +kernel
  rw [runs] at gives
  exact ⟨confined, apart, counted, result, runs, sizes, of_decide_eq_true gives⟩

/-- Read the second element of an array of floats into the first variable. -/
def readSecond (id : VariableId) : Instruction :=
  .assign (.whole 0) (.load (.element (.whole id) (.constant (.int 1)) .float)) none

/-- A shader whose function over values is declared inside the function that calls it. -/
def buried : Shader where
  stage := .fragment
  version := 150
  vars := ⟨[.ofType "shade" .float .shaderOut, .ofType "weights" (.sizedArray .float 2) .uniform,
    { name := "values", ty := .unsizedArray .float, mode := .functionIn, maxArrayAccess := 1 }]⟩
  functions := ⟨[
    { name := "main", signatures :=
      [.define .void [] [.function 1, .call ⟨1, 0⟩ [.ofVariable 1] none]] },
    { name := "blend", signatures := [.define .void [2] [readSecond 2]] }]⟩
  topLevel := [.declare 0, .declare 1, .function 0]

/-- A shader with a global and a parameter of the same name that carry the same block type. -/
def doubled : Shader where
  stage := .fragment
  version := 150
  vars := ⟨[.ofType "shade" .float .shaderOut,
    { name := "samples", ty := .unsizedArray .float, mode := .uniform, maxArrayAccess := 1,
      interfaceType := some (sheet (.unsizedArray .float)) },
    { name := "samples", ty := .unsizedArray .float, mode := .functionIn, maxArrayAccess := 1,
      interfaceType := some (sheet (.unsizedArray .float)) }]⟩
  functions := ⟨[
    { name := "main",
      signatures := [.define .void [] [readSecond 1, .call ⟨1, 0⟩ [.ofVariable 1] none]] },
    { name := "blend", signatures := [.define .void [2] [readSecond 2]] }]⟩
  topLevel := [.declare 0, .declare 1, .function 1, .function 0]

/-- A parameter of a function that is not declared at the top level stays without a length, and of a
global and a parameter that stand for the same field, the global keeps the block type without
lengths. -/
theorem buried_and_doubled_are_missed :
    (buried.Confined ∧ declaredIn buried.nodes = [0, 1] ∧
      (buried.signaturesOf 1).map (·.parameters) = [[2]] ∧
      (∀ declared ∈ buried.vars.entries, declared.interfaceType = none) ∧
      ∃ result, sizeArrays buried = .ok result ∧
        result.vars.entries.map (·.ty) = [.float, .sizedArray .float 2, .unsizedArray .float]) ∧
    (doubled.Confined ∧ declaredIn doubled.nodes = [0, 1] ∧
      (doubled.signaturesOf 1).map (·.parameters) = [[2]] ∧
      (doubled.declaredVariables.map (·.name)).Nodup ∧
      ∃ result, sizeArrays doubled = .ok result ∧
        result.vars.entries.map (·.ty) = [.float, .sizedArray .float 2, .sizedArray .float 2] ∧
        result.vars.entries.map (·.interfaceType) =
          [none, some (sheet (.unsizedArray .float)), some (sheet (.sizedArray .float 2))]) := by
  have buried_gives : (sizeArrays buried).givesTo (fun after => decide
      (after.vars.entries.map (·.ty) = [.float, .sizedArray .float 2, .unsizedArray .float])) =
      true := by
    decide +kernel
  have doubled_gives : (sizeArrays doubled).givesTo (fun after => decide
      (after.vars.entries.map (·.ty) = [.float, .sizedArray .float 2, .sizedArray .float 2] ∧
        after.vars.entries.map (·.interfaceType) =
          [none, some (sheet (.unsizedArray .float)), some (sheet (.sizedArray .float 2))])) =
          true := by
    decide +kernel
  obtain ⟨buried_result, buried_runs, stays⟩ := Checked.exists_of_givesTo buried_gives
  obtain ⟨doubled_result, doubled_runs, differs⟩ := Checked.exists_of_givesTo doubled_gives
  refine ⟨⟨?_, ?_, ?_, ?_, buried_result, buried_runs, of_decide_eq_true stays⟩,
    ?_, ?_, ?_, ?_, doubled_result, doubled_runs, of_decide_eq_true differs⟩
  all_goals decide +kernel

end Sheets

end ArraySize
end StageLink
