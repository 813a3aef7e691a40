import StageLink.Proofs.BlockTable

/-!
# Parts of uniform blocks

A block has members, a member has fields, elements or vectors, and so on down to the scalars and
vectors, which are its leaves.  A path of positions leads to each of these parts.  In a block that
has been laid out, every part begins where its type may begin, different leaves have no byte in
common, and neither a member nor the end of the block comes later than it has to.
-/

namespace StageLink
namespace Std140

/-! ## Parts -/

/-- A part of a block: the byte where it begins, its type, and how its matrices are stored. -/
structure Part where
  offset : Nat
  ty : Ty
  rowMajor : Bool
  deriving DecidableEq

/-- The fields of a record that begins at an offset, behind a number of bytes that are taken. -/
def placeFields (offset taken : Nat) : List (Field Ty) → List Part
  | [] => []
  | ⟨_, ty, rowMajor⟩ :: fields =>
      let first := leastMultiple (baseAlignment ty) taken
      ⟨offset + first, ty, rowMajor⟩ :: placeFields offset (first + bytes rowMajor ty) fields

namespace Part

/-- The first byte behind a part. -/
def finish (part : Part) : Nat := part.offset + bytes part.rowMajor part.ty

/-- The fields of a record, the elements of an array, or the vectors of a matrix.  An array without
elements has one all the same. -/
def parts (whole : Part) : List Part :=
  match whole.ty with
  | .record _ fields | .interface _ fields _ => placeFields whole.offset 0 fields
  | .array element length =>
      (List.range (max (length.getD 0) 1)).map fun index =>
        ⟨whole.offset + index * stride whole.rowMajor element, element, whole.rowMajor⟩
  | .matrix columns rows =>
      (List.range (if whole.rowMajor then rows.count else columns.count)).map fun index =>
        ⟨whole.offset + index * 16, .vector (if whole.rowMajor then columns else rows) .float,
          whole.rowMajor⟩
  | _ => []

/-- The part to which a path leads, each number of the path choosing one of the parts of what has
been reached. -/
def at? : Part → List Nat → Option Part
  | whole, [] => some whole
  | whole, index :: path => whole.parts[index]?.bind fun part => part.at? path

def isLeaf (part : Part) : Bool :=
  match part.ty with
  | .scalar _ | .vector .. => true
  | _ => false

/-- A part begins where its type may begin. -/
def Aligned (part : Part) : Prop := baseAlignment part.ty ∣ part.offset

/-- Two leaves without a common byte, a leaf having four bytes for each component. -/
def Apart (one other : Part) : Prop :=
  one.offset + 4 * one.ty.components ≤ other.offset ∨
    other.offset + 4 * other.ty.components ≤ one.offset

theorem finish_of_isLeaf {leaf : Part} (is_leaf : leaf.isLeaf = true) :
    leaf.finish = leaf.offset + 4 * leaf.ty.components := by
  unfold isLeaf at is_leaf
  unfold finish
  split at is_leaf
  · next is_scalar => rw [is_scalar, bytes]
  · next is_vector => rw [is_vector, bytes]
  · cases is_leaf

theorem parts_of_isLeaf {leaf : Part} (is_leaf : leaf.isLeaf = true) : leaf.parts = [] := by
  unfold isLeaf at is_leaf
  unfold parts
  split at is_leaf
  · next is_scalar => simp [is_scalar]
  · next is_vector => simp [is_vector]
  · cases is_leaf

end Part

/-! ## Stacks -/

/-- Parts follow each other from one byte to another, each beginning where its type may begin. -/
def Stacked : Nat → List Part → Nat → Prop
  | start, [], final => start ≤ final
  | start, part :: parts, final =>
      start ≤ part.offset ∧ part.Aligned ∧ Stacked part.finish parts final

namespace Stacked

variable {parts : List Part} {part : Part} {start final : Nat}

theorem mono {later : Nat} (stacked : Stacked start parts final) (more : final ≤ later) :
    Stacked start parts later := by
  induction parts generalizing start with
  | nil => exact Nat.le_trans stacked more
  | cons part parts ih => exact ⟨stacked.1, stacked.2.1, ih stacked.2.2⟩

theorem snoc {middle : Nat} (stacked : Stacked start parts middle) (follows : middle ≤ part.offset)
    (aligned : part.Aligned) : Stacked start (parts ++ [part]) part.finish := by
  induction parts generalizing start with
  | nil => exact ⟨Nat.le_trans stacked follows, aligned, Nat.le_refl _⟩
  | cons first parts ih => exact ⟨stacked.1, stacked.2.1, ih stacked.2.2⟩

theorem start_le (stacked : Stacked start parts final) : start ≤ final := by
  induction parts generalizing start with
  | nil => exact stacked
  | cons part parts ih =>
      have first_byte : part.offset ≤ part.finish := Nat.le_add_right ..
      exact Nat.le_trans stacked.1 (Nat.le_trans first_byte (ih stacked.2.2))

theorem at_position (stacked : Stacked start parts final) {index : Nat}
    (found : parts[index]? = some part) :
    part.Aligned ∧ start ≤ part.offset ∧ part.finish ≤ final := by
  induction parts generalizing start index with
  | nil => cases found
  | cons first parts ih =>
      obtain ⟨begins, aligned, rest⟩ := stacked
      cases index with
      | zero =>
          obtain rfl : first = part := Option.some.inj found
          exact ⟨aligned, begins, start_le rest⟩
      | succ index =>
          rw [List.getElem?_cons_succ] at found
          obtain ⟨aligned_later, later, inside⟩ := ih rest found
          have first_byte : first.offset ≤ first.finish := Nat.le_add_right ..
          exact ⟨aligned_later, by omega, inside⟩

/-- A part of a stack ends before a later one begins. -/
theorem finish_le (stacked : Stacked start parts final) {index other : Nat} {later : Part}
    (found : parts[index]? = some part) (found_later : parts[other]? = some later)
    (before : index < other) : part.finish ≤ later.offset := by
  induction parts generalizing start index other with
  | nil => cases found
  | cons first parts ih =>
      obtain ⟨-, -, rest⟩ := stacked
      cases other with
      | zero => cases before
      | succ other =>
          rw [List.getElem?_cons_succ] at found_later
          cases index with
          | zero =>
              obtain rfl : first = part := Option.some.inj found
              exact (rest.at_position found_later).2.1
          | succ index =>
              rw [List.getElem?_cons_succ] at found
              exact ih rest found found_later (Nat.lt_of_succ_lt_succ before)

/-- The parts of a stack begin one after the other. -/
theorem ordered (stacked : Stacked start parts final) :
    (parts.map (·.offset)).Pairwise (· ≤ ·) := by
  induction parts generalizing start with
  | nil => exact List.Pairwise.nil
  | cons first parts ih =>
      obtain ⟨-, -, rest⟩ := stacked
      refine List.Pairwise.cons (List.forall_mem_map.mpr fun later listed => ?_) (ih rest)
      obtain ⟨index, found⟩ := List.mem_iff_getElem?.mp listed
      exact Nat.le_trans (Nat.le_add_right ..) (rest.at_position found).2.1

/-- Parts of one type at a constant distance. -/
theorem repeated {ty : Ty} {rowMajor : Bool} {offset distance : Nat}
    (aligned : baseAlignment ty ∣ offset) (aligned_distance : baseAlignment ty ∣ distance)
    (fits : bytes rowMajor ty ≤ distance) (count : Nat) :
    Stacked offset ((List.range count).map fun index => ⟨offset + index * distance, ty, rowMajor⟩)
      (offset + count * distance) := by
  induction count with
  | zero => simp [Stacked]
  | succ count ih =>
      rw [List.range_succ, List.map_append, List.map_singleton]
      refine (ih.snoc (Nat.le_refl _) ?_).mono ?_
      · exact Nat.dvd_add aligned (Nat.dvd_mul_left_of_dvd aligned_distance count)
      · simp only [Part.finish]
        rw [Nat.succ_mul]
        omega

/-- The fields of a record follow each other up to what is behind the last of them. -/
theorem fields {offset : Nat} (aligned : 16 ∣ offset) {fields : List (Field Ty)} :
    ∀ {taken : Nat}, Stacked (offset + taken) (placeFields offset taken fields)
      (offset + bytesBehind taken fields) := by
  induction fields with
  | nil =>
      intro taken
      rw [bytesBehind]
      exact Nat.le_refl _
  | cons field fields ih =>
      intro taken
      have follows := le_leastMultiple (baseAlignment_pos field.ty) taken
      rw [placeFields, bytesBehind]
      refine ⟨Nat.add_le_add_left follows offset, ?_, ?_⟩
      · exact Nat.dvd_add (Nat.dvd_trans (baseAlignment_dvd field.ty) aligned)
          (dvd_leastMultiple ..)
      · rw [Part.finish, Nat.add_assoc]
        exact ih

end Stacked

/-- The parts of an aligned part follow each other inside it. -/
theorem Part.stacked {whole : Part} (aligned : whole.Aligned) :
    Stacked whole.offset whole.parts whole.finish := by
  obtain ⟨offset, ty, rowMajor⟩ := whole
  have closed : ∀ fields : List (Field Ty), 16 ∣ offset →
      Stacked offset (placeFields offset 0 fields)
        (offset + leastMultiple 16 (bytesBehind 0 fields)) := by
    intro fields aligned
    have stacked : Stacked (offset + 0) (placeFields offset 0 fields)
        (offset + bytesBehind 0 fields) := .fields aligned
    exact stacked.mono (Nat.add_le_add_left (le_leastMultiple (by decide) _) offset)
  cases ty with
  | record name fields =>
      rw [Part.finish, bytes]
      exact closed fields aligned
  | interface name fields packing =>
      rw [Part.finish, bytes]
      exact closed fields aligned
  | array element length =>
      have element_aligned := Nat.dvd_trans (baseAlignment_dvd element) aligned
      have stride_aligned := Nat.dvd_trans (baseAlignment_dvd element)
        (dvd_leastMultiple 16 (bytes rowMajor element))
      rw [Part.finish, bytes]
      exact .repeated element_aligned stride_aligned (bytes_le_stride rowMajor element) _
  | matrix columns rows =>
      have vector_aligned := baseAlignment_dvd
        (.vector (if rowMajor then columns else rows) .float)
      have vector_fits :
          bytes rowMajor (.vector (if rowMajor then columns else rows) .float) ≤ 16 := by
        rw [bytes]
        cases (if rowMajor = true then columns else rows) <;> decide
      rw [Part.finish, bytes, Nat.mul_comm]
      exact .repeated (Nat.dvd_trans vector_aligned aligned) vector_aligned vector_fits _
  | _ => exact Nat.le_add_right ..

/-! ## Paths -/

namespace Part

/-- A path stays inside, and leads to parts that are aligned. -/
theorem at?_inside {path : List Nat} : ∀ {whole part : Part}, whole.Aligned →
    whole.at? path = some part →
    part.Aligned ∧ whole.offset ≤ part.offset ∧ part.finish ≤ whole.finish := by
  induction path with
  | nil =>
      intro whole part aligned found
      obtain rfl : whole = part := Option.some.inj found
      exact ⟨aligned, Nat.le_refl _, Nat.le_refl _⟩
  | cons index path ih =>
      intro whole part aligned found
      obtain ⟨child, chosen, further⟩ := Option.bind_eq_some_iff.mp found
      obtain ⟨child_aligned, begins, ends⟩ := (stacked aligned).at_position chosen
      obtain ⟨part_aligned, later, earlier⟩ := ih child_aligned further
      exact ⟨part_aligned, Nat.le_trans begins later, Nat.le_trans earlier ends⟩

theorem eq_nil_of_isLeaf {leaf part : Part} {path : List Nat} (is_leaf : leaf.isLeaf = true)
    (found : leaf.at? path = some part) : path = [] := by
  cases path with
  | nil => rfl
  | cons index path => simp [at?, parts_of_isLeaf is_leaf] at found

end Part

/-- The part of some parts to which a path leads. -/
def partAmong? (parts : List Part) : List Nat → Option Part
  | [] => none
  | index :: path => parts[index]?.bind fun part => part.at? path

/-- What is reached through different parts of a stack has no byte in common. -/
theorem Stacked.apart {parts : List Part} {start final : Nat} (stacked : Stacked start parts final)
    {index other : Nat} {part later one another : Part} {path rest : List Nat}
    (chosen : parts[index]? = some part) (chosen_later : parts[other]? = some later)
    (before : index < other) (found : part.at? path = some one)
    (found_later : later.at? rest = some another) : one.finish ≤ another.offset := by
  have inside := Part.at?_inside (stacked.at_position chosen).1 found
  have inside_later := Part.at?_inside (stacked.at_position chosen_later).1 found_later
  have separate := stacked.finish_le chosen chosen_later before
  omega

theorem Stacked.leaves_apart {path : List Nat} : ∀ {parts : List Part} {start final : Nat}
    {other : List Nat} {one another : Part}, Stacked start parts final →
    partAmong? parts path = some one → partAmong? parts other = some another →
    one.isLeaf = true → another.isLeaf = true → path ≠ other → one.Apart another := by
  induction path with
  | nil =>
      intro parts start final other one another stacked found
      cases found
  | cons index path ih =>
      intro parts start final other one another stacked found found_other is_leaf other_leaf
        different
      cases other with
      | nil => cases found_other
      | cons second other =>
          obtain ⟨part, chosen, further⟩ := Option.bind_eq_some_iff.mp found
          obtain ⟨later, chosen_later, further_later⟩ := Option.bind_eq_some_iff.mp found_other
          have ends := Part.finish_of_isLeaf is_leaf
          have ends_other := Part.finish_of_isLeaf other_leaf
          rcases Nat.lt_trichotomy index second with before | rfl | after
          · exact .inl (ends ▸ stacked.apart chosen chosen_later before further further_later)
          · -- the paths part further down, so neither of them ends here
            obtain rfl : part = later := Option.some.inj (chosen.symm.trans chosen_later)
            have different_below : path ≠ other := fun same => different (same ▸ rfl)
            have below := Part.stacked (stacked.at_position chosen).1
            cases path with
            | nil =>
                obtain rfl : part = one := Option.some.inj further
                exact absurd (Part.eq_nil_of_isLeaf is_leaf further_later).symm different_below
            | cons next path =>
                cases other with
                | nil =>
                    obtain rfl : part = another := Option.some.inj further_later
                    exact absurd (Part.eq_nil_of_isLeaf other_leaf further) different_below
                | cons second other =>
                    have reached : partAmong? part.parts (next :: path) = some one := further
                    have reached_other : partAmong? part.parts (second :: other) = some another :=
                      further_later
                    exact ih below reached reached_other is_leaf other_leaf different_below
          · exact .inr (ends_other ▸ stacked.apart chosen_later chosen after further_later further)

end Std140

/-! ## Blocks -/

namespace BlockMember

def part (member : BlockMember) : Std140.Part := ⟨member.offset, member.ty, member.rowMajor⟩

end BlockMember

namespace Std140

/-- The first byte behind some members, or another one if there are none. -/
def behind (start : Nat) (members : List BlockMember) : Nat :=
  (members.getLast?.map fun member => member.part.finish).getD start

theorem behind_cons (start : Nat) (member : BlockMember) (members : List BlockMember) :
    behind start (member :: members) = behind member.part.finish members := by
  cases last : members.getLast? <;> simp [behind, List.getLast?_cons, last]

/-- Placing members gives each of them the next offset that its alignment allows, as long as the
bytes are words. -/
theorem placeMembers_spec (members : List BlockMember) : ∀ start : Nat,
    bytesBehind start (members.map BlockMember.field) < UInt32.size →
      Stacked start ((placeMembers start members).1.map BlockMember.part)
        (placeMembers start members).2 ∧
      (placeMembers start members).2 = behind start (placeMembers start members).1 ∧
      ∀ before member after, (placeMembers start members).1 = before ++ member :: after →
        member.offset = leastMultiple (baseAlignment member.ty) (behind start before) := by
  induction members with
  | nil => exact fun start _ => ⟨Nat.le_refl start, rfl, by simp [placeMembers]⟩
  | cons first members ih =>
      intro start fits
      have positive := baseAlignment_pos first.ty
      obtain ⟨fits_behind, places⟩ := placeMembers_cons fits
      obtain ⟨stacked, final, placed⟩ := ih _ fits_behind
      rw [places]
      refine ⟨?_, ?_, ?_⟩
      · exact ⟨le_leastMultiple positive start, dvd_leastMultiple .., stacked⟩
      · rw [behind_cons]
        exact final
      · intro before member after split
        cases before with
        | nil =>
            obtain ⟨rfl, -⟩ := List.cons.inj split
            rfl
        | cons other before =>
            obtain ⟨rfl, later⟩ := List.cons.inj split
            rw [behind_cons]
            exact placed before member after later

end Std140

namespace UniformBlock

open Std140

/-- The part of a block to which a path leads, its first number choosing a member. -/
def partAt? (block : UniformBlock) (path : List Nat) : Option Part :=
  partAmong? (block.members.map BlockMember.part) path

/-- The layout of a block is sound at every depth. -/
structure Sound (block : UniformBlock) : Prop where
  aligned : ∀ {path part}, block.partAt? path = some part → part.Aligned
  apart : ∀ {path other one another}, block.partAt? path = some one →
    block.partAt? other = some another → one.isLeaf = true → another.isLeaf = true →
    path ≠ other → one.Apart another
  inside : ∀ {path leaf}, block.partAt? path = some leaf → leaf.isLeaf = true →
    leaf.offset + 4 * leaf.ty.components ≤ block.size
  ordered : (block.members.map (·.offset)).Pairwise (· ≤ ·)
  placed : ∀ before member after, block.members = before ++ member :: after →
    IsLeast {offset | baseAlignment member.ty ∣ offset ∧ behind 0 before ≤ offset} member.offset
  size : IsLeast {size | 16 ∣ size ∧ behind 0 block.members ≤ size} block.size

/-- Laying out a block whose bytes are words changes no declaration of a member, and gives a layout
that is sound at every depth. -/
theorem layout_sound (block : UniformBlock) (fits : block.bytes < UInt32.size) :
    block.layout.members.map BlockMember.field = block.members.map BlockMember.field ∧
      block.layout.Sound := by
  have behind_fits := Nat.lt_of_le_of_lt (le_leastMultiple (by decide) _) fits
  obtain ⟨stacked, final, placed⟩ := placeMembers_spec block.members 0 behind_fits
  have rounded : block.layout.size = leastMultiple 16 (behind 0 block.layout.members) := by
    show roundUp (placeMembers 0 block.members).2 16 = _
    rw [placeMembers_final _ _ behind_fits] at final ⊢
    rw [roundUp_of_lt fits, final]
    rfl
  have size : IsLeast {size | 16 ∣ size ∧ behind 0 block.layout.members ≤ size}
      block.layout.size := rounded ▸ isLeast_leastMultiple (by decide) _
  refine ⟨placeMembers_fields block.members 0, ?_, stacked.leaves_apart, ?_, ?_, ?_, size⟩
  · intro path part found
    cases path with
    | nil => cases found
    | cons index path =>
        obtain ⟨member, chosen, further⟩ := Option.bind_eq_some_iff.mp found
        exact (Part.at?_inside (stacked.at_position chosen).1 further).1
  · intro path leaf found is_leaf
    cases path with
    | nil => cases found
    | cons index path =>
        obtain ⟨member, chosen, further⟩ := Option.bind_eq_some_iff.mp found
        obtain ⟨aligned, -, ends⟩ := stacked.at_position chosen
        obtain ⟨-, -, earlier⟩ := Part.at?_inside aligned further
        rw [← Part.finish_of_isLeaf is_leaf]
        exact Nat.le_trans earlier (Nat.le_trans ends (final ▸ size.1.2))
  · have ordered := stacked.ordered
    rwa [List.map_map] at ordered
  · intro before member after split
    rw [placed before member after split]
    exact isLeast_leastMultiple (baseAlignment_pos _) _

/-- Two records, each of a vector of three components and a matrix of three rows, behind a
scalar. -/
def lights : UniformBlock :=
  let light : Ty := .record "Light"
    [⟨"place", .floatVector .three, false⟩, ⟨"turn", .matrix .two .three, true⟩]
  ofMembers "Lights" [("ambient", .float), ("lights", .sizedArray light 2)]

/-- The last row of the row-major matrix in the second record begins sixteen bytes before the
end. -/
theorem lights_layout_sound :
    lights.bytes < UInt32.size ∧ lights.layout.Sound ∧ lights.layout.size = 144 ∧
    lights.layout.partAt? [1, 1, 1, 2] = some ⟨128, .floatVector .two, true⟩ :=
  have fits : lights.bytes < UInt32.size := by decide
  ⟨fits, (layout_sound lights fits).2, by decide, by decide⟩

end UniformBlock
end StageLink
