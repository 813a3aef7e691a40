import StageLink.Proofs.Checking
import StageLink.Proofs.Consensus

/-!
# Blocks of one stage

Every declaration of a block is compared with the first one of its mode and name.  Definitions that
agree with the first agree with one another, unless the first leaves the length of a member array
open that two of them give differently.  So the check of the units of a stage finds out whether all
declarations of a block agree, in whatever order the units come, except in this case.
-/

namespace StageLink
namespace InterfaceBlock

open Declaration Shader

/-! ## Definitions that agree -/

theorem membersMatch_iff {left right : Field Ty} : membersMatch left right = true ↔
    left.name = right.name ∧ left.rowMajor = right.rowMajor ∧
      (left.ty = right.ty ∨ unifiable left.ty right.ty = true) := by
  simp only [membersMatch, Bool.and_eq_true, Bool.or_eq_true, decide_eq_true_eq, and_assoc]

theorem membersMatch_comm {left right : Field Ty} (agree : membersMatch left right = true) :
    membersMatch right left = true := by
  obtain ⟨name, rowMajor, types⟩ := membersMatch_iff.mp agree
  exact membersMatch_iff.mpr ⟨name.symm, rowMajor.symm, types.imp Eq.symm fun may =>
    (unifiable_comm _ _).trans may⟩

/-- Definitions agree if they have the same name and packing, and their members agree one by one. -/
theorem definitionsMatch_iff {left right : Ty} : definitionsMatch left right = true ↔
    ∃ name packing fields fields', left = .interface name fields packing ∧
      right = .interface name fields' packing ∧
      List.Forall₂ (fun member member' => membersMatch member member' = true) fields fields' := by
  constructor
  · intro agree
    unfold definitionsMatch at agree
    split at agree
    · next name fields packing name' fields' packing' =>
        simp only [Bool.and_eq_true, decide_eq_true_eq, List.all_eq_true] at agree
        obtain ⟨⟨⟨rfl, rfl⟩, length⟩, members⟩ := agree
        exact ⟨name, packing, fields, fields', rfl, rfl,
          List.forall₂_iff_zip.mpr ⟨length, fun pair => members _ pair⟩⟩
    · cases agree
  · rintro ⟨name, packing, fields, fields', rfl, rfl, members⟩
    obtain ⟨length, members⟩ := List.forall₂_iff_zip.mp members
    simp only [definitionsMatch, length, decide_true, Bool.and_true, Bool.true_and,
      List.all_eq_true]
    exact fun pair => members

theorem definitionsMatch_comm {left right : Ty} (agree : definitionsMatch left right = true) :
    definitionsMatch right left = true := by
  obtain ⟨name, packing, fields, fields', rfl, rfl, members⟩ := definitionsMatch_iff.mp agree
  exact definitionsMatch_iff.mpr ⟨name, packing, fields', fields, rfl, rfl,
    members.flip.imp fun _ _ => membersMatch_comm⟩

/-- A member array without a length has different lengths in two other definitions. -/
def SplitsMember (first one other : Field Ty) : Prop :=
  first.ty.isUnsizedArray = true ∧ one.ty.isUnsizedArray = false ∧ other.ty.isUnsizedArray = false ∧
    one.ty ≠ other.ty

/-- A definition leaves the length of some member array open that two others give differently. -/
def Splits (first one other : Ty) : Prop :=
  ∃ (position : Nat) (member member' member'' : Field Ty), first.fields[position]? = some member ∧
    one.fields[position]? = some member' ∧ other.fields[position]? = some member'' ∧
    SplitsMember member member' member''

/-- Members that agree with the same member agree, unless this one leaves open what they give
differently. -/
theorem membersMatch_of_first {first one other : Field Ty} (agree : membersMatch first one = true)
    (agree_too : membersMatch first other = true) (settled : ¬ SplitsMember first one other) :
    membersMatch one other = true := by
  obtain ⟨name, rowMajor, types⟩ := membersMatch_iff.mp agree
  obtain ⟨name', rowMajor', types'⟩ := membersMatch_iff.mp agree_too
  refine membersMatch_iff.mpr ⟨name.symm.trans name', rowMajor.symm.trans rowMajor', ?_⟩
  rcases types with same | may
  · rwa [← same]
  · rcases types' with same' | may'
    · rw [← same', unifiable_comm]
      exact .inr may
    · simp only [unifiable, SplitsMember, Bool.and_eq_true, Bool.or_eq_true, decide_eq_true_eq] at *
      grind

theorem members_of_first {members members' members'' : List (Field Ty)}
    (agree : List.Forall₂ (fun one other => membersMatch one other = true) members members')
    (agree_too : List.Forall₂ (fun one other => membersMatch one other = true) members members'')
    (settled : ∀ (position : Nat) (first one other : Field Ty), members[position]? = some first →
      members'[position]? = some one → members''[position]? = some other →
        ¬ SplitsMember first one other) :
    List.Forall₂ (fun one other => membersMatch one other = true) members' members'' := by
  induction agree generalizing members'' with
  | nil =>
      cases agree_too
      exact .nil
  | cons here _ ih =>
      cases agree_too with
      | cons here_too rest_too =>
          refine .cons (membersMatch_of_first here here_too (settled 0 _ _ _ rfl rfl rfl)) ?_
          exact ih rest_too fun position => settled (position + 1)

/-- Definitions that agree with the same one agree, unless this one leaves open what they give
differently. -/
theorem definitionsMatch_of_first {first one other : Ty} (agree : definitionsMatch first one = true)
    (agree_too : definitionsMatch first other = true) (settled : ¬ Splits first one other) :
    definitionsMatch one other = true := by
  obtain ⟨name, packing, fields, fields', rfl, rfl, members⟩ := definitionsMatch_iff.mp agree
  obtain ⟨name', packing', _, fields'', same, rfl, members'⟩ := definitionsMatch_iff.mp agree_too
  obtain ⟨rfl, rfl, rfl⟩ := Ty.interface.inj same
  refine definitionsMatch_iff.mpr ⟨name, packing, fields', fields'', rfl, rfl, ?_⟩
  refine members_of_first members members' ?_
  intro position member member' member'' there there' there'' splits
  exact settled ⟨position, member, member', member'', there, there', there'', splits⟩

/-! ## Blocks of one kind -/

def ofKind (mode : VariableMode) (name : String) (block : Sighting) : Bool :=
  block.mode = mode && block.name = name

theorem ofKind_iff {mode : VariableMode} {name : String} {block : Sighting} :
    ofKind mode name block = true ↔ block.mode = mode ∧ block.name = name := by
  simp [ofKind]

/-- The blocks that the globals of some units belong to, in order. -/
def sightings (units : List Shader) : List Sighting :=
  units.flatMap fun unit => unit.globals.filterMap fun id => (unit.vars.get? id).bind sighting?

def Agree (one other : Sighting) : Prop :=
  one.mode = other.mode → one.name = other.name →
    definitionsMatch one.definition other.definition = true

theorem Agree.symm {one other : Sighting} (agree : Agree one other) : Agree other one :=
  fun mode name => definitionsMatch_comm (agree mode.symm name.symm)

def MatchFirst : List Sighting → Prop
  | [] => True
  | first :: later => ∀ block ∈ later, definitionsMatch first.definition block.definition = true

/-- No two later definitions differ in a length that the first one leaves open. -/
def SettledByFirst : List Sighting → Prop
  | [] => True
  | first :: later => later.Pairwise fun one other =>
      ¬ Splits first.definition one.definition other.definition

/-- Blocks agree with one another if those of each mode and name do. -/
theorem pairwise_agree_iff {blocks : List Sighting} : blocks.Pairwise Agree ↔
    ∀ mode name, (blocks.filter (ofKind mode name)).Pairwise fun one other =>
      definitionsMatch one.definition other.definition = true := by
  simp only [List.pairwise_iff_forall_sublist]
  constructor
  · intro agree mode name one other sublist
    have one_kind := List.mem_filter.mp (sublist.mem (List.mem_cons_self ..))
    have other_kind := List.mem_filter.mp
      (sublist.mem (List.mem_cons_of_mem one (List.mem_singleton.mpr rfl)))
    obtain ⟨rfl, rfl⟩ := ofKind_iff.mp one_kind.2
    obtain ⟨same_mode, same_name⟩ := ofKind_iff.mp other_kind.2
    exact agree (sublist.trans List.filter_sublist) same_mode.symm same_name.symm
  · intro each one other sublist same_mode same_name
    have kinds := sublist.filter (ofKind one.mode one.name)
    rw [List.filter_cons_of_pos (ofKind_iff.mpr ⟨rfl, rfl⟩),
      List.filter_cons_of_pos (ofKind_iff.mpr ⟨same_mode.symm, same_name.symm⟩),
        List.filter_nil] at kinds
    exact each one.mode one.name kinds

/-- Blocks of one kind agree with one another if they agree with the first, unless this one leaves
open what they give differently. -/
theorem pairwise_match_iff {blocks : List Sighting} (settled : SettledByFirst blocks) :
    blocks.Pairwise (fun one other => definitionsMatch one.definition other.definition = true) ↔
      MatchFirst blocks := by
  cases blocks with
  | nil => exact ⟨fun _ => trivial, fun _ => .nil⟩
  | cons first later =>
      rw [List.pairwise_cons]
      refine ⟨And.left, fun agree => ⟨agree, ?_⟩⟩
      refine List.Pairwise.imp_of_mem (fun one_listed other_listed settled => ?_) settled
      exact definitionsMatch_of_first (agree _ one_listed) (agree _ other_listed) settled

/-! ## The check -/

variable {seen : List Sighting} {block first : Sighting}

/-- No mode and name occurs twice. -/
def Once (seen : List Sighting) : Prop := ∀ mode name, (seen.filter (ofKind mode name)).length ≤ 1

theorem Once.filter_eq (once : Once seen) {mode : VariableMode} {name : String}
    (found : seen.find? (ofKind mode name) = some first) :
    seen.filter (ofKind mode name) = [first] := by
  have single := once mode name
  rw [← List.head?_filter] at found
  obtain ⟨later, chain⟩ := List.head?_eq_some_iff.mp found
  rw [chain, List.length_cons] at single
  have none_later : later.length = 0 := by omega
  rw [chain, List.length_eq_zero_iff.mp none_later]

theorem Once.append (once : Once seen) (unseen : seen.find? (ofKind block.mode block.name) = none) :
    Once (seen ++ [block]) := by
  intro mode name
  rw [List.filter_append]
  by_cases kind : ofKind mode name block = true
  · obtain ⟨rfl, rfl⟩ := ofKind_iff.mp kind
    have none_seen := List.filter_eq_nil_iff.mpr (List.find?_eq_none.mp unseen)
    rw [none_seen, List.filter_cons_of_pos kind]
    exact Nat.le_refl 1
  · rw [List.filter_cons_of_neg kind, List.filter_nil, List.append_nil]
    exact once mode name

/-- A block whose kind has been seen adds to what is to agree with the first of its kind. -/
theorem matchFirst_insert {later : List Sighting}
    (seen_first : seen.filter (ofKind block.mode block.name) = [first]) :
    (∀ mode name, MatchFirst ((seen ++ block :: later).filter (ofKind mode name))) ↔
      definitionsMatch first.definition block.definition = true ∧
        ∀ mode name, MatchFirst ((seen ++ later).filter (ofKind mode name)) := by
  have each : ∀ mode name, MatchFirst ((seen ++ block :: later).filter (ofKind mode name)) ↔
      (ofKind mode name block = true → definitionsMatch first.definition block.definition = true) ∧
        MatchFirst ((seen ++ later).filter (ofKind mode name)) := by
    intro mode name
    rw [List.filter_append, List.filter_append]
    by_cases kind : ofKind mode name block = true
    · obtain ⟨rfl, rfl⟩ := ofKind_iff.mp kind
      rw [seen_first, List.filter_cons_of_pos kind]
      have needed : ∀ agrees : Prop, agrees ↔
        (ofKind block.mode block.name block = true → agrees) :=
        fun agrees => ⟨fun holds _ => holds, fun holds => holds kind⟩
      exact List.forall_mem_cons.trans (and_congr_left' (needed _))
    · rw [List.filter_cons_of_neg kind]
      exact (and_iff_right fun here => absurd here kind).symm
  simp only [each]
  constructor
  · intro agree
    exact ⟨(agree block.mode block.name).1 (ofKind_iff.mpr ⟨rfl, rfl⟩),
      fun mode name => (agree mode name).2⟩
  · rintro ⟨here, others⟩ mode name
    exact ⟨fun _ => here, others mode name⟩

/-- The block that a global belongs to. -/
def sightedAt (pair : Shader × VariableId) : Option Sighting :=
  (pair.1.vars.get? pair.2).bind sighting?

theorem checkUnitsFrom_grants {pairs : List (Shader × VariableId)}
    (bound : ∀ pair ∈ pairs, pair.2 < pair.1.vars.size) : ∀ {seen : List Sighting}, Once seen →
    ((checkUnitsFrom seen pairs).Grants () ↔ ∀ mode name,
      MatchFirst ((seen ++ pairs.filterMap sightedAt).filter (ofKind mode name))) := by
  induction pairs with
  | nil =>
      intro seen once
      rw [checkUnitsFrom, Judged.grants_pure, List.filterMap_nil, List.append_nil]
      refine iff_of_true rfl fun mode name => ?_
      have single := once mode name
      cases chain : seen.filter (ofKind mode name) with
      | nil => trivial
      | cons first later =>
          rw [chain, List.length_cons] at single
          have none_later : later.length = 0 := by omega
          rw [List.length_eq_zero_iff.mp none_later]
          exact fun _ listed => absurd listed List.not_mem_nil
  | cons pair pairs ih =>
      intro seen once
      have ih :=
        fun {seen} => @ih (fun other listed => bound other (List.mem_cons_of_mem _ listed)) seen
      obtain ⟨shader, id⟩ := pair
      obtain ⟨declared, found⟩ := Arena.exists_get? (bound (shader, id) (List.mem_cons_self ..))
      have here : sightedAt (shader, id) = sighting? declared := by
        rw [sightedAt, found]
        rfl
      have fetched := fetchVariable_eq_ok.mpr found
      rw [checkUnitsFrom, Judged.bind_of_grants (Judged.grants_monadLift.mpr fetched)]
      cases sighted : sighting? declared with
      | none =>
          rw [List.filterMap_cons_none (here.trans sighted)]
          exact ih once
      | some block =>
          rw [List.filterMap_cons_some (here.trans sighted)]
          dsimp only
          cases known : seen.find? fun first => first.mode = block.mode &&
            first.name = block.name with
          | none =>
              have unseen : seen.find? (ofKind block.mode block.name) = none := known
              refine (ih (once.append unseen)).trans ?_
              rw [List.append_assoc]
              rfl
          | some first =>
              have seen_first : seen.find? (ofKind block.mode block.name) = some first := known
              rw [matchFirst_insert (once.filter_eq seen_first), ← ih once]
              dsimp only
              by_cases agree : definitionsMatch first.definition block.definition = true
              · rw [if_pos agree]
                exact (and_iff_right agree).symm
              · rw [if_neg agree]
                exact iff_of_false Judged.grants_reject fun both => agree both.1

theorem sightings_eq (units : List Shader) : sightings units =
    (units.flatMap fun unit => unit.globals.map fun id => (unit, id)).filterMap sightedAt := by
  rw [sightings, List.filterMap_flatMap]
  refine List.flatMap_congr fun unit _ => ?_
  rw [List.filterMap_map]
  rfl

/-- Every two declarations of blocks with the same mode and name have definitions that agree. -/
def AllAgree (units : List Shader) : Prop :=
  ∀ (first second : Nat) (one other : Sighting), first ≠ second →
    (sightings units)[first]? = some one →
    (sightings units)[second]? = some other → Agree one other

/-- No length that the first declaration of a block leaves open is given differently by two
others. -/
def LengthsSettled (units : List Shader) : Prop :=
  ∀ mode name, SettledByFirst ((sightings units).filter (ofKind mode name))

variable {units others : List Shader}

theorem allAgree_iff : AllAgree units ↔ (sightings units).Pairwise Agree := by
  rw [List.pairwise_iff_forall_sublist]
  constructor
  · intro agree one other sublist
    obtain ⟨first, second, before, there, there_too⟩ := pair_sublist_iff.mp sublist
    exact agree first second one other (Nat.ne_of_lt before) there there_too
  · intro agree first second one other differ there there_too
    rcases Nat.lt_or_gt_of_ne differ with before | after
    · exact agree (pair_sublist_iff.mpr ⟨first, second, before, there, there_too⟩)
    · exact (agree (pair_sublist_iff.mpr ⟨second, first, after, there_too, there⟩)).symm

/-- The order of the units does not matter to whether all declarations agree. -/
theorem allAgree_perm (reordered : others.Perm units) : AllAgree others ↔ AllAgree units := by
  rw [allAgree_iff, allAgree_iff]
  exact (reordered.flatMap_right _).pairwise_iff Agree.symm

theorem checkUnits_grants (bound : ∀ unit ∈ units, ∀ id ∈ unit.globals, id < unit.vars.size)
    (settled : LengthsSettled units) : (checkUnits units).Grants () ↔ AllAgree units := by
  have nothing_seen : Once [] := fun _ _ => Nat.zero_le 1
  rw [checkUnits, checkUnitsFrom_grants (bound_of_globals bound) nothing_seen, List.nil_append,
    ← sightings_eq, allAgree_iff, pairwise_agree_iff]
  exact forall_congr' fun mode => forall_congr' fun name =>
    (pairwise_match_iff (settled mode name)).symm

/-- The check of the units of a stage is passed exactly if every two declarations of a block agree,
whatever the order of the units, unless two of them differ in a length that the first leaves
open. -/
theorem checkUnits_pairwise (bound : ∀ unit ∈ units, ∀ id ∈ unit.globals, id < unit.vars.size)
    (settled : LengthsSettled units) : ((checkUnits units).Grants () ↔ AllAgree units) ∧
      ((∃ errors, (checkUnits units).Rejects errors) ↔ ¬ AllAgree units) ∧
      ∀ others, others.Perm units → LengthsSettled others →
        ((checkUnits others).Grants () ↔ (checkUnits units).Grants ()) := by
  have grants := checkUnits_grants bound settled
  refine ⟨grants, ?_, fun others reordered settled_too => ?_⟩
  · have answers := checkUnitsFrom_answers (bound_of_globals bound) []
    rw [← grants]
    exact answers.exists_rejects_iff
  · have bound_too : ∀ unit ∈ others, ∀ id ∈ unit.globals, id < unit.vars.size :=
      fun unit among => bound unit (reordered.mem_iff.mp among)
    rw [checkUnits_grants bound_too settled_too, grants, allAgree_perm reordered]

/-! ## Lengths left open -/

/-- A block with one member. -/
def dataBlock (values : Ty) : Ty := .interface "Data" [{ name := "values", ty := values }] .shared

/-- A unit with an output block that has one member. -/
def showing (instanceName : String) (values : Ty) : Shader :=
  ({ stage := .vertex
     version := 150
     vars := ⟨[{ Variable.ofType instanceName (dataBlock values) .shaderOut with
       interfaceType := some (dataBlock values) }]⟩
     topLevel := [.declare 0] } : Shader).populateSymbols

/-- A unit that leaves the length of the member array open. -/
def leavingOpen : Shader := showing "first" (.unsizedArray (.scalar .float))

/-- A unit that gives the length of the member array. -/
def giving (length : Nat) : Shader :=
  showing "second" (.sizedArray (.scalar .float) length)

/-- Two lengths that agree with the one left open do not agree with each other, which the check does
not find out unless it comes upon one of them first. -/
theorem open_length_is_granted :
    (∀ unit ∈ [leavingOpen, giving 3, giving 4], ∀ id ∈ unit.globals, id < unit.vars.size) ∧
    ¬ AllAgree [leavingOpen, giving 3, giving 4] ∧
    (checkUnits [leavingOpen, giving 3, giving 4]).Grants () ∧
    (checkUnits [giving 3, leavingOpen, giving 4]).Rejects [.interfaceBlockMismatch "Data"] := by
  refine ⟨by decide, fun agree => ?_, rfl, rfl⟩
  have same := agree 1 2 _ _ (by decide) rfl rfl rfl rfl
  revert same
  decide

/-- A block that gives the length of its only member leaves nothing open. -/
theorem not_splits_sized (element : Ty) (length : Nat) (one other : Ty) :
    ¬ Splits (dataBlock (.sizedArray element length)) one other := by
  rintro ⟨position, member, member', member'', there, -, -, is_open, -⟩
  cases position with
  | zero =>
      obtain rfl := Option.some.inj there
      cases is_open
  | succ position => cases there

theorem given_length_is_settled :
    (∀ unit ∈ [giving 3, leavingOpen, giving 4], ∀ id ∈ unit.globals, id < unit.vars.size) ∧
    LengthsSettled [giving 3, leavingOpen, giving 4] ∧
    ∃ errors, (checkUnits [giving 3, leavingOpen, giving 4]).Rejects errors := by
  have bound : ∀ unit ∈ [giving 3, leavingOpen, giving 4], ∀ id ∈ unit.globals,
      id < unit.vars.size := by
    decide
  have settled : LengthsSettled [giving 3, leavingOpen, giving 4] := by
    intro mode name
    have blocks : sightings [giving 3, leavingOpen, giving 4] =
        [.sizedArray (.scalar .float) 3, .unsizedArray (.scalar .float),
          .sizedArray (.scalar .float) 4].map
          fun values => ⟨.shaderOut, "Data", dataBlock values⟩ := rfl
    by_cases kind : VariableMode.shaderOut = mode ∧ "Data" = name
    · obtain ⟨rfl, rfl⟩ := kind
      exact List.pairwise_pair.mpr (not_splits_sized _ 3 _ _)
    · rw [blocks, List.filter_eq_nil_iff.mpr]
      · trivial
      · intro block listed is_kind
        obtain ⟨values, -, rfl⟩ := List.mem_map.mp listed
        exact kind (ofKind_iff.mp is_kind)
  refine ⟨bound, settled, (checkUnits_pairwise bound settled).2.1.mpr fun agree => ?_⟩
  have same := agree 0 2 _ _ (by decide) rfl rfl rfl rfl
  revert same
  decide

end InterfaceBlock
end StageLink
