import StageLink.Proofs.Drafts
import StageLink.Proofs.Members

/-!
# Shaders that continue

While an executable is put together it keeps its variables and its signatures.  It gets further
ones, and types that a unit has left open are completed: arrays without elements get a length, and
the members of block instances are sized.
-/

namespace StageLink

/-- The second type is the first, unless the first is an array without elements or a block
instance. -/
def Ty.Completes (one other : Ty) : Prop :=
  other = one ∨ one.length? = some 0 ∨ one.interface?.isSome = true

/-- The second declaration has the name and mode of the first, and its type is completed. -/
structure Variable.Completes (one other : Variable) : Prop where
  name : other.name = one.name
  mode : other.mode = one.mode
  ty : one.ty.Completes other.ty

theorem Ty.Completes.refl (ty : Ty) : ty.Completes ty := .inl rfl

theorem Ty.Completes.trans {one other last : Ty} (before : one.Completes other)
    (after : other.Completes last) : one.Completes last := by
  rcases before with rfl | unfinished
  · exact after
  · exact .inr unfinished

theorem Ty.length?_of_unsized {ty : Ty} (unsized : ty.isUnsizedArray = true) :
    ty.length? = some 0 := by
  unfold isUnsizedArray at unsized
  split at unsized
  · rfl
  · cases unsized

namespace Variable.Completes

theorem refl (declared : Variable) : declared.Completes declared := ⟨rfl, rfl, .refl _⟩

theorem trans (one other last : Variable) (before : one.Completes other)
    (after : other.Completes last) : one.Completes last :=
  ⟨after.name.trans before.name, after.mode.trans before.mode, before.ty.trans after.ty⟩

theorem adopt (resolved declared : Variable) :
    declared.Completes (Declaration.adopt resolved declared) := by
  refine ⟨Declaration.adopt_name .., Declaration.adopt_mode .., ?_⟩
  cases unsized : declared.ty.isUnsizedArray with
  | true => exact .inr (.inl (Ty.length?_of_unsized unsized))
  | false => exact .inl ((KeepsExtent.adopt resolved declared).ty unsized)

theorem fitInput {vertices : Nat} {declared fitted : Variable}
    (fits : ArraySize.fitInput vertices declared = .ok fitted) : declared.Completes fitted := by
  obtain rfl | ⟨-, as_long, -, rfl⟩ := Merge.fitInput_eq_ok fits
  · exact refl _
  · refine ⟨rfl, rfl, ?_⟩
    cases form : declared.ty with
    | array element length =>
        cases length with
        | none => exact .inr (.inl rfl)
        | some length =>
            rw [form] at as_long
            obtain empty | same : length = 0 ∨ length = vertices := as_long
            · exact .inr (.inl (by simp [Ty.length?, empty]))
            · exact .inl (by simp [Ty.withLength, same])
    | _ => exact .inl rfl

theorem sizedVariable (declared : Variable) :
    declared.Completes (ArraySize.sizedVariable declared) := by
  rcases ArraySize.sizedVariable_cases declared with lengthened | ⟨is_instance, _, _, -, -, same⟩
  · rw [lengthened]
    refine ⟨rfl, rfl, ?_⟩
    cases unsized : declared.ty.isUnsizedArray with
    | true => exact .inr (.inl (Ty.length?_of_unsized unsized))
    | false => exact .inl (ArraySize.sized_of_sized unsized _)
  · rw [same]
    exact ⟨rfl, rfl, .inr (.inr is_instance)⟩

end Variable.Completes

namespace Shader

/-- The second shader has the variables and signatures of the first in the same places, with
completed types, and no variable of the first has become a global. -/
structure Continued (before after : Shader) : Prop where
  size : before.vars.size ≤ after.vars.size
  vars : ∀ {id declared}, before.vars.get? id = some declared →
    ∃ found, after.vars.get? id = some found ∧ declared.Completes found
  globals : ∀ {id}, (id ∈ before.globals → id ∈ after.globals) ∧
    (id ∈ after.globals → id ∈ before.globals ∨ before.vars.size ≤ id)
  hasKey : ∀ {callee name types}, before.HasKey callee name types →
    ∃ completed, after.HasKey callee name completed ∧ List.Forall₂ Ty.Completes types completed

variable {first second third before after result : Shader}

theorem Continued.trans (one : Continued first second) (other : Continued second third) :
    Continued first third where
  size := Nat.le_trans one.size other.size
  vars found := by
    obtain ⟨halfway, is_there, completes⟩ := one.vars found
    obtain ⟨last, now, completes_on⟩ := other.vars is_there
    exact ⟨last, now, .trans _ _ _ completes completes_on⟩
  globals := by
    refine ⟨fun global => other.globals.1 (one.globals.1 global), fun global => ?_⟩
    rcases other.globals.2 global with old | new
    · exact one.globals.2 old
    · exact .inr (Nat.le_trans one.size new)
  hasKey has := by
    obtain ⟨halfway, has_halfway, completed⟩ := one.hasKey has
    obtain ⟨last, has_last, completed_on⟩ := other.hasKey has_halfway
    refine ⟨last, has_last, forall₂_of_comp ?_ completed completed_on⟩
    exact fun _ _ _ first second => Ty.Completes.trans first second

theorem Evolves.continues (evolves : Evolves before after) : Continued before after where
  size := evolves.size
  vars found := ⟨_, evolves.vars _ _ found, .refl _⟩
  globals := evolves.globals
  hasKey has := ⟨_, evolves.hasKey has, List.forall₂_same.mpr fun _ _ => .refl _⟩

theorem Revised.continues (revised : Revised Variable.Completes before after) :
    Continued before after where
  size := Nat.le_of_eq revised.size.symm
  vars := revised.related
  globals := by
    rw [revised.globals]
    exact ⟨fun global => global, .inl⟩
  hasKey := by
    rintro callee name types ⟨function, signature, found, named, there, typed⟩
    have completed : ∀ {ids : List VariableId} {types : List Ty}, List.Forall₂
        (fun id ty => ∃ declared, before.vars.get? id = some declared ∧
          declared.ty = ty) ids types →
        ∃ completed, List.Forall₂
          (fun id ty => ∃ declared, after.vars.get? id = some declared ∧ declared.ty = ty)
            ids completed ∧ List.Forall₂ Ty.Completes types completed := by
      intro ids types typed
      induction typed with
      | nil => exact ⟨[], .nil, .nil⟩
      | cons has _ ih =>
          obtain ⟨declared, was, rfl⟩ := has
          obtain ⟨later, now, completes⟩ := revised.related was
          obtain ⟨rest, has_rest, completes_rest⟩ := ih
          exact ⟨later.ty :: rest, .cons ⟨later, now, rfl⟩ has_rest,
            .cons completes.ty completes_rest⟩
    obtain ⟨completed, has_completed, completes⟩ := completed (typesOf_eq_ok.mp typed)
    refine ⟨completed, ⟨function, signature, ?_, named, there, typesOf_eq_ok.mpr has_completed⟩,
      completes⟩
    rw [revised.same]
    exact found

theorem continues_retypeElements (flat : before.topLevel.Flat)
    (runs : ArraySize.retypeElements before = .ok after) : Continued before after := by
  have same := retypeElements_eq_ok flat runs
  obtain ⟨-, -, functions⟩ := mapBodies_eq_ok runs
  have same_vars : after.vars = before.vars := by rw [same]
  have same_globals : after.globals = before.globals := by
    rw [same]
    rfl
  refine ⟨Nat.le_of_eq (by rw [same_vars]), fun found => ⟨_, same_vars ▸ found, .refl _⟩, ?_, ?_⟩
  · rw [same_globals]
    exact ⟨fun global => global, .inl⟩
  · rintro callee name types ⟨function, signature, found, named, there, typed⟩
    obtain ⟨changed, now, changes⟩ := exists_getElem?_of_forall₂ functions found
    obtain ⟨renewed, there_now, renews⟩ := exists_getElem?_of_forall₂ changes.2 there
    refine ⟨types, ⟨changed, renewed, now, changes.1.trans named, there_now, ?_⟩,
      List.forall₂_same.mpr fun _ _ => .refl _⟩
    rw [renews.1]
    refine typesOf_keeps (fun id declared found => ?_) typed
    rw [same_vars]
    exact found

end Shader
end StageLink
