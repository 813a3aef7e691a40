import StageLink.Proofs.Globals
import StageLink.Proofs.Ledger
import Mathlib.Data.List.Sort

/-!
# Attributes

An allocation of vertex inputs or fragment outputs only changes where variables are: their
locations, their dual-source indices and their marks.  What has no location is sorted by size before
it is placed, and the sort is stable.
-/

namespace StageLink

/-- Two declarations that differ at most in location, index and mark. -/
def Variable.SameButPlace (one other : Variable) : Prop :=
  other = { one with
    location := other.location, unmatched := other.unmatched, index := other.index }

namespace Variable.SameButPlace

theorem refl (declared : Variable) : declared.SameButPlace declared := rfl

theorem trans (one other last : Variable) (before : one.SameButPlace other)
    (after : other.SameButPlace last) : one.SameButPlace last := by
  unfold SameButPlace at *
  rw [after, before]

theorem settle (location : Nat) (declared : Variable) :
    declared.SameButPlace (Varying.settle location declared) := rfl

theorem invalidate (declared : Variable) : declared.SameButPlace (Varying.invalidate declared) := by
  unfold Varying.invalidate
  split
  · rfl
  · split <;> rfl

theorem name {one other : Variable} (same : one.SameButPlace other) : other.name = one.name := by
  rw [same]

theorem ty {one other : Variable} (same : one.SameButPlace other) : other.ty = one.ty := by
  rw [same]

theorem isGeneric {one other : Variable} (same : one.SameButPlace other) (mode : VariableMode) :
    Varying.isGeneric mode other = Varying.isGeneric mode one := by
  rw [same]
  rfl

end Variable.SameButPlace

/-- Two declarations that differ at most in location, index and mark, the mark being set in the
second only if it is in the first. -/
structure Variable.Moved (one other : Variable) : Prop where
  same : one.SameButPlace other
  matched : one.unmatched = false → other.unmatched = false

namespace Variable.Moved

theorem refl (declared : Variable) : declared.Moved declared :=
  ⟨.refl declared, fun matched => matched⟩

theorem trans (one other last : Variable) (before : one.Moved other) (after : other.Moved last) :
    one.Moved last :=
  ⟨before.same.trans _ _ _ after.same, fun matched => after.matched (before.matched matched)⟩

theorem settle (location : Nat) (declared : Variable) :
    declared.Moved (Varying.settle location declared) :=
  ⟨.settle location declared, fun _ => rfl⟩

end Variable.Moved

/-- The slots of a variable that has a location, its type being taken as its stage sees it. -/
def Variable.span? (seen : Ty → Ty) (declared : Variable) : Option Span :=
  declared.location.map fun location => ⟨location, (seen declared.ty).attributeSlots⟩

/-- Variables of different names that do not share slots by an index lie apart. -/
def Variable.Separate (seen : Ty → Ty) (declared : List Variable) : Prop :=
  ∀ one ∈ declared, ∀ other ∈ declared, one.name ≠ other.name → one.index = 0 → other.index = 0 →
    ∀ span another, one.span? seen = some span → other.span? seen = some another →
      span.Apart another

/-! ## The order of allocation -/

section Order

variable {Item : Type} {slots : Item → Nat} {items : List Item} {one other : Item}

theorem placeBySize_eq (slots : Item → Nat) (item : Item) (items : List Item) :
    placeBySize slots item items =
      items.orderedInsert (fun one other => slots other ≤ slots one) item := by
  induction items with
  | nil => rfl
  | cons other rest ih => rw [placeBySize, ih, List.orderedInsert_cons]

/-- Placing larger items before smaller ones sorts by insertion. -/
theorem largestFirst_eq (slots : Item → Nat) (items : List Item) :
    largestFirst slots items =
      items.insertionSort (fun one other => slots other ≤ slots one) := by
  induction items with
  | nil => rfl
  | cons item items ih => rw [largestFirst, placeBySize_eq, ih, List.insertionSort_cons]

/-- Sorting by size changes only the order. -/
theorem largestFirst_perm (slots : Item → Nat) (items : List Item) :
    (largestFirst slots items).Perm items := by
  rw [largestFirst_eq]
  exact List.perm_insertionSort _ items

theorem slots_le_of_pair_sublist (sublist : [one, other].Sublist (largestFirst slots items)) :
    slots other ≤ slots one := by
  have total : Std.Total fun one other : Item => slots other ≤ slots one :=
    ⟨fun one other => Nat.le_total (slots other) (slots one)⟩
  have transitive : IsTrans Item fun one other => slots other ≤ slots one :=
    ⟨fun _ _ _ before after => Nat.le_trans after before⟩
  rw [largestFirst_eq] at sublist
  have sorted := (List.pairwise_insertionSort _ items).sublist sublist
  simpa using sorted

/-- Items are moved past each other only if the later one is larger. -/
theorem pair_sublist_largestFirst (at_least : slots other ≤ slots one)
    (sublist : [one, other].Sublist items) : [one, other].Sublist (largestFirst slots items) := by
  have total : Std.Total fun one other : Item => slots other ≤ slots one :=
    ⟨fun one other => Nat.le_total (slots other) (slots one)⟩
  have transitive : IsTrans Item fun one other => slots other ≤ slots one :=
    ⟨fun _ _ _ before after => Nat.le_trans after before⟩
  rw [largestFirst_eq]
  exact List.pair_sublist_insertionSort at_least sublist

/-- An item comes before another exactly if it is larger, or of the same size and listed before
it. -/
theorem pair_sublist_largestFirst_iff (nodup : items.Nodup) (one_listed : one ∈ items)
    (other_listed : other ∈ items) (differ : one ≠ other) :
    [one, other].Sublist (largestFirst slots items) ↔
      slots other < slots one ∨ slots other = slots one ∧ [one, other].Sublist items := by
  have order := largestFirst_perm slots items
  have nodup_order : (largestFirst slots items).Nodup := order.nodup_iff.mpr nodup
  constructor
  · intro sublist
    rcases Nat.lt_or_eq_of_le (slots_le_of_pair_sublist sublist) with smaller | same
    · exact .inl smaller
    · refine .inr ⟨same, ?_⟩
      rcases pair_sublist_total one_listed other_listed differ with kept | swapped
      · exact kept
      · exact absurd (pair_sublist_largestFirst same.ge swapped)
          (not_pair_sublist_of_nodup nodup_order sublist)
  · rintro (smaller | ⟨same, sublist⟩)
    · rcases pair_sublist_total (order.mem_iff.mpr one_listed) (order.mem_iff.mpr other_listed)
        differ with kept | swapped
      · exact kept
      · exact absurd (slots_le_of_pair_sublist swapped) (Nat.not_le_of_lt smaller)
    · exact pair_sublist_largestFirst same.le sublist

end Order

namespace Attribute

variable {target : AttributeTarget} {limit : Nat} {bindings : Bindings} {start : Shader}

/-- A declaration with the location that is bound to it, unless it has an explicit one or none can
be bound to it. -/
def bound (target : AttributeTarget) (bindings : Bindings) (declared : Variable) : Variable :=
  if Varying.isGeneric target.mode declared && !declared.explicitLocation then
    bind target bindings declared
  else
    declared

theorem moved_bind (declared : Variable) : declared.Moved (bind target bindings declared) := by
  unfold bind
  split
  · exact .refl declared
  · exact ⟨rfl, fun _ => rfl⟩

theorem moved_bound (declared : Variable) : declared.Moved (bound target bindings declared) := by
  unfold bound
  split
  · exact moved_bind declared
  · exact .refl declared

/-! ## What an allocation leaves alone -/

theorem claimAll_moved {ids : List VariableId} :
    ∀ {allocation result : Allocation} {failure : Option LinkError},
      claimAll target limit bindings allocation ids = .ok (result, failure) →
      Shader.Revised Variable.Moved allocation.shader result.shader := by
  induction ids with
  | nil =>
      intro allocation result failure runs
      obtain ⟨rfl, -⟩ : allocation = result ∧ none = failure := by simpa [claimAll] using runs
      exact .refl Variable.Moved.refl _
  | cons id ids ih =>
      intro allocation result failure runs
      rw [claimAll] at runs
      obtain ⟨declared, fetched, following⟩ := Checked.bind_eq_ok.mp runs
      have found := Shader.fetchVariable_eq_ok.mp fetched
      split at following
      · exact ih following
      · split at following
        · obtain ⟨rfl, -⟩ : allocation = result ∧ _ = failure := by simpa using following
          exact .refl Variable.Moved.refl _
        · have first : Shader.Revised Variable.Moved allocation.shader
              (allocation.shader.modifyVariable id fun _ =>
                if declared.explicitLocation then declared else bind target bindings declared) := by
            refine Shader.revised_modifyVariable Variable.Moved.refl fun current now => ?_
            obtain rfl : declared = current := Option.some.inj (found.symm.trans now)
            split
            · exact .refl declared
            · exact moved_bind declared
          dsimp only at following
          split at following
          · exact first.trans Variable.Moved.trans (ih following)
          · split at following
            · exact first.trans Variable.Moved.trans (ih following)
            · obtain ⟨rfl, -⟩ : _ = result ∧ _ = failure := by simpa using following
              exact first

theorem placeAll_moved {pairs : List (VariableId × Nat)} :
    ∀ {shader result : Shader} {used : SlotSet} {failure : Option LinkError},
      placeAll target shader used pairs = (result, failure) →
      Shader.Revised Variable.Moved shader result := by
  induction pairs with
  | nil =>
      intro shader result used failure runs
      obtain ⟨rfl, -⟩ : shader = result ∧ none = failure := by simpa [placeAll] using runs
      exact .refl Variable.Moved.refl shader
  | cons pair pairs ih =>
      intro shader result used failure runs
      rw [placeAll] at runs
      split at runs
      · obtain ⟨rfl, -⟩ : shader = result ∧ _ = failure := by simpa using runs
        exact .refl Variable.Moved.refl shader
      · next location _ =>
          exact (Shader.revised_modifyVariable Variable.Moved.refl
            fun declared _ => .settle location declared).trans Variable.Moved.trans (ih runs)

theorem allocate_moved {result : Shader} {failure : Option LinkError}
    (runs : allocate target limit bindings start = .ok (result, failure)) :
    Shader.Revised Variable.Moved start result := by
  rw [allocate] at runs
  obtain ⟨⟨allocation, problem⟩, claims, following⟩ := Checked.bind_eq_ok.mp runs
  have claimed := claimAll_moved claims
  dsimp only at claimed following
  split at following
  · obtain ⟨rfl, -⟩ : allocation.shader = result ∧ _ = failure := by simpa using following
    exact claimed
  · split at following
    · obtain ⟨reserved, -, placing⟩ := Checked.bind_eq_ok.mp following
      exact claimed.trans Variable.Moved.trans (placeAll_moved (by simpa using placing))
    · exact claimed.trans Variable.Moved.trans (placeAll_moved (by simpa using following))

/-- Whether it fails or not, an allocation only changes where variables are. -/
theorem allocate_revised {result : Shader} {failure : Option LinkError}
    (runs : allocate target limit bindings start = .ok (result, failure)) :
    Shader.Revised Variable.SameButPlace start result :=
  (allocate_moved runs).imp fun _ _ => Variable.Moved.same

end Attribute
end StageLink
