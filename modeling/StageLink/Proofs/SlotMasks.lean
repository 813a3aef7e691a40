import StageLink.Slot.Mask
import StageLink.Proofs.Ledger

/-!
# Masks of slots

For all words, the operations on masks have an answer, so that no shift reaches the width of a word,
and the answer is that of the operation on sets of slots.  What is found is the lowest span that
fits into the word and is free there, a claim is granted exactly for such a span and takes nothing
but its slots, and the slots that a limit reserves are those at or above it:
`SlotMask.operations_exact`.
-/

namespace StageLink

/-! ## Words -/

namespace Word

theorem shiftUp_eq_ok (word : Word) {places : Nat} (few : places < 32) :
    word.shiftUp places = .ok (word <<< places) := if_pos few

theorem minus_eq_ok {word less : Word} (smaller : less.toNat ≤ word.toNat) :
    word.minus less = .ok (word - less) := if_pos (BitVec.le_def.mpr smaller)

theorem toNat_one_shiftLeft {places : Nat} (few : places < 32) :
    ((1 : Word) <<< places).toNat = Nat.pow 2 places := by
  rw [BitVec.toNat_shiftLeft]
  change 1 <<< places % Nat.pow 2 32 = Nat.pow 2 places
  rw [Nat.one_shiftLeft]
  exact Nat.mod_eq_of_lt (Nat.pow_lt_pow_right (by decide) few)

theorem plus?_all_lt_iff {word more bound : Word} :
    (word.plus? more).all (bound < ·) = true ↔ bound.toNat < word.toNat + more.toNat := by
  unfold plus?
  split
  · next overflows =>
      have beyond : 2 ^ 32 ≤ word.toNat + more.toNat := by
        simpa [BitVec.uaddOverflow] using overflows
      have bounded := bound.isLt
      simp only [Option.all_none, true_iff]
      omega
  · next within =>
      rw [Option.all_some, decide_eq_true_eq, BitVec.lt_def,
        BitVec.toNat_add_of_not_uaddOverflow within]

end Word

/-! ## Sets of slots -/

namespace SlotSet

variable {used : SlotSet} {base count : Nat}

theorem lowest_of_le (many : 32 ≤ count) : lowest count = BitVec.allOnes 32 := by
  rw [lowest, Nat.min_eq_right many]
  rfl

/-- The slots of a span are slots of the word, and none of them is taken. -/
def Offers (used : SlotSet) (span : Span) : Prop :=
  span.base + span.count ≤ 32 ∧ ∀ slot, span.Covers slot → used.getLsbD slot = false

theorem offers_iff :
    used.Offers ⟨base, count⟩ ↔ base + count ≤ 32 ∧ used.isFree base count = true := by
  rw [isFree_iff]
  refine and_congr_right fun fits => forall_congr' fun slot => ?_
  constructor
  · intro clear _ covers
    exact clear covers
  · intro clear covers
    exact clear (Nat.lt_of_lt_of_le covers.2 fits) covers

theorem findFree?_eq_some_iff_offers :
    used.findFree? count = some base ↔
      (1 ≤ count ∧ count ≤ 32) ∧ IsLeast {base | used.Offers ⟨base, count⟩} base := by
  simp only [findFree?_eq_some_iff, offers_iff]
  constructor
  · rintro ⟨some_asked, least⟩
    exact ⟨⟨some_asked, Nat.le_trans (Nat.le_add_left count base) least.1.1⟩, least⟩
  · rintro ⟨⟨some_asked, -⟩, least⟩
    exact ⟨some_asked, least⟩

theorem findFree?_eq_none_iff :
    used.findFree? count = none ↔
      ¬ ∃ base, (1 ≤ count ∧ count ≤ 32) ∧ used.Offers ⟨base, count⟩ := by
  simp only [offers_iff]
  unfold findFree?
  split
  · next senseless =>
      simp only [Bool.or_eq_true, decide_eq_true_eq] at senseless
      simp only [true_iff]
      rintro ⟨base, sensible, -⟩
      omega
  · next sensible =>
      simp only [Bool.or_eq_true, decide_eq_true_eq, not_or, Nat.not_lt] at sensible
      rw [List.find?_eq_none]
      constructor
      · rintro taken ⟨base, -, fits, free⟩
        exact taken base (List.mem_range.mpr (by omega)) free
      · intro nowhere base listed free
        have inside := List.mem_range.mp listed
        exact nowhere ⟨base, ⟨Nat.pos_of_ne_zero sensible.1, sensible.2⟩, by omega, free⟩

theorem claim?_isSome_iff :
    (used.claim? base count).isSome = true ↔ count = 0 ∨ used.Offers ⟨base, count⟩ := by
  rw [offers_iff]
  unfold claim?
  split
  · next none_asked => simp [none_asked]
  · next some_asked =>
      split
      · next beyond => simp [some_asked, Nat.not_le_of_lt beyond]
      · next fits =>
          split
          · next free => simp [Nat.le_of_not_lt fits, free]
          · next taken => simp [some_asked, taken]

/-- A claim takes the slots of the span if it is granted, and nothing else. -/
theorem getLsbD_claim? (used : SlotSet) (base count slot : Nat) :
    ((used.claim? base count).getD used).getLsbD slot = true ↔
      used.getLsbD slot = true ∨
        (used.claim? base count).isSome = true ∧ Span.Covers ⟨base, count⟩ slot := by
  cases claimed : used.claim? base count with
  | none => simp
  | some next =>
      rcases claim?_eq_some claimed with ⟨rfl, rfl⟩ | ⟨-, fits, -, rfl⟩
      · have uncovered : ¬ Span.Covers ⟨base, 0⟩ slot := fun covers =>
          absurd covers.2 (Nat.not_lt_of_le covers.1)
        simp [uncovered]
      · have in_span : (span base count).getLsbD slot = true ↔ Span.Covers ⟨base, count⟩ slot := by
          simp only [getLsbD_span, Span.Covers, Bool.and_eq_true, decide_eq_true_eq]
          omega
        simp [in_span]

end SlotSet

/-! ## Masks -/

namespace SlotMask

/-- A search whose tests all have an answer has one. -/
theorem findM?_eq_ok {Fault Item : Type} {test : Item → Except Fault Bool} {passes : Item → Bool}
    {items : List Item} (answers : ∀ item ∈ items, test item = .ok (passes item)) :
    items.findM? test = .ok (items.find? passes) := by
  induction items with
  | nil => rfl
  | cons item items ih =>
      obtain ⟨answer, answers⟩ := List.forall_mem_cons.mp answers
      rw [List.findM?, List.find?, answer]
      cases passes item with
      | true => rfl
      | false => exact ih answers

/-- The word before a power of two has ones in all places below. -/
theorem one_shiftLeft_minus_one {places : Nat} (few : places < 32) :
    Word.minus ((1 : Word) <<< places) 1 = .ok (SlotSet.lowest places) := by
  have power := Word.toNat_one_shiftLeft few
  have some_slot : (1 : Word).toNat ≤ ((1 : Word) <<< places).toNat := by
    rw [power]
    exact Nat.one_le_two_pow
  have bounded : Nat.pow 2 places - 1 < Nat.pow 2 32 :=
    Nat.lt_of_le_of_lt (Nat.sub_le _ _) (Nat.pow_lt_pow_right (by decide) few)
  rw [Word.minus_eq_ok some_slot, SlotSet.lowest, Nat.min_eq_left (Nat.le_of_lt few)]
  refine congrArg Except.ok (BitVec.eq_of_toNat_eq ?_)
  rw [BitVec.toNat_sub_of_le (BitVec.le_def.mpr some_slot), power, BitVec.toNat_ofNat]
  exact (Nat.mod_eq_of_lt bounded).symm

theorem lowest_eq (count : Word) : lowest count = .ok (SlotSet.lowest count.toNat) := by
  unfold lowest
  split
  · next all =>
      have many : 32 ≤ count.toNat := BitVec.le_def.mp all
      rw [SlotSet.lowest_of_le many]
      rfl
  · next few =>
      have small : count.toNat < 32 := Nat.lt_of_not_le fun many => few (BitVec.le_def.mpr many)
      rw [Word.shiftUp_eq_ok 1 small]
      exact one_shiftLeft_minus_one small

theorem reservedAbove_eq (limit : Word) :
    reservedAbove limit = .ok (SlotSet.reservedAbove limit.toNat) := by
  unfold reservedAbove SlotSet.reservedAbove
  rw [lowest_eq]
  split
  · rfl
  · next beyond =>
      have many : 32 ≤ limit.toNat :=
        Nat.le_of_lt (Nat.lt_of_not_le fun few => beyond (BitVec.le_def.mpr few))
      rw [SlotSet.lowest_of_le many]
      rfl

theorem span_eq {base : Nat} (count : Word) (inside : base < 32) :
    span base count = .ok (SlotSet.span base count.toNat) := by
  unfold span
  rw [lowest_eq]
  exact Word.shiftUp_eq_ok _ inside

/-- The search shifts by bases up to the last one at which the span fits, which is a place of the
word because the span has slots. -/
theorem findFree?_eq (used : SlotSet) (count : Word) :
    findFree? used count = .ok (used.findFree? count.toNat) := by
  have none_iff : count = 0 ↔ count.toNat = 0 := BitVec.toNat_inj.symm
  have many_iff : 32 < count ↔ 32 < count.toNat := BitVec.lt_def
  unfold findFree? SlotSet.findFree?
  simp only [none_iff, many_iff]
  split
  · rfl
  · next sensible =>
      simp only [Bool.or_eq_true, decide_eq_true_eq, not_or, Nat.not_lt] at sensible
      have last : ((32 : Word) - count).toNat + 1 = 33 - count.toNat := by
        rw [BitVec.toNat_sub_of_le (BitVec.le_def.mpr sensible.2)]
        change 32 - count.toNat + 1 = 33 - count.toNat
        omega
      rw [lowest_eq, Word.minus_eq_ok sensible.2]
      change List.findM? _ (List.range (((32 : Word) - count).toNat + 1)) = _
      rw [last]
      refine findM?_eq_ok fun base listed => ?_
      have inside : base < 32 := by
        have within := List.mem_range.mp listed
        omega
      rw [Word.shiftUp_eq_ok _ inside]
      rfl

theorem place?_eq (used : SlotSet) (count : Word) :
    place? used count =
      .ok ((used.findFree? count.toNat).map fun base =>
        (base, used ||| SlotSet.span base count.toNat)) := by
  unfold place?
  rw [findFree?_eq]
  cases found : used.findFree? count.toNat with
  | none => rfl
  | some base =>
      obtain ⟨some_asked, fits, -⟩ := SlotSet.findFree?_eq_some found
      have inside : base < 32 := by omega
      change (span base count >>= fun slots => .ok (some (base, used ||| slots))) = _
      rw [span_eq count inside]
      rfl

theorem run_take (used slots : SlotSet) :
    (take slots).run used =
      .ok (if used &&& slots = 0 then (true, used ||| slots) else (false, used)) := by
  change StateT.run (if used &&& slots = 0 then _ else _) used = _
  split <;> rfl

theorem run_claim (used : SlotSet) (base count : Word) :
    (claim base count).run used =
      .ok ((used.claim? base.toNat count.toNat).isSome,
        (used.claim? base.toNat count.toNat).getD used) := by
  have none_iff : count = 0 ↔ count.toNat = 0 := BitVec.toNat_inj.symm
  unfold claim SlotSet.claim?
  simp only [none_iff, Word.plus?_all_lt_iff]
  split
  · rfl
  · next some_asked =>
      change StateT.run (if 32 < base.toNat + count.toNat then _ else _) used = _
      split
      · rfl
      · next fits =>
          have inside : base.toNat < 32 := by omega
          rw [span_eq count inside]
          refine (run_take used (SlotSet.span base.toNat count.toNat)).trans ?_
          simp only [SlotSet.isFree, decide_eq_true_eq]
          split <;> rfl

/-- The operations on masks do for all words what the operations on sets of slots do, without a
fault.  A base is found exactly if it is the lowest one of a span that is offered, a claim is
granted exactly if nothing is asked for or the span is offered and takes nothing but the span, and a
limit reserves exactly the slots at or above it. -/
theorem operations_exact (used : SlotSet) (needed location slots limit : Word) :
    (findFree? used needed = .ok (used.findFree? needed.toNat) ∧
      (∀ base, used.findFree? needed.toNat = some base ↔
        (1 ≤ needed.toNat ∧ needed.toNat ≤ 32) ∧
          IsLeast {base | used.Offers ⟨base, needed.toNat⟩} base) ∧
      (used.findFree? needed.toNat = none ↔
        ¬ ∃ base, (1 ≤ needed.toNat ∧ needed.toNat ≤ 32) ∧ used.Offers ⟨base, needed.toNat⟩) ∧
      place? used needed =
        .ok ((used.findFree? needed.toNat).map fun base =>
          (base, used ||| SlotSet.span base needed.toNat))) ∧
    (∃ granted after, (claim location slots).run used = .ok (granted, after) ∧
      used.claim? location.toNat slots.toNat = (if granted = true then some after else none) ∧
      (granted = true ↔ slots.toNat = 0 ∨ used.Offers ⟨location.toNat, slots.toNat⟩) ∧
      (∀ slot, after.getLsbD slot = true ↔
        used.getLsbD slot = true ∨
          granted = true ∧ Span.Covers ⟨location.toNat, slots.toNat⟩ slot) ∧
      (granted = true ∨ after = used)) ∧
    reservedAbove limit = .ok (SlotSet.reservedAbove limit.toNat) ∧
    ∀ slot, (SlotSet.reservedAbove limit.toNat).getLsbD slot = true ↔
      slot < 32 ∧ limit.toNat ≤ slot := by
  refine ⟨⟨findFree?_eq used needed, fun base => SlotSet.findFree?_eq_some_iff_offers,
    SlotSet.findFree?_eq_none_iff, place?_eq used needed⟩,
    ⟨_, _, run_claim used location slots, ?_, SlotSet.claim?_isSome_iff,
      SlotSet.getLsbD_claim? used location.toNat slots.toNat, ?_⟩,
    reservedAbove_eq limit, fun slot => ?_⟩
  · cases used.claim? location.toNat slots.toNat <;> rfl
  · cases used.claim? location.toNat slots.toNat with
    | none => exact .inr rfl
    | some next => exact .inl rfl
  · rw [SlotSet.getLsbD_reservedAbove, Bool.and_eq_true, decide_eq_true_eq, decide_eq_true_eq]

/-- A span that would end beyond the greatest number is refused. -/
example : (claim 0xFFFFFFFF 2).run 0 = .ok (false, 0) := by decide

/-- A mask cannot be shifted out of the word. -/
example : span 32 1 = .error (.shift 32) := by decide

end SlotMask
end StageLink
