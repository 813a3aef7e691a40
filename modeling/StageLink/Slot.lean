/-!
# Slots

Thirty-two slots, of which some are taken, as the bits of a word.  Spans of consecutive slots are
looked for from the lowest slot up, and a span can be claimed only if it fits and is free.
-/

namespace StageLink

/-- A set of slots; bit `n` stands for slot `n`. -/
abbrev SlotSet := BitVec 32

namespace SlotSet

/-- The lowest slots, as many as asked for. -/
def lowest (count : Nat) : SlotSet := BitVec.ofNat 32 (Nat.pow 2 (min count 32) - 1)

def span (base count : Nat) : SlotSet := lowest count <<< base

/-- The slots at or above a limit, which are out of bounds. -/
def reservedAbove (limit : Nat) : SlotSet := ~~~ lowest limit

def isFree (used : SlotSet) (base count : Nat) : Bool := used &&& span base count = 0

/-- The lowest base of a free span of the given number of slots. -/
def findFree? (used : SlotSet) (count : Nat) : Option Nat :=
  if count = 0 || 32 < count then
    none
  else
    (List.range (33 - count)).find? fun base => used.isFree base count

/-- Take the slots of a span, unless one of them is taken or there is no such slot.  A span without
slots can always be taken. -/
def claim? (used : SlotSet) (base count : Nat) : Option SlotSet :=
  if count = 0 then some used
  else if 32 < base + count then none
  else if used.isFree base count then some (used ||| span base count)
  else none

theorem getLsbD_lowest (count slot : Nat) :
    (lowest count).getLsbD slot = (decide (slot < 32) && decide (slot < count)) := by
  simp only [lowest, Nat.pow_eq, BitVec.getLsbD_ofNat, Nat.testBit_two_pow_sub_one]
  by_cases inside : slot < 32
  · simp only [inside, decide_true, Bool.true_and, decide_eq_decide]
    omega
  · simp [inside]

theorem getLsbD_span (base count slot : Nat) :
    (span base count).getLsbD slot =
      (decide (slot < 32) && decide (base ≤ slot) && decide (slot < base + count)) := by
  simp only [span, BitVec.getLsbD_shiftLeft, getLsbD_lowest]
  by_cases inside : slot < 32
  · by_cases above : base ≤ slot
    · have shifted : slot - base < 32 := by omega
      have counted : slot - base < count ↔ slot < base + count := by omega
      simp [inside, above, shifted, counted]
    · have below : slot < base := by omega
      simp [above, below]
  · simp [inside]

end SlotSet
end StageLink
