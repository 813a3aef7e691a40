import StageLink.Slot

/-!
# Masks of slots

The operations on slots as a machine with words of thirty-two bits carries them out.  The slots of a
span are a mask of ones shifted to its base.  A word cannot be shifted by as many places as it has,
and nothing can be taken from a smaller word; what would need one of these faults.
-/

namespace StageLink

/-- A number or a set of slots of a machine. -/
abbrev Word := BitVec 32

/-- Why an operation on words has no answer. -/
inductive WordFault where
  /-- A shift by no fewer places than a word has. -/
  | shift (places : Nat)
  /-- A difference below zero. -/
  | difference (word less : Word)
  deriving DecidableEq

abbrev WordChecked := Except WordFault

namespace Word

/-- Shift a word towards the higher places. -/
def shiftUp (word : Word) (places : Nat) : WordChecked Word :=
  if places < 32 then .ok (word <<< places) else .error (.shift places)

/-- Take a word from another. -/
def minus (word less : Word) : WordChecked Word :=
  if less ≤ word then .ok (word - less) else .error (.difference word less)

/-- The sum of two words if it is a word. -/
def plus? (word more : Word) : Option Word :=
  if BitVec.uaddOverflow word more then none else some (word + more)

end Word

namespace SlotMask

/-- The mask of the lowest slots, as many as asked for. -/
def lowest (count : Word) : WordChecked SlotSet :=
  if 32 ≤ count then
    return BitVec.allOnes 32
  else do
    let next ← Word.shiftUp 1 count.toNat
    next.minus 1

def reservedAbove (limit : Word) : WordChecked SlotSet := do
  let within ← lowest (if limit ≤ 32 then limit else 32)
  return ~~~ within

def span (base : Nat) (count : Word) : WordChecked SlotSet := do
  let slots ← lowest count
  Word.shiftUp slots base

/-- Look for the lowest base of a free span of the given number of slots. -/
def findFree? (used : SlotSet) (count : Word) : WordChecked (Option Nat) :=
  if count = 0 || 32 < count then
    return none
  else do
    let slots ← lowest count
    let last ← Word.minus 32 count
    (List.range (last.toNat + 1)).findM? fun base => do
      let shifted ← Word.shiftUp slots base
      return used &&& shifted = 0

/-- Look for the lowest free span and take its slots. -/
def place? (used : SlotSet) (count : Word) : WordChecked (Option (Nat × SlotSet)) := do
  match ← findFree? used count with
  | none => return none
  | some base =>
      let slots ← span base count
      return some (base, used ||| slots)

/-- Take the slots of a mask unless one of them is taken, and tell whether this has been done. -/
def take (slots : SlotSet) : StateT SlotSet WordChecked Bool := do
  let used ← get
  if used &&& slots = 0 then
    set (used ||| slots)
    return true
  else
    return false

/-- Take the slots of a span unless one of them is taken or there is no such slot, and tell whether
this has been done.  A span without slots can always be taken. -/
def claim (base count : Word) : StateT SlotSet WordChecked Bool :=
  if count = 0 then
    return true
  else if (base.plus? count).all (32 < ·) then
    return false
  else do
    let slots ← span base.toNat count
    take slots

end SlotMask
end StageLink
