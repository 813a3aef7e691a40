import StageLink.Digits
import StageLink.Fault

/-!
# Resource names

A resource is named by the name of a variable, or by that name and a decimal index in brackets.  Any
other text names a variable as a whole.  Looking for the index cuts the text behind the last
character before the closing bracket that is no digit, one byte after its start; if that character
takes more bytes there is no such place to cut.
-/

namespace StageLink

/-- A resource name taken apart. -/
structure ResourceName where
  base : String
  index : Option Nat := none
  deriving DecidableEq

namespace ResourceName

def greatestIndex : Nat := UInt32.size - 1

/-- Take apart what stands before a closing bracket, given from the end on. -/
def parseReversed (name : String) (inner : List Char) : Checked ResourceName :=
  let digits := (inner.takeWhile Char.isDigit).reverse
  match inner.dropWhile Char.isDigit with
  | [] => .ok ⟨name, none⟩
  | last :: front =>
      if 1 < last.utf8Size then
        .error (.splitCharacter name)
      else if last = '[' && !digits.isEmpty && Digits.value digits ≤ greatestIndex then
        .ok ⟨String.ofList front.reverse, some (Digits.value digits)⟩
      else
        .ok ⟨name, none⟩

/-- Take a resource name apart. -/
def parse (name : String) : Checked ResourceName :=
  match name.toList.reverse with
  | ']' :: inner => parseReversed name inner
  | _ => .ok ⟨name, none⟩

end ResourceName
end StageLink
