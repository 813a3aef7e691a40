import StageLink.Single

/-!
# Documents

Shaders, requests and outcomes are exchanged as documents: trees of plain values, lists and records
with named members.  Every part of a document is smaller than the whole, so reading a document can
recurse on its parts.  How strictly a document is read depends on the medium: programs exchange
messages, and people write files.
-/

namespace StageLink

/-- A decimal number that is written with a fraction or an exponent. -/
structure Numeral where
  negative : Bool
  digits : Nat
  /-- The power of ten that the digits are multiplied by. -/
  exponent : Int
  deriving DecidableEq

/-- A tree of plain values. -/
inductive Document where
  | null
  | bool (value : Bool)
  | integer (value : Int)
  | numeral (value : Numeral)
  | text (value : String)
  | list (items : List Document)
  | record (members : List (String × Document))

/-- Why a document has not the form asked for. -/
inductive Misfit where
  | wrongKind (expected : String)
  | missingMember (name : String)
  | unknownName (name : String)
  | outOfRange (value : Int)
  | tooManyItems
  | tooDeep
  deriving DecidableEq

/-- How documents are exchanged, which decides how strictly they are read. -/
inductive Medium where
  /-- Requests and answers.  A list holds no more items than are asked for, what belongs to an
  alternative bears names, and an alternative without parts may come with a null. -/
  | message
  /-- Files.  Items beyond those asked for are passed over, what belongs to an alternative may be
  listed in order but has no strange names, and an alternative without parts may come with an empty
  container. -/
  | file
  deriving DecidableEq

/-- What is read from a document in some medium, unless the document has another form. -/
abbrev Decoded := ReaderT Medium (Except Misfit)

/-- The text of a misfit. -/
def Misfit.message : Misfit → String
  | wrongKind expected => s!"expected {expected}"
  | missingMember name => s!"missing `{name}'"
  | unknownName name => s!"unknown name `{name}'"
  | outOfRange value => s!"{value} is out of range"
  | tooManyItems => "too many items"
  | tooDeep => "nested too deeply"

/-! ## Numbers -/

namespace Numeral

/-- The number of decimal places that double precision could need before or after the point. -/
def places : Int := 400

/-- The nearest value in double precision.  Numbers beyond all decimal places are infinite or
zero. -/
def toFloat (numeral : Numeral) : Float :=
  let order := numeral.exponent + (Nat.toDigits 10 numeral.digits).length
  let absolute : Float :=
    if numeral.digits = 0 || order < -places then 0
    else if places < order then 1 / 0
    else Float.ofScientific numeral.digits (numeral.exponent < 0) numeral.exponent.natAbs
  if numeral.negative then -absolute else absolute

/-- Whether the number lies in the range of double precision. -/
def isInRange (numeral : Numeral) : Bool := numeral.toFloat.isFinite

/-- The value in single precision, rounded by way of double precision. -/
def toSingle (numeral : Numeral) : Single := .ofFloat32 numeral.toFloat.toFloat32

/-- A natural number of at most 64 bits in no more than 53 significant bits: of a greater one the
last bits become a single one, unless all are zero, so that it rounds to single precision as
before. -/
def condense (value : Nat) : Nat :=
  let step := Nat.pow 2 11
  let leading := value / step
  if value < Nat.pow 2 53 || value % step = 0 then value
  else step * (if leading % 2 = 0 then leading + 1 else leading)

/-- A whole number in single precision.  Machine integers are rounded once. -/
def wholeToSingle (value : Int) : Single :=
  let isMachineInteger := -(Nat.pow 2 63 : Int) ≤ value ∧ value < (Nat.pow 2 64 : Int)
  let absolute := if isMachineInteger then condense value.natAbs else value.natAbs
  toSingle ⟨value < 0, absolute, 0⟩

end Numeral

namespace Document

instance : Inhabited Document := ⟨null⟩

/-! ## Plain values -/

def asBool : Document → Decoded Bool
  | bool value => pure value
  | _ => throw (.wrongKind "a truth value")

def asText : Document → Decoded String
  | text value => pure value
  | _ => throw (.wrongKind "a text")

/-- An integer between two bounds. -/
def asInteger (least greatest : Int) : Document → Decoded Int
  | integer value =>
      if least ≤ value ∧ value ≤ greatest then pure value else throw (.outOfRange value)
  | _ => throw (.wrongKind "an integer")

/-- A natural number of at most so many bits. -/
def asNatural (bits : Nat) (document : Document) : Decoded Nat :=
  return (← document.asInteger 0 (Nat.pow 2 bits - 1 : Nat)).toNat

/-- A natural number of at most 32 bits. -/
def asWord (document : Document) : Decoded Nat := document.asNatural 32

def asSingle : Document → Decoded Single
  | integer value => pure (Numeral.wholeToSingle value)
  | numeral value => pure value.toSingle
  | _ => throw (.wrongKind "a number")

/-- Something that may be missing. -/
def asOption {Result : Type} (read : Document → Decoded Result) :
    Document → Decoded (Option Result)
  | null => pure none
  | document => some <$> read document

/-! ## Parts -/

/-- A part of a document, which is smaller than the whole. -/
abbrev Part (whole : Document) := { part : Document // sizeOf part < sizeOf whole }

abbrev Members (whole : Document) := List (String × Part whole)

def items : (document : Document) → Decoded (List (Part document))
  | list items =>
      pure (items.attach.map fun ⟨item, inside⟩ => ⟨item, by
        have := List.sizeOf_lt_of_mem inside
        simp only [list.sizeOf_spec]
        omega⟩)
  | _ => throw (.wrongKind "a list")

/-- The items of a list of at most so many items.  A file may hold more, which are not read. -/
def itemsUpTo (count : Nat) (document : Document) : Decoded (List (Part document)) := do
  let items ← document.items
  match ← read with
  | .message => if count < items.length then throw .tooManyItems else return items
  | .file => return items.take count

def members : (document : Document) → Decoded (Members document)
  | record members =>
      pure (members.attach.map fun ⟨(name, value), inside⟩ => (name, ⟨value, by
        have := List.sizeOf_lt_of_mem inside
        simp only [Prod.mk.sizeOf_spec] at this
        simp only [record.sizeOf_spec]
        omega⟩))
  | _ => throw (.wrongKind "a record")

namespace Members

variable {whole : Document} {Result : Type}

def get? (members : Members whole) (name : String) : Option (Part whole) :=
  (members.find? (·.1 = name)).map (·.2)

def get (members : Members whole) (name : String) : Decoded (Part whole) :=
  match members.get? name with
  | some part => pure part
  | none => throw (.missingMember name)

def required (members : Members whole) (name : String) (read : Document → Decoded Result) :
    Decoded Result := do
  read (← members.get name).val

/-- Read the member with a name; a default stands for one that is absent. -/
def optional (members : Members whole) (name : String) (default : Result)
    (read : Document → Decoded Result) : Decoded Result :=
  match members.get? name with
  | some part => read part.val
  | none => pure default

/-- Allow no other members than those with the given names. -/
def restrictTo (names : List String) (members : Members whole) : Decoded Unit :=
  match members.find? fun member => !names.contains member.1 with
  | some (name, _) => throw (.unknownName name)
  | none => pure ()

/-- Ask for a member with each of the given names. -/
def complete (names : List String) (members : Members whole) : Decoded Unit :=
  match names.find? fun name => (members.get? name).isNone with
  | some name => throw (.missingMember name)
  | none => pure ()

end Members

/-- The members of a record that may also be given as the list of its values in a fixed order. -/
def membersInOrder (names : List String) (document : Document) : Decoded (Members document) :=
  match document with
  | list values => return names.zip (← (list values).itemsUpTo names.length)
  | other => other.members

/-- A choice: the name of an alternative and what belongs to it, if anything does. -/
def choice : (document : Document) → Decoded (String × Option (Part document))
  | text name => pure (name, none)
  | record [(name, content)] => pure (name, some ⟨content, by simp; omega⟩)
  | _ => throw (.wrongKind "a choice")

/-- Nothing may belong to the chosen alternative. -/
def noContent {whole : Document} (content : Option (Part whole)) : Decoded Unit := do
  match ← read, content with
  | _, none => pure ()
  | .message, some ⟨null, _⟩ => pure ()
  | .file, some ⟨list [], _⟩ => pure ()
  | .file, some ⟨record [], _⟩ => pure ()
  | _, some _ => throw (.wrongKind "a name alone")

def isList : Document → Bool
  | list _ => true
  | _ => false

/-- The members of the record that belongs to the chosen alternative.  A file may instead list the
values of all of them in order, and knows no others. -/
def content (names : List String) (document : Document) : Decoded (Members document) := do
  match ← read with
  | .message => document.members
  | .file => do
      let members ← document.membersInOrder names
      members.restrictTo names
      if document.isList then
        members.complete names
      return members

/-- A list of values of one kind. -/
def asList {Result : Type} (read : Document → Decoded Result) (document : Document) :
    Decoded (List Result) := do
  (← document.items).mapM fun item => read item.val

/-- A record that gives every name a value of one kind. -/
def asTable {Result : Type} (read : Document → Decoded Result) (document : Document) :
    Decoded (List (String × Result)) := do
  (← document.members).mapM fun member => return (member.1, ← read member.2.val)

/-! ## Writing -/

def natural (value : Nat) : Document := integer value

/-- Something that may be missing as a document. -/
def option {Value : Type} (write : Value → Document) : Option Value → Document
  | some value => write value
  | none => null

/-- The values of some kind in a list. -/
def listOf {Value : Type} (write : Value → Document) (values : List Value) : Document :=
  list (values.map write)

/-- The alternative of a choice with what belongs to it. -/
def alternative (name : String) (content : Document) : Document := record [(name, content)]

/-- The bit pattern of a float; those that are no finite number are not written. -/
def single (value : Single) : Document :=
  if value.isFinite then natural value.bits.toNat else null

end Document

/-! ## Named values -/

/-- The names of the values of a finite type. -/
structure Naming (Value : Type) where
  /-- All values. -/
  all : List Value
  name : Value → String

namespace Naming

variable {Value : Type}

def ofName (naming : Naming Value) (name : String) : Decoded Value :=
  match naming.all.find? fun value => naming.name value = name with
  | some value => pure value
  | none => throw (.unknownName name)

def read (naming : Naming Value) (document : Document) : Decoded Value := do
  let (name, content) ← document.choice
  Document.noContent content
  naming.ofName name

def write (naming : Naming Value) (value : Value) : Document := .text (naming.name value)

end Naming
end StageLink
