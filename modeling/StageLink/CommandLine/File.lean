import StageLink.Document

/-!
# Files

A run takes its manifest, its shaders and its limits from files.  What a file holds is a record.
Records inside of it, alone or as the items of a list, stand under headings that spell the way to
them; every other list or record stands inside a value.  Neither headings nor values may go deeper
than a fixed number of levels.
-/

namespace StageLink

namespace Document

/-- The number of levels that a heading or a value may have. -/
def deepest : Nat := 79

def isRecord : Document → Bool
  | record _ => true
  | _ => false

/-- Whether lists and records nest in a value with at most so many levels. -/
def nestsWithin : (levels : Nat) → Document → Bool
  | 0, list _ => false
  | 0, record _ => false
  | levels + 1, list items => items.all (nestsWithin levels)
  | levels + 1, record members => members.all fun member => nestsWithin levels member.2
  | _, _ => true

/-- The records of a member that stand under its heading. -/
def underHeading : Document → List Document
  | record members => [record members]
  | list items => if items.all isRecord then items else []
  | _ => []

/-- Whether a record can be written below its heading with at most so many further headings on the
way to any of its records. -/
def headsWithin : (levels : Nat) → Document → Bool
  | levels, record members =>
      members.all fun member =>
        match levels, member.2.underHeading with
        | _, [] => member.2.nestsWithin deepest
        | 0, _ => false
        | levels + 1, records => records.all (headsWithin levels)
  | _, _ => false

def readFile {Result : Type} (read : Document → Decoded Result) (document : Document) :
    Except Misfit Result :=
  if !document.isRecord then .error (.wrongKind "a record")
  else if !document.headsWithin deepest then .error .tooDeep
  else (read document).run .file

end Document

/-- Why the files of a run cannot be used. -/
inductive LoadError where
  /-- The file is missing, or it holds no document. -/
  | unreadable (file : String)
  | misfit (file : String) (cause : Misfit)
  /-- The manifest names no shader. -/
  | noShaders
  deriving DecidableEq

/-- The text of an error. -/
def LoadError.message : LoadError → String
  | unreadable file => s!"failed to read {file}"
  | misfit file cause => s!"failed to load {file}: {cause.message}"
  | noShaders => "manifest lists no shaders"

/-- Load a file, given a way to fetch the document that it holds. -/
def loadFile {m : Type → Type} [Monad m] {Result : Type} (fetch : String → m (Option Document))
    (read : Document → Decoded Result) (file : String) : ExceptT LoadError m Result := do
  match ← fetch file with
  | none => throw (.unreadable file)
  | some document =>
      match document.readFile read with
      | .ok result => return result
      | .error cause => throw (.misfit file cause)

end StageLink
