import StageLink.Fault

/-!
# Symbol tables

The names declared at the top level of a shader, one table for variables and one for functions.  A
name bound twice stands for the last binding.
-/

namespace StageLink

/-- A finite map from names, kept as pairs with the newest first. -/
structure NameTable (Target : Type) where
  entries : List (String × Target) := []

namespace NameTable

variable {Target : Type}

/-- What a name stands for. -/
def get? (table : NameTable Target) (name : String) : Option Target :=
  (table.entries.find? (·.1 = name)).map (·.2)

/-- Unbind a name. -/
def erase (table : NameTable Target) (name : String) : NameTable Target :=
  ⟨table.entries.filter (·.1 ≠ name)⟩

/-- Bind a name. -/
def insert (table : NameTable Target) (name : String) (target : Target) : NameTable Target :=
  ⟨(name, target) :: (table.erase name).entries⟩

/-- The number of names. -/
def size (table : NameTable Target) : Nat := table.entries.length

/-- Whether no name is bound. -/
def isEmpty (table : NameTable Target) : Bool := table.entries.isEmpty

/-- A table from pairs, the later of which replace the earlier. -/
def ofList (pairs : List (String × Target)) : NameTable Target :=
  pairs.foldl (fun table pair => table.insert pair.1 pair.2) {}

@[simp]
theorem get?_empty (name : String) : (⟨[]⟩ : NameTable Target).get? name = none := rfl

@[simp]
theorem get?_insert_same (table : NameTable Target) (name : String) (target : Target) :
    (table.insert name target).get? name = some target := by
  simp [insert, get?]

theorem get?_erase (table : NameTable Target) (name other : String) :
    (table.erase name).get? other = if other = name then none else table.get? other := by
  simp only [erase, get?, List.find?_filter]
  by_cases same : other = name
  · subst same
    simp
  · rw [if_neg same]
    congr 1
    congr 1
    funext pair
    by_cases found : pair.1 = other
    · simp [found, same]
    · simp [found]

/-- Erasing the name of one target keeps the name of another. -/
theorem get?_erase_of_ne {table : NameTable Target} {name other : String} {erased kept : Target}
    (bound : table.get? other = some kept) (stands : table.get? name = some erased)
    (different : kept ≠ erased) : (table.erase name).get? other = some kept := by
  rw [get?_erase, if_neg, bound]
  rintro rfl
  exact different (Option.some.inj (bound.symm.trans stands))

/-- What a name stands for after an erasure it has stood for before. -/
theorem get?_of_get?_erase {table : NameTable Target} {name other : String} {target : Target}
    (bound : (table.erase name).get? other = some target) : table.get? other = some target := by
  rw [get?_erase] at bound
  split at bound
  · cases bound
  · exact bound

theorem get?_insert_other (table : NameTable Target) {name other : String} (target : Target)
    (different : other ≠ name) : (table.insert name target).get? other = table.get? other := by
  have skipped : (table.insert name target).get? other = (table.erase name).get? other := by
    simp [insert, get?, Ne.symm different]
  rw [skipped, get?_erase, if_neg different]

end NameTable

/-- What the names at the top level of a shader stand for. -/
structure SymbolTable where
  vars : NameTable VariableId := {}
  functions : NameTable FunctionId := {}

namespace SymbolTable

/-- Whether no name is bound. -/
def isEmpty (table : SymbolTable) : Bool := table.vars.isEmpty && table.functions.isEmpty

def addVariable (table : SymbolTable) (name : String) (id : VariableId) : SymbolTable :=
  { table with vars := table.vars.insert name id }

def addFunction (table : SymbolTable) (name : String) (id : FunctionId) : SymbolTable :=
  { table with functions := table.functions.insert name id }

def removeVariable (table : SymbolTable) (name : String) : SymbolTable :=
  { table with vars := table.vars.erase name }

def removeFunction (table : SymbolTable) (name : String) : SymbolTable :=
  { table with functions := table.functions.erase name }

end SymbolTable
end StageLink
