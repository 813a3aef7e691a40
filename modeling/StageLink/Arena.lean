/-!
# Arenas

An arena is a list of entries named by their positions.  Entries are only ever added at the end, so
a position keeps its meaning until the arena is compacted; compacting keeps the chosen entries in
their order and tells where each of them went.
-/

namespace StageLink

/-- Entries named by their positions. -/
structure Arena (Entry : Type) where
  /-- The entries in order of their positions. -/
  entries : List Entry := []
  deriving DecidableEq

namespace Arena

variable {Entry : Type}

/-- The arena without entries. -/
def empty : Arena Entry := ⟨[]⟩

instance : Inhabited (Arena Entry) := ⟨empty⟩

/-- The number of entries, which is also the next free position. -/
def size (arena : Arena Entry) : Nat := arena.entries.length

def isEmpty (arena : Arena Entry) : Bool := arena.entries.isEmpty

/-- Add an entry at the end. -/
def push (arena : Arena Entry) (entry : Entry) : Arena Entry := ⟨arena.entries ++ [entry]⟩

def get? (arena : Arena Entry) (position : Nat) : Option Entry := arena.entries[position]?

def contains (arena : Arena Entry) (position : Nat) : Bool := position < arena.size

def modify (arena : Arena Entry) (position : Nat) (change : Entry → Entry) : Arena Entry :=
  ⟨arena.entries.modify position change⟩

def map {Result : Type} (arena : Arena Entry) (change : Entry → Result) : Arena Result :=
  ⟨arena.entries.map change⟩

/-- Every entry after its position. -/
def indexed (arena : Arena Entry) : List (Nat × Entry) :=
  arena.entries.zipIdx.map fun pair => (pair.2, pair.1)

/-- Keep the entries at the positions chosen, and list for every old position the new one. -/
def compactFrom (keep : Nat → Bool) :
    Nat → Nat → List Entry → List Entry × List (Option Nat)
  | _, _, [] => ([], [])
  | position, kept, entry :: rest =>
      if keep position then
        let (entries, table) := compactFrom keep (position + 1) (kept + 1) rest
        (entry :: entries, some kept :: table)
      else
        let (entries, table) := compactFrom keep (position + 1) kept rest
        (entries, none :: table)

/-- Drop the entries that are not to be kept.  The table has the new position of every old one. -/
def compact (arena : Arena Entry) (keep : Nat → Bool) : Arena Entry × List (Option Nat) :=
  let (entries, table) := compactFrom keep 0 0 arena.entries
  (⟨entries⟩, table)

/-! ## Laws -/

@[simp]
theorem size_push (arena : Arena Entry) (entry : Entry) :
    (arena.push entry).size = arena.size + 1 := by
  simp [push, size]

@[simp]
theorem get?_push_size (arena : Arena Entry) (entry : Entry) :
    (arena.push entry).get? arena.size = some entry := by
  simp [push, get?, size]

theorem get?_push_of_lt (arena : Arena Entry) (entry : Entry) {position : Nat}
    (inside : position < arena.size) :
    (arena.push entry).get? position = arena.get? position := by
  simp [push, get?, List.getElem?_append_left (show position < arena.entries.length from inside)]

theorem isSome_get?_iff (arena : Arena Entry) (position : Nat) :
    (arena.get? position).isSome ↔ position < arena.size := by
  simp [get?, size]

@[simp]
theorem size_modify (arena : Arena Entry) (position : Nat) (change : Entry → Entry) :
    (arena.modify position change).size = arena.size := by
  simp [modify, size]

theorem get?_modify (arena : Arena Entry) (target position : Nat) (change : Entry → Entry) :
    (arena.modify target change).get? position =
      (arena.get? position).map fun entry => if target = position then change entry else entry := by
  simp only [modify, get?, List.getElem?_modify]
  split <;> simp_all [Functor.map]

@[simp]
theorem size_map {Result : Type} (arena : Arena Entry) (change : Entry → Result) :
    (arena.map change).size = arena.size := by
  simp [map, size]

@[simp]
theorem length_compactFrom_table (keep : Nat → Bool) (position kept : Nat) (entries : List Entry) :
    (compactFrom keep position kept entries).2.length = entries.length := by
  induction entries generalizing position kept with
  | nil => rfl
  | cons entry rest ih =>
      simp only [compactFrom]
      split <;> simp [ih]

/-- The table of a compaction has one row for every old position. -/
@[simp]
theorem length_compact_table (arena : Arena Entry) (keep : Nat → Bool) :
    (arena.compact keep).2.length = arena.size := by
  simp [compact, size]

end Arena
end StageLink
