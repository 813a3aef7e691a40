import StageLink.SymbolTable

/-!
# Tables made from lists

A table made from a list of pairs knows exactly the names of the list, and what it gives for a name
is the partner of that name in one of the pairs.
-/

namespace StageLink
namespace NameTable

variable {Target : Type}

theorem get?_insert (table : NameTable Target) (name other : String) (target : Target) :
    (table.insert name target).get? other =
      if other = name then some target else table.get? other := by
  split
  · next same => rw [same, get?_insert_same]
  · next differs => exact get?_insert_other table target differs

private theorem get?_foldl_insert {name : String} {target : Target}
    {pairs : List (String × Target)} :
    ∀ {table : NameTable Target},
      (pairs.foldl (fun table pair => table.insert pair.1 pair.2) table).get? name = some target →
        (name, target) ∈ pairs ∨ table.get? name = some target := by
  induction pairs with
  | nil => exact fun found => .inr found
  | cons pair pairs ih =>
      intro table found
      rcases ih found with later | before
      · exact .inl (List.mem_cons_of_mem pair later)
      · rw [get?_insert] at before
        split at before
        · next same =>
            obtain rfl := Option.some.inj before
            subst same
            exact .inl (List.mem_cons_self ..)
        · exact .inr before

private theorem isSome_get?_foldl_insert {name : String} {pairs : List (String × Target)} :
    ∀ {table : NameTable Target},
      (∃ target, (name, target) ∈ pairs) ∨ (table.get? name).isSome →
        ((pairs.foldl (fun table pair => table.insert pair.1 pair.2) table).get? name).isSome := by
  induction pairs with
  | nil => simp
  | cons pair pairs ih =>
      intro table known
      apply ih
      rw [get?_insert]
      by_cases same : name = pair.1
      · simp [same]
      · rcases known with ⟨target, listed⟩ | before
        · rcases List.mem_cons.mp listed with here | later
          · exact absurd (congrArg Prod.fst here) same
          · exact .inl ⟨target, later⟩
        · simp [same, before]

/-- What a table made from a list gives comes from the list. -/
theorem mem_of_get?_ofList {pairs : List (String × Target)} {name : String} {target : Target}
    (found : (ofList pairs).get? name = some target) : (name, target) ∈ pairs := by
  rcases get?_foldl_insert found with listed | before
  · exact listed
  · cases before

/-- A table made from a list gives something for every name of the list. -/
theorem isSome_get?_ofList {pairs : List (String × Target)} {name : String} {target : Target}
    (listed : (name, target) ∈ pairs) : ((ofList pairs).get? name).isSome :=
  isSome_get?_foldl_insert (.inl ⟨target, listed⟩)

end NameTable
end StageLink
