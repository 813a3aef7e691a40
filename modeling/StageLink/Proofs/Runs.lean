import StageLink.Diagnostic.Judged
import Mathlib.Data.List.Forall2

/-!
# Runs that give a result

An operation that gives a result has got one from each of its parts.  The theorems here take such a
run apart: a checked operation gives a result unless it faults, and a judgement grants one unless it
faults or rejects.  A judgement is reasoned if it never rejects without an error.
-/

namespace StageLink

/-- A sequence gives a result exactly if both of its parts do. -/
theorem except_bind_eq_ok {Error Part Result : Type} {first : Except Error Part}
    {next : Part → Except Error Result} {result : Result} :
    first >>= next = .ok result ↔ ∃ part, first = .ok part ∧ next part = .ok result := by
  cases first with
  | error fault => simp [bind, Except.bind]
  | ok part => simp [bind, Except.bind]

/-- In lists that are related one by one, what stands in the second comes from the first. -/
theorem exists_of_forall₂ {Item Result : Type} {related : Item → Result → Prop} {items : List Item}
    {results : List Result} (each : List.Forall₂ related items results) {result : Result}
    (listed : result ∈ results) : ∃ item ∈ items, related item result := by
  induction each with
  | nil => cases listed
  | cons here _ ih =>
      rcases List.mem_cons.mp listed with rfl | later
      · exact ⟨_, List.mem_cons_self .., here⟩
      · obtain ⟨item, in_items, there⟩ := ih later
        exact ⟨item, List.mem_cons_of_mem _ in_items, there⟩

theorem rel_getElem? {Item Result : Type} {related : Item → Result → Prop} {items : List Item}
    {results : List Result} (each : List.Forall₂ related items results) :
    ∀ position : Nat, Option.Rel related items[position]? results[position]? := by
  induction each with
  | nil => exact fun _ => .none
  | cons first _ ih =>
      intro position
      cases position with
      | zero => exact .some first
      | succ position => exact ih position

theorem rel_refl {Item : Type} {related : Item → Item → Prop}
    (reflexive : ∀ item, related item item) (item : Option Item) :
    Option.Rel related item item := by
  cases item with
  | none => exact .none
  | some item => exact .some (reflexive item)

theorem rel_imp {Item Result : Type} {related weaker : Item → Result → Prop}
    (implies : ∀ item result, related item result → weaker item result) {item : Option Item}
    {result : Option Result} (rel : Option.Rel related item result) :
    Option.Rel weaker item result := by
  cases rel with
  | none => exact .none
  | some here => exact .some (implies _ _ here)

theorem rel_trans {First Second Third : Type} {one : First → Second → Prop}
    {other : Second → Third → Prop} {both : First → Third → Prop}
    (each : ∀ first second third, one first second → other second third → both first third)
    {first : Option First} {second : Option Second} {third : Option Third}
    (rel : Option.Rel one first second) (later : Option.Rel other second third) :
    Option.Rel both first third := by
  cases rel with
  | none =>
      cases later
      exact .none
  | some here =>
      cases later with
      | some there => exact .some (each _ _ _ here there)

theorem exists_of_rel {Item Result : Type} {related : Item → Result → Prop} {item : Item}
    {result : Option Result} (rel : Option.Rel related (some item) result) :
    ∃ other, result = some other ∧ related item other := by
  cases rel with
  | some here => exact ⟨_, rfl, here⟩

theorem exists_getElem?_of_forall₂ {Item Result : Type} {related : Item → Result → Prop}
    {items : List Item} {results : List Result} (each : List.Forall₂ related items results)
    {position : Nat} {item : Item} (there : items[position]? = some item) :
    ∃ result, results[position]? = some result ∧ related item result :=
  exists_of_rel (there ▸ rel_getElem? each position)

theorem exists_of_rel_some {Item Result : Type} {related : Item → Result → Prop} {result : Result}
    {item : Option Item} (rel : Option.Rel related item (some result)) :
    ∃ other, item = some other ∧ related other result := by
  cases rel with
  | some here => exact ⟨_, rfl, here⟩

theorem forall₂_of_comp {First Second Third : Type} {one : First → Second → Prop}
    {other : Second → Third → Prop} {both : First → Third → Prop}
    (joins : ∀ first second third, one first second → other second third → both first third)
    {items : List First} {halfway : List Second} {results : List Third}
    (first : List.Forall₂ one items halfway) (second : List.Forall₂ other halfway results) :
    List.Forall₂ both items results := by
  induction first generalizing results with
  | nil =>
      cases second
      exact .nil
  | cons related _ ih =>
      cases second with
      | cons further rest => exact .cons (joins _ _ _ related further) (ih rest)

/-- Two items that follow one another in a list, not necessarily at once. -/
theorem pair_sublist_iff {Item : Type} {items : List Item} {one other : Item} :
    [one, other].Sublist items ↔ ∃ first second : Nat, first < second ∧ items[first]? = some one ∧
      items[second]? = some other := by
  induction items with
  | nil => simp
  | cons item items ih =>
      constructor
      · intro sublist
        cases sublist with
        | cons _ rest =>
            obtain ⟨first, second, before, there, there_too⟩ := ih.mp rest
            exact ⟨first + 1, second + 1, Nat.succ_lt_succ before, there, there_too⟩
        | cons_cons _ rest =>
            obtain ⟨position, there⟩ := List.mem_iff_getElem?.mp (List.singleton_sublist.mp rest)
            exact ⟨0, position + 1, Nat.succ_pos position, rfl, there⟩
      · rintro ⟨first, second, before, there, there_too⟩
        obtain ⟨later, rfl⟩ :=
          Nat.exists_eq_succ_of_ne_zero (Nat.ne_of_gt (Nat.zero_lt_of_lt before))
        rw [List.getElem?_cons_succ] at there_too
        cases first with
        | zero =>
            obtain rfl := Option.some.inj there
            exact .cons_cons _ (List.singleton_sublist.mpr (List.mem_of_getElem? there_too))
        | succ first =>
            exact (ih.mpr ⟨first, later, Nat.lt_of_succ_lt_succ before, there, there_too⟩).cons item

/-- Of two different items of a list one comes before the other. -/
theorem pair_sublist_total {Item : Type} {items : List Item} {one other : Item}
    (one_listed : one ∈ items) (other_listed : other ∈ items) (differ : one ≠ other) :
    [one, other].Sublist items ∨ [other, one].Sublist items := by
  obtain ⟨first, there⟩ := List.mem_iff_getElem?.mp one_listed
  obtain ⟨second, there_too⟩ := List.mem_iff_getElem?.mp other_listed
  rcases Nat.lt_trichotomy first second with before | rfl | after
  · exact .inl (pair_sublist_iff.mpr ⟨first, second, before, there, there_too⟩)
  · exact absurd (Option.some.inj (there.symm.trans there_too)) differ
  · exact .inr (pair_sublist_iff.mpr ⟨second, first, after, there_too, there⟩)

/-- In a list without repetitions only one of two items comes before the other. -/
theorem not_pair_sublist_of_nodup {Item : Type} {items : List Item} {one other : Item}
    (nodup : items.Nodup) (sublist : [one, other].Sublist items) :
    ¬ [other, one].Sublist items := by
  intro swapped
  obtain ⟨first, second, before, there, there_too⟩ := pair_sublist_iff.mp sublist
  obtain ⟨third, fourth, after, here, here_too⟩ := pair_sublist_iff.mp swapped
  obtain rfl : second = third :=
    (List.getElem?_inj (List.getElem?_eq_some_iff.mp there_too).1 nodup).mp
    (there_too.trans here.symm)
  obtain rfl : first = fourth :=
    (List.getElem?_inj (List.getElem?_eq_some_iff.mp there).1 nodup).mp (there.trans here_too.symm)
  exact absurd (Nat.lt_trans before after) (Nat.lt_irrefl _)

namespace Checked

variable {Item Part Result : Type}

theorem bind_eq_ok {first : Checked Part} {next : Part → Checked Result} {result : Result} :
    first >>= next = .ok result ↔ ∃ part, first = .ok part ∧ next part = .ok result :=
  except_bind_eq_ok

theorem ok_bind {part : Part} {next : Part → Checked Result} :
    (Except.ok part : Checked Part) >>= next = next part := rfl

@[simp]
theorem pure_eq_ok {given result : Result} :
    (pure given : Checked Result) = .ok result ↔ given = result := by
  simp [pure, Except.pure]

@[simp]
theorem map_eq_ok {change : Part → Result} {operation : Checked Part} {result : Result} :
    change <$> operation = .ok result ↔ ∃ part, operation = .ok part ∧ change part = result := by
  cases operation <;> simp [Functor.map, Except.map]

def givesTo (operation : Checked Result) (test : Result → Bool) : Bool :=
  match operation with
  | .ok result => test result
  | .error _ => false

theorem exists_of_givesTo {operation : Checked Result} {test : Result → Bool}
    (passes : operation.givesTo test = true) :
    ∃ result, operation = .ok result ∧ test result = true := by
  cases operation with
  | ok result => exact ⟨result, rfl, passes⟩
  | error fault => cases passes

/-- Going through a list gives the results of its items one by one. -/
theorem mapM_eq_ok {step : Item → Checked Result} {items : List Item} {results : List Result} :
    items.mapM step = .ok results ↔
      List.Forall₂ (fun item result => step item = .ok result) items results := by
  induction items generalizing results with
  | nil =>
      rw [List.mapM_nil, pure_eq_ok, List.forall₂_nil_left_iff]
      exact eq_comm
  | cons item items ih =>
      rw [List.mapM_cons, bind_eq_ok, List.forall₂_cons_left_iff]
      constructor
      · rintro ⟨first, gives, following⟩
        obtain ⟨rest, gives_rest, equal⟩ := bind_eq_ok.mp following
        exact ⟨first, rest, gives, ih.mp gives_rest, (pure_eq_ok.mp equal).symm⟩
      · rintro ⟨first, rest, gives, gives_rest, rfl⟩
        exact ⟨first, gives, bind_eq_ok.mpr ⟨rest, ih.mpr gives_rest, pure_eq_ok.mpr rfl⟩⟩

/-- Asking the items of a list one by one gives yes exactly if one of them does. -/
theorem anyM_eq_ok {step : Item → Checked Bool} {items : List Item} {answer : Bool}
    (runs : items.anyM step = .ok answer) :
    answer = true ↔ ∃ item ∈ items, step item = .ok true := by
  induction items with
  | nil =>
      obtain rfl : false = answer := by simpa using runs
      simp
  | cons item items ih =>
      rw [List.anyM_cons] at runs
      obtain ⟨here, asks, following⟩ := bind_eq_ok.mp runs
      cases here with
      | true =>
          obtain rfl : true = answer := by simpa using following
          exact iff_of_true rfl ⟨item, List.mem_cons_self .., asks⟩
      | false =>
          rw [ih following]
          simp [asks]

end Checked

namespace Judged

variable {Part Result : Type}

def Grants (check : Judged Result) (result : Result) : Prop := check.run = .ok (.ok result)

def grantsTo (check : Judged Result) (test : Result → Bool) : Bool :=
  match check.run with
  | .ok (.ok result) => test result
  | _ => false

theorem exists_of_grantsTo {check : Judged Result} {test : Result → Bool}
    (passes : check.grantsTo test = true) : ∃ result, check.Grants result ∧ test result = true := by
  unfold grantsTo at passes
  split at passes
  · next result runs => exact ⟨result, runs, passes⟩
  · cases passes

def Rejects (check : Judged Result) (causes : List LinkError) : Prop :=
  check.run = .ok (.error causes)

/-- Whenever the check rejects, it says why. -/
def Reasoned (check : Judged Result) : Prop := ∀ causes, check.Rejects causes → causes ≠ []

@[simp]
theorem grants_pure {given result : Result} :
    (pure given : Judged Result).Grants result ↔ given = result := by
  simp [Grants]

@[simp]
theorem grants_reject {cause : LinkError} {result : Result} :
    ¬ (reject cause : Judged Result).Grants result := by
  simp [Grants, reject, pure, Except.pure]

@[simp]
theorem grants_throw {causes : List LinkError} {result : Result} :
    ¬ (throw causes : Judged Result).Grants result := by
  simp [Grants, pure, Except.pure]

/-- Nothing is checked after a rejection. -/
theorem reject_bind {cause : LinkError} {next : Part → Judged Result} :
    (reject cause >>= next) = reject cause := rfl

/-- A sequence of checks grants a result exactly if both parts do. -/
theorem grants_bind {first : Judged Part} {next : Part → Judged Result} {result : Result} :
    (first >>= next).Grants result ↔ ∃ part, first.Grants part ∧ (next part).Grants result := by
  simp only [Grants, ExceptT.run_bind]
  rw [Checked.bind_eq_ok]
  constructor
  · rintro ⟨answer, runs, following⟩
    cases answer with
    | ok part => exact ⟨part, runs, following⟩
    | error causes => simp at following
  · rintro ⟨part, runs, following⟩
    exact ⟨.ok part, runs, following⟩

/-- A sequence rejects if its second part does after the first has granted a result. -/
theorem rejects_bind {first : Judged Part} {next : Part → Judged Result} {part : Part}
    {causes : List LinkError} (granted : first.Grants part)
    (rejected : (next part).Rejects causes) :
    (first >>= next).Rejects causes := by
  rw [Rejects, ExceptT.run_bind]
  exact Checked.bind_eq_ok.mpr ⟨.ok part, granted, rejected⟩

/-- A sequence goes on with what its first part grants. -/
theorem bind_of_grants {first : Judged Part} {next : Part → Judged Result} {part : Part}
    (granted : first.Grants part) : first >>= next = next part := by
  refine ExceptT.ext ?_
  rw [ExceptT.run_bind, granted]
  rfl

theorem rejects_reject {cause : LinkError} : (reject cause : Judged Result).Rejects [cause] := rfl

@[simp]
theorem exists_grants_bind {first : Judged Part} {next : Part → Judged Result} {part : Part}
    (granted : first.Grants part) (following : ∃ result, (next part).Grants result) :
    ∃ result, (first >>= next).Grants result := by
  obtain ⟨result, grants⟩ := following
  exact ⟨result, grants_bind.mpr ⟨part, granted, grants⟩⟩

theorem grants_monadLift {operation : Checked Result} {result : Result} :
    (monadLift operation : Judged Result).Grants result ↔ operation = .ok result := by
  simp [Grants, Functor.map, Except.map]
  cases operation <;> simp

theorem grants_rejectAll {causes : List LinkError} :
    (rejectAll causes).Grants () ↔ causes = [] := by
  cases causes <;> simp [rejectAll]

theorem rejects_rejectAll {causes : List LinkError} (some_cause : causes ≠ []) :
    (rejectAll causes).Rejects causes := by
  cases causes with
  | nil => exact absurd rfl some_cause
  | cons cause causes => rfl

theorem exists_rejects_rejectAll {causes : List LinkError} :
    (∃ found, (rejectAll causes).Rejects found) ↔ causes ≠ [] := by
  constructor
  · rintro ⟨found, rejects⟩ rfl
    cases rejects
  · intro some_cause
    exact ⟨causes, rejects_rejectAll some_cause⟩

theorem grants_after {causes : List LinkError} {check : Judged Result} {result : Result} :
    (after causes check).Grants result ↔ check.Grants result := by
  simp only [Grants, after, ExceptT.run_mk]
  rw [Checked.bind_eq_ok]
  constructor
  · rintro ⟨answer, runs, following⟩
    cases answer with
    | ok granted =>
        obtain rfl : granted = result := by simpa using following
        exact runs
    | error later => simp at following
  · intro runs
    exact ⟨.ok result, runs, by simp⟩

theorem grants_mapM {Item : Type} {step : Item → Judged Result} {items : List Item}
    {results : List Result} :
    (items.mapM step).Grants results ↔
      List.Forall₂ (fun item result => (step item).Grants result) items results := by
  induction items generalizing results with
  | nil =>
      rw [List.mapM_nil, grants_pure, List.forall₂_nil_left_iff]
      exact eq_comm
  | cons item items ih =>
      rw [List.mapM_cons, grants_bind, List.forall₂_cons_left_iff]
      constructor
      · rintro ⟨first, gives, following⟩
        obtain ⟨rest, gives_rest, equal⟩ := grants_bind.mp following
        exact ⟨first, rest, gives, ih.mp gives_rest, (grants_pure.mp equal).symm⟩
      · rintro ⟨first, rest, gives, gives_rest, rfl⟩
        exact ⟨first, gives, grants_bind.mpr ⟨rest, ih.mpr gives_rest, grants_pure.mpr rfl⟩⟩

/-! ## Reasons -/

@[simp]
theorem reasoned_pure {given : Result} : (pure given : Judged Result).Reasoned := by
  intro causes rejects
  simp [Rejects] at rejects

@[simp]
theorem reasoned_reject {cause : LinkError} : (reject cause : Judged Result).Reasoned := by
  intro causes rejects
  have listed : [cause] = causes := by
    simpa [Rejects, reject, throw, throwThe, MonadExceptOf.throw, ExceptT.mk, ExceptT.run, pure,
      Except.pure] using rejects
  simp [← listed]

theorem reasoned_throw {causes : List LinkError} (some_cause : causes ≠ []) :
    (throw causes : Judged Result).Reasoned := by
  intro given rejects
  have same : causes = given := by simpa [Rejects, pure, Except.pure] using rejects
  rwa [← same]

theorem reasoned_bind {first : Judged Part} {next : Part → Judged Result}
    (first_reasoned : first.Reasoned) (next_reasoned : ∀ part, (next part).Reasoned) :
    (first >>= next).Reasoned := by
  intro causes rejects
  simp only [Rejects, ExceptT.run_bind] at rejects
  obtain ⟨answer, runs, following⟩ := Checked.bind_eq_ok.mp rejects
  cases answer with
  | ok part => exact next_reasoned part causes following
  | error found =>
      obtain rfl : found = causes := by simpa using following
      exact first_reasoned found runs

@[simp]
theorem reasoned_monadLift {operation : Checked Result} :
    (monadLift operation : Judged Result).Reasoned := by
  intro causes rejects
  cases operation <;> simp [Rejects, Functor.map, Except.map] at rejects

theorem reasoned_mapM {Item : Type} {step : Item → Judged Result}
    (each : ∀ item, (step item).Reasoned) (items : List Item) : (items.mapM step).Reasoned := by
  induction items with
  | nil => exact reasoned_pure
  | cons item items ih =>
      rw [List.mapM_cons]
      exact reasoned_bind (each item) fun _ => reasoned_bind ih fun _ => reasoned_pure

@[simp]
theorem reasoned_rejectAll {causes : List LinkError} : (rejectAll causes).Reasoned := by
  cases causes with
  | nil => exact reasoned_pure
  | cons cause rest => exact reasoned_throw (List.cons_ne_nil cause rest)

theorem reasoned_after {causes : List LinkError} {check : Judged Result}
    (check_reasoned : check.Reasoned) : (after causes check).Reasoned := by
  intro found rejects
  simp only [Rejects, after, ExceptT.run_mk] at rejects
  obtain ⟨answer, runs, following⟩ := Checked.bind_eq_ok.mp rejects
  cases answer with
  | ok granted => simp at following
  | error later =>
      obtain rfl : causes ++ later = found := by simpa using following
      exact List.append_ne_nil_of_right_ne_nil causes (check_reasoned later runs)

end Judged
end StageLink
