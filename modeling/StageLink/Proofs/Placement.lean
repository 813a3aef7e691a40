import StageLink.Proofs.Attributes
import StageLink.Proofs.Problems

/-!
# Placed attributes

After vertex inputs or fragment outputs have been allocated, every one of them has a location, and
those that do not share the slots of another by a dual-source index lie apart.  The allocation is
followed by a ledger from variables to spans: the spans of the variables that have been looked at
are in the ledger, unless they wait for one.  Those that wait are placed from the largest to the
smallest, each as low as the spans before it allow.
-/

namespace StageLink

/-! ## Mentioning a variable -/

namespace Shader

/-- A variable of the given name occurs as a place. -/
def Dereferences (shader : Shader) (name : String) : Prop :=
  ∃ id declared, Node.place (.whole id) ∈ shader.nodes ∧
    shader.vars.get? id = some declared ∧ declared.name = name

theorem nodeMentions_eq_ok {shader : Shader} {name : String} {node : Node} :
    shader.nodeMentions name node = .ok true ↔ ∃ id declared, node = .place (.whole id) ∧
      shader.vars.get? id = some declared ∧ declared.name = name := by
  unfold nodeMentions
  split
  · next id =>
      rw [Checked.bind_eq_ok]
      constructor
      · rintro ⟨declared, fetched, named⟩
        exact ⟨id, declared, rfl, fetchVariable_eq_ok.mp fetched, by simpa using named⟩
      · rintro ⟨other, declared, same, found, named⟩
        cases same
        exact ⟨declared, fetchVariable_eq_ok.mpr found, by simpa using named⟩
  · next other_node =>
      constructor
      · intro asks
        simp at asks
      · rintro ⟨id, -, rfl, -, -⟩
        exact absurd rfl (other_node id)

theorem mentions_eq_ok {shader : Shader} {name : String} {answer : Bool}
    (asks : shader.mentions name = .ok answer) : answer = true ↔ shader.Dereferences name := by
  rw [Checked.anyM_eq_ok asks]
  simp only [nodeMentions_eq_ok, Dereferences]
  constructor
  · rintro ⟨node, listed, id, declared, rfl, found, named⟩
    exact ⟨id, declared, listed, found, named⟩
  · rintro ⟨id, declared, listed, found, named⟩
    exact ⟨_, listed, id, declared, rfl, found, named⟩

/-- A revision that keeps names keeps what is mentioned. -/
theorem dereferences_revised {relation : Variable → Variable → Prop} {before after : Shader}
    {name : String} (keeps_names : ∀ one other, relation one other → other.name = one.name)
    (revised : Revised relation before after) :
    after.Dereferences name ↔ before.Dereferences name := by
  have nodes : after.nodes = before.nodes :=
    nodes_congr (by rw [revised.same]) (by rw [revised.same])
  rw [Dereferences, Dereferences, nodes]
  constructor
  · rintro ⟨id, declared, listed, found, rfl⟩
    obtain ⟨earlier, was, related⟩ := revised.origin found
    exact ⟨id, earlier, listed, was, (keeps_names _ _ related).symm⟩
  · rintro ⟨id, declared, listed, found, rfl⟩
    obtain ⟨later, now, related⟩ := revised.related found
    exact ⟨id, later, listed, now, keeps_names _ _ related⟩

end Shader

namespace Attribute

variable {target : AttributeTarget} {limit : Nat} {bindings : Bindings} {start : Shader}

/-! ## What variables ask for -/

/-- The span that a variable claims: it gets slots, has a location once the bindings have been
looked at, and does not share the slots of another. -/
def claimed? (target : AttributeTarget) (bindings : Bindings) (start : Shader)
    (id : VariableId) : Option Span :=
  (start.vars.get? id).bind fun declared =>
    if Varying.isGeneric target.mode declared && (bound target bindings declared).index = 0 then
      (bound target bindings declared).span? fun ty => ty
    else
      none

/-- A variable gets slots and has no location even after the bindings have been looked at. -/
def Waits (target : AttributeTarget) (bindings : Bindings) (declared : Variable) : Prop :=
  Varying.isGeneric target.mode declared = true ∧ (bound target bindings declared).location = none

instance (declared : Variable) : Decidable (Waits target bindings declared) :=
  inferInstanceAs (Decidable (_ ∧ _))

/-- The variables that wait for a span, in order, with the number of slots each of them needs. -/
def waiting (target : AttributeTarget) (bindings : Bindings) (start : Shader)
    (ids : List VariableId) : List (VariableId × Nat) :=
  ids.filterMap fun id => (start.vars.get? id).bind fun declared =>
    if Waits target bindings declared then some (id, declared.ty.attributeSlots) else none

theorem mem_waiting {ids : List VariableId} {id : VariableId} {slots : Nat} :
    (id, slots) ∈ waiting target bindings start ids ↔
      id ∈ ids ∧ ∃ declared, start.vars.get? id = some declared ∧
        Waits target bindings declared ∧ declared.ty.attributeSlots = slots := by
  simp only [waiting, List.mem_filterMap, Option.bind_eq_some_iff, Option.ite_none_right_eq_some,
    Option.some.injEq, Prod.mk.injEq]
  constructor
  · rintro ⟨other, listed, declared, found, waits, rfl, same⟩
    exact ⟨listed, declared, found, waits, same⟩
  · rintro ⟨listed, declared, found, waits, same⟩
    exact ⟨id, listed, declared, found, waits, rfl, same⟩

theorem waiting_sublist (ids : List VariableId) :
    ((waiting target bindings start ids).map (·.1)).Sublist ids := by
  induction ids with
  | nil => exact List.Sublist.refl []
  | cons id ids ih =>
      rw [waiting, List.filterMap_cons]
      split
      · exact ih.cons id
      · next entry chosen =>
          obtain ⟨declared, -, chosen⟩ := Option.bind_eq_some_iff.mp chosen
          obtain ⟨-, same⟩ := Option.ite_none_right_eq_some.mp chosen
          obtain rfl := Option.some.inj same
          exact ih.cons_cons id

theorem pair_sublist_waiting_iff {ids : List VariableId} {one other : VariableId × Nat}
    (nodup : ids.Nodup) (one_waits : one ∈ waiting target bindings start ids)
    (other_waits : other ∈ waiting target bindings start ids) (differ : one.1 ≠ other.1) :
    [one, other].Sublist (waiting target bindings start ids) ↔ [one.1, other.1].Sublist ids := by
  have positions : ∀ {first second : VariableId × Nat},
      [first, second].Sublist (waiting target bindings start ids) →
        [first.1, second.1].Sublist ids :=
    fun sublist => (sublist.map Prod.fst).trans (waiting_sublist ids)
  refine ⟨positions, fun sublist => ?_⟩
  rcases pair_sublist_total one_waits other_waits fun same => differ (same ▸ rfl) with
    kept | swapped
  · exact kept
  · exact absurd (positions swapped) (not_pair_sublist_of_nodup nodup sublist)

/-! ## The ledger of an allocation -/

/-- How far an allocation has come: some globals have been looked at and have their bound form, the
others are as they were.  Nothing is in use but the spans that have been claimed. -/
structure Progress (target : AttributeTarget) (limit : Nat) (bindings : Bindings) (start : Shader)
    (seen : List VariableId) (allocation : Allocation) : Prop where
  ledger : Ledger limit allocation.used (among seen (claimed? target bindings start))
  tallies : allocation.used.Tallies limit
    {span | ∃ id ∈ seen, claimed? target bindings start id = some span}
  pending : allocation.pending = waiting target bindings start seen
  contents : ∀ id, allocation.shader.vars.get? id =
    if id ∈ seen then (start.vars.get? id).map (bound target bindings) else start.vars.get? id

namespace Progress

variable {seen : List VariableId} {allocation : Allocation} {id : VariableId} {declared : Variable}

/-- Nothing has been looked at when an allocation begins. -/
theorem initial (start : Shader) :
    Progress target limit bindings start []
      { shader := start, used := SlotSet.reservedAbove limit } where
  ledger := by
    rw [among_nil]
    exact .start limit
  tallies := by
    have nothing : {span | ∃ id ∈ ([] : List VariableId),
        claimed? target bindings start id = some span} = ∅ := by simp
    rw [nothing]
    exact .start limit
  pending := rfl
  contents := by simp

/-- Looking at one more global claims its span, if it has one, or lets it wait, and changes it to
its bound form. -/
theorem look (progress : Progress target limit bindings start seen allocation)
    (unseen : id ∉ seen) (found : start.vars.get? id = some declared) {next : Allocation}
    (used : match claimed? target bindings start id with
      | some span => allocation.used.claim? span.base span.count = some next.used
      | none => next.used = allocation.used)
    (pending : next.pending = allocation.pending ++
      if Waits target bindings declared then [(id, declared.ty.attributeSlots)] else [])
    (contents : ∀ other, next.shader.vars.get? other =
      if id = other then some (bound target bindings declared)
      else allocation.shader.vars.get? other) :
    Progress target limit bindings start (seen ++ [id]) next where
  ledger := by
    rw [among_concat]
    split at used
    · next span claims =>
        rw [claims]
        exact progress.ledger.claim id used
    · next nothing =>
        rw [nothing, Function.update_eq_self_iff.mpr (by simp [among, unseen]), used]
        exact progress.ledger
  tallies := by
    split at used
    · next span claims =>
        have more : {span | ∃ other ∈ seen ++ [id],
            claimed? target bindings start other = some span} =
            insert span {span | ∃ other ∈ seen,
              claimed? target bindings start other = some span} := by
          ext another
          simp [or_and_right, exists_or, claims, or_comm, eq_comm]
        rw [more]
        exact progress.tallies.claim used
    · next nothing =>
        simpa [or_and_right, exists_or, nothing, used] using progress.tallies
  pending := by
    rw [pending, progress.pending]
    by_cases waits : Waits target bindings declared <;>
      simp [waiting, found, waits]
  contents := by
    intro other
    rw [contents, progress.contents]
    by_cases here : id = other
    · subst here
      simp [found]
    · simp [here, Ne.symm here]

end Progress

/-- Looking at one global without a failure takes the allocation one step further. -/
theorem claimAll_step {seen ids : List VariableId} {id : VariableId}
    {allocation result : Allocation}
    (progress : Progress target limit bindings start seen allocation) (unseen : id ∉ seen)
    (runs : claimAll target limit bindings allocation (id :: ids) = .ok (result, none)) :
    ∃ stepped, Progress target limit bindings start (seen ++ [id]) stepped ∧
      claimAll target limit bindings stepped ids = .ok (result, none) := by
  rw [claimAll] at runs
  obtain ⟨declared, fetched, following⟩ := Checked.bind_eq_ok.mp runs
  have found : start.vars.get? id = some declared := by
    rw [← Shader.fetchVariable_eq_ok.mp fetched, progress.contents, if_neg unseen]
  split at following
  · next other_kind =>
      have not_generic : Varying.isGeneric target.mode declared = false := by
        simp only [Varying.isGeneric, Bool.and_eq_false_iff, decide_eq_false_iff_not,
          Bool.not_eq_false']
        simpa using other_kind
      have kept : bound target bindings declared = declared := by simp [bound, not_generic]
      refine ⟨allocation, progress.look unseen found ?_ ?_ ?_, following⟩
      · simp [claimed?, found, not_generic]
      · simp [Waits, not_generic]
      · intro other
        split
        · next here => rw [kept, ← here, Shader.fetchVariable_eq_ok.mp fetched]
        · rfl
  · next this_kind =>
      have generic : Varying.isGeneric target.mode declared = true := by
        simpa [Varying.isGeneric] using this_kind
      split at following
      · simp at following
      · have bound_eq : (if declared.explicitLocation = true then declared
            else bind target bindings declared) = bound target bindings declared := by
          cases explicit : declared.explicitLocation <;> simp [bound, generic, explicit]
        have changed : ∀ other, (allocation.shader.modifyVariable id fun _ =>
            bound target bindings declared).vars.get? other =
            if id = other then some (bound target bindings declared)
            else allocation.shader.vars.get? other := by
          intro other
          by_cases here : id = other
          · simp [Shader.modifyVariable, Arena.get?_modify, ← here,
              Shader.fetchVariable_eq_ok.mp fetched]
          · simp [Shader.modifyVariable, Arena.get?_modify, here]
        rw [bound_eq] at following
        dsimp only at following
        split at following
        · next unlocated =>
            refine ⟨_, progress.look unseen found ?_ ?_ changed, following⟩
            · simp [claimed?, found, generic, Variable.span?, unlocated]
            · simp [Waits, generic, unlocated, (moved_bound declared).same.ty]
        · next location located =>
            have none_waits : ¬ Waits target bindings declared := by simp [Waits, located]
            split at following
            · next used granted =>
                refine ⟨_, progress.look unseen found ?_ (by simp [none_waits]) changed, following⟩
                unfold claim? at granted
                split at granted
                · next own_slots =>
                    simpa [claimed?, found, generic, own_slots, Variable.span?, located]
                      using granted
                · next shares =>
                    simpa [claimed?, found, shares] using granted.symm
            · simp at following

/-- Going through globals without a failure takes the allocation as far as all of them. -/
theorem claimAll_progress {ids : List VariableId} :
    ∀ {seen : List VariableId} {allocation result : Allocation},
      Progress target limit bindings start seen allocation → (seen ++ ids).Nodup →
      claimAll target limit bindings allocation ids = .ok (result, none) →
      Progress target limit bindings start (seen ++ ids) result := by
  induction ids with
  | nil =>
      intro seen allocation result progress _ runs
      obtain rfl : allocation = result := by simpa [claimAll] using runs
      simpa using progress
  | cons id ids ih =>
      intro seen allocation result progress nodup runs
      have unseen : id ∉ seen := fun listed =>
        (List.nodup_append.mp nodup).2.2 id listed id (List.mem_cons_self ..) rfl
      obtain ⟨stepped, further, following⟩ := claimAll_step progress unseen runs
      have regrouped : seen ++ id :: ids = seen ++ [id] ++ ids := by simp
      rw [regrouped] at nodup ⊢
      exact ih further nodup following

/-- What comes before a later variable is the span of the first and what comes before it without
that. -/
theorem spans_cons {spans : Set Span} {place : VariableId → Nat} {location : Nat}
    {pair other : VariableId × Nat} {pairs : List (VariableId × Nat)}
    (differs : ∀ one ∈ pairs, one.1 ≠ pair.1) (later : other ∈ pairs) :
    spans ∪ {span | ∃ one, [one, other].Sublist (pair :: pairs) ∧
        span = ⟨Function.update place pair.1 location one.1, one.2⟩} =
      insert ⟨location, pair.2⟩ spans ∪ {span | ∃ one, [one, other].Sublist pairs ∧
        span = ⟨place one.1, one.2⟩} := by
  ext span
  simp only [Set.mem_union, Set.mem_ofPred_eq, Set.mem_insert_iff, List.cons_sublist_cons',
    List.singleton_sublist]
  constructor
  · rintro (given | ⟨one, before | ⟨rfl, -⟩, rfl⟩)
    · exact .inl (.inr given)
    · rw [Function.update_of_ne (differs one (before.subset (by simp)))]
      exact .inr ⟨one, before, rfl⟩
    · rw [Function.update_self]
      exact .inl (.inl rfl)
  · rintro ((rfl | given) | ⟨one, before, rfl⟩)
    · exact .inr ⟨pair, .inr ⟨rfl, later⟩, by rw [Function.update_self]⟩
    · exact .inl given
    · refine .inr ⟨one, .inl before, ?_⟩
      rw [Function.update_of_ne (differs one (before.subset (by simp)))]

/-- Placing waiting variables without a failure gives each of them the lowest span that is vacant
next to the given spans and those of the variables before it, and touches no other variable. -/
theorem placeAll_spec {pairs : List (VariableId × Nat)} :
    ∀ {shader result : Shader} {used : SlotSet} {spans : Set Span},
      used.Tallies limit spans → (pairs.map (·.1)).Nodup →
      placeAll target shader used pairs = (result, none) →
      ∃ place : VariableId → Nat,
        (∀ pair ∈ pairs,
          IsLeast {base | Span.Vacant limit (spans ∪ {span | ∃ other, [other, pair].Sublist pairs ∧
            span = ⟨place other.1, other.2⟩}) ⟨base, pair.2⟩} (place pair.1) ∧
          result.vars.get? pair.1 =
            (shader.vars.get? pair.1).map (Varying.settle (place pair.1))) ∧
        ∀ id, id ∉ pairs.map (·.1) → result.vars.get? id = shader.vars.get? id := by
  induction pairs with
  | nil =>
      intro shader result used spans _ _ runs
      obtain rfl : shader = result := by simpa [placeAll] using runs
      exact ⟨fun _ => 0, by simp, by simp⟩
  | cons pair pairs ih =>
      intro shader result used spans tallies nodup runs
      obtain ⟨not_later, nodup_later⟩ := List.nodup_cons.mp nodup
      rw [placeAll] at runs
      split at runs
      · simp at runs
      · next location found =>
          obtain ⟨-, least⟩ := tallies.findFree?_eq_some_iff.mp found
          obtain ⟨place, placed, others⟩ := ih (tallies.enter location pair.2) nodup_later runs
          have differs : ∀ other ∈ pairs, other.1 ≠ pair.1 := fun other later same =>
            not_later (List.mem_map.mpr ⟨other, later, same⟩)
          refine ⟨Function.update place pair.1 location, ?_, ?_⟩
          · intro other listed
            rcases List.mem_cons.mp listed with rfl | later
            · have first : ∀ one, ¬ [one, other].Sublist (other :: pairs) := by
                intro one sublist
                have in_rest : other ∈ pairs := by
                  rcases List.cons_sublist_cons'.mp sublist with rest | ⟨-, rest⟩
                  · exact rest.subset (by simp)
                  · exact List.singleton_sublist.mp rest
                exact differs other in_rest rfl
              refine ⟨?_, ?_⟩
              · simpa [first] using least
              · rw [others _ not_later, Function.update_self, Shader.modifyVariable,
                  Arena.get?_modify]
                simp only [↓reduceIte]
                rfl
            · obtain ⟨lowest, settles⟩ := placed other later
              refine ⟨?_, ?_⟩
              · rw [spans_cons differs later, Function.update_of_ne (differs other later)]
                exact lowest
              · rw [settles, Function.update_of_ne (differs other later)]
                simp [Shader.modifyVariable, Arena.get?_modify, (differs other later).symm]
          · intro id absent
            rw [List.map_cons, List.mem_cons, not_or] at absent
            rw [others id absent.2]
            simp [Shader.modifyVariable, Arena.get?_modify, Ne.symm absent.1]

/-! ## What an allocation gives -/

/-- A global that gets slots. -/
structure Slotted (target : AttributeTarget) (start : Shader) (id : VariableId)
    (declared : Variable) : Prop where
  global : id ∈ start.globals
  found : start.vars.get? id = some declared
  generic : Varying.isGeneric target.mode declared = true

theorem Slotted.unique {id : VariableId} {declared another : Variable}
    (slotted : Slotted target start id declared) (found : start.vars.get? id = some another) :
    declared = another :=
  Option.some.inj (slotted.found.symm.trans found)

/-- What gets slots after a revision has got them before. -/
theorem Slotted.before {after : Shader} {id : VariableId} {allocated : Variable}
    (revised : Shader.Revised Variable.SameButPlace start after)
    (slotted : Slotted target after id allocated) :
    ∃ declared, Slotted target start id declared ∧ declared.SameButPlace allocated := by
  obtain ⟨declared, was, same⟩ := revised.origin slotted.found
  exact ⟨declared, ⟨revised.globals ▸ slotted.global, was,
    same.isGeneric target.mode ▸ slotted.generic⟩, same⟩

/-- A vertex stage that mentions the built-in position attribute has its lowest slot for that. -/
def Reserves (target : AttributeTarget) (start : Shader) : Prop :=
  target = .vertexInputs ∧ start.Dereferences "gl_Vertex"

/-- A variable gets its slots before one that waits: it claims them, or it waits as well and needs
more slots or as many and is declared earlier. -/
def Precedes (target : AttributeTarget) (bindings : Bindings) (start : Shader) (other : VariableId)
    (another : Variable) (id : VariableId) (declared : Variable) : Prop :=
  if (bound target bindings another).location.isSome then
    (bound target bindings another).index = 0
  else
    declared.ty.attributeSlots < another.ty.attributeSlots ∨
      declared.ty.attributeSlots = another.ty.attributeSlots ∧ [other, id].Sublist start.globals

/-- The spans that are out of the question when a variable that waits is placed. -/
def spansBefore (target : AttributeTarget) (bindings : Bindings) (start : Shader)
    (place : VariableId → Nat) (id : VariableId) (declared : Variable) : Set Span :=
  {span | Reserves target start ∧ span = ⟨0, 1⟩ ∨ ∃ other another,
    Slotted target start other another ∧ Precedes target bindings start other another id declared ∧
      span = ⟨place other, another.ty.attributeSlots⟩}

/-- What an allocation without a failure has made of a shader. -/
structure Allotted (target : AttributeTarget) (limit : Nat) (bindings : Bindings)
    (start result : Shader) (place : VariableId → Nat) : Prop where
  same : result = { start with vars := result.vars }
  located : ∀ {id declared location}, Slotted target start id declared →
    (bound target bindings declared).location = some location →
      place id = location ∧ result.vars.get? id = some (bound target bindings declared)
  settled : ∀ {id declared}, Slotted target start id declared →
    (bound target bindings declared).location = none →
      result.vars.get? id = some (Varying.settle (place id) (bound target bindings declared))
  untouched : ∀ id, (∀ declared, ¬ Slotted target start id declared) →
    result.vars.get? id = start.vars.get? id
  claims : ∃ used, Ledger limit used (among start.globals (claimed? target bindings start))
  lowest : ∀ {id declared}, Slotted target start id declared →
    (bound target bindings declared).location = none →
      IsLeast {base | Span.Vacant limit (spansBefore target bindings start place id declared)
        ⟨base, declared.ty.attributeSlots⟩} (place id)

theorem Slotted.waits_iff {id : VariableId} {declared : Variable}
    (slotted : Slotted target start id declared) :
    Waits target bindings declared ↔ (bound target bindings declared).location = none := by
  simp [Waits, slotted.generic]

theorem Slotted.mem_waiting {id : VariableId} {declared : Variable}
    (slotted : Slotted target start id declared)
    (unlocated : (bound target bindings declared).location = none) :
    (id, declared.ty.attributeSlots) ∈ waiting target bindings start start.globals :=
  Attribute.mem_waiting.mpr
    ⟨slotted.global, declared, slotted.found, slotted.waits_iff.mpr unlocated, rfl⟩

theorem exists_slotted_of_mem_waiting {pair : VariableId × Nat}
    (listed : pair ∈ waiting target bindings start start.globals) :
    ∃ declared, Slotted target start pair.1 declared ∧
      (bound target bindings declared).location = none ∧
      pair = (pair.1, declared.ty.attributeSlots) := by
  obtain ⟨id, slots⟩ := pair
  obtain ⟨global, declared, found, ⟨generic, unlocated⟩, rfl⟩ := mem_waiting.mp listed
  exact ⟨declared, ⟨global, found, generic⟩, unlocated, rfl⟩

/-- What has been claimed is the span of a variable that has a location and does not share the slots
of another. -/
theorem claimed?_eq_some_iff {id : VariableId} {span : Span} :
    claimed? target bindings start id = some span ↔ ∃ declared location,
      start.vars.get? id = some declared ∧ Varying.isGeneric target.mode declared = true ∧
        (bound target bindings declared).index = 0 ∧
        (bound target bindings declared).location = some location ∧
        span = ⟨location, declared.ty.attributeSlots⟩ := by
  simp only [claimed?, Option.bind_eq_some_iff, Option.ite_none_right_eq_some, Bool.and_eq_true,
    decide_eq_true_eq, Variable.span?, Option.map_eq_some_iff, (moved_bound _).same.ty]
  constructor
  · rintro ⟨declared, found, ⟨generic, own⟩, location, located, rfl⟩
    exact ⟨declared, location, found, generic, own, located, rfl⟩
  · rintro ⟨declared, location, found, generic, own, located, rfl⟩
    exact ⟨declared, found, ⟨generic, own⟩, location, located, rfl⟩

/-- An allocation without a failure looks at all globals and then places those that wait. -/
theorem allocate_phases {result : Shader} (nodup : start.globals.Nodup)
    (runs : allocate target limit bindings start = .ok (result, none)) :
    ∃ allocation used, Progress target limit bindings start start.globals allocation ∧
      SlotSet.Tallies limit used
        ({span | ∃ id ∈ start.globals, claimed? target bindings start id = some span} ∪
          {span | Reserves target start ∧ span = ⟨0, 1⟩}) ∧
      placeAll target allocation.shader used (largestFirst (·.2) allocation.pending)
        = (result, none) := by
  rw [allocate] at runs
  obtain ⟨⟨allocation, failure⟩, claims, following⟩ := Checked.bind_eq_ok.mp runs
  dsimp only at following
  have no_failure : failure = none := by
    split at following
    · simp at following
      exact following.2
    · next goes_on =>
        simp at goes_on
        exact goes_on.1
  subst no_failure
  have progress := claimAll_progress (.initial start) nodup claims
  rw [List.nil_append] at progress
  have revised : Shader.Revised Variable.SameButPlace start allocation.shader :=
    (claimAll_moved claims).imp fun _ _ => Variable.Moved.same
  obtain ⟨reserved, decides, placing⟩ : ∃ reserved : Bool,
      (reserved = true ↔ Reserves target start) ∧
      placeAll target allocation.shader
        (if reserved then allocation.used ||| 1 else allocation.used)
        (largestFirst (·.2) allocation.pending) = (result, none) := by
    split at following
    · next finished =>
        -- nothing waits, so that it does not matter what is reserved
        have nothing_waits : allocation.pending = [] := by simpa using finished
        obtain rfl : allocation.shader = result := by simpa using following
        classical
        exact ⟨decide (Reserves target start), decide_eq_true_iff, by rw [nothing_waits]; rfl⟩
    · split at following
      · next vertex =>
          obtain ⟨reserved, asks, placing⟩ := Checked.bind_eq_ok.mp following
          refine ⟨reserved, ?_, by simpa using placing⟩
          rw [Shader.mentions_eq_ok asks, Reserves, Shader.dereferences_revised
            (fun _ _ => Variable.SameButPlace.name) revised]
          simp [vertex]
      · next fragment =>
          exact ⟨false, by simp [Reserves, fragment], by simpa using following⟩
  refine ⟨allocation, _, progress, ?_, placing⟩
  have spared := progress.tallies.spare reserved
  simp only [decides] at spared
  exact spared

/-- Of two variables that wait the one that precedes the other is placed first. -/
theorem pair_sublist_order_iff {id other : VariableId} {declared another : Variable}
    (nodup : start.globals.Nodup) (other_slotted : Slotted target start other another)
    (other_unlocated : (bound target bindings another).location = none)
    (slotted : Slotted target start id declared)
    (unlocated : (bound target bindings declared).location = none) (differ : other ≠ id) :
    [(other, another.ty.attributeSlots), (id, declared.ty.attributeSlots)].Sublist
        (largestFirst (·.2) (waiting target bindings start start.globals)) ↔
      Precedes target bindings start other another id declared := by
  have once : ((waiting target bindings start start.globals).map (·.1)).Nodup :=
    nodup.sublist (waiting_sublist start.globals)
  have other_listed := other_slotted.mem_waiting other_unlocated
  have listed := slotted.mem_waiting unlocated
  rw [pair_sublist_largestFirst_iff once.of_map other_listed listed
      fun same => differ (congrArg Prod.fst same),
    pair_sublist_waiting_iff nodup other_listed listed differ]
  simp [Precedes, other_unlocated]

theorem not_precedes_self {id : VariableId} {declared : Variable} (nodup : start.globals.Nodup)
    (unlocated : (bound target bindings declared).location = none) :
    ¬ Precedes target bindings start id declared id declared := by
  simp only [Precedes, unlocated, Option.isSome_none, Bool.false_eq_true, if_false, Nat.lt_irrefl,
    true_and, false_or]
  exact List.nodup_iff_sublist.mp nodup id

/-- Before a variable that waits come the claimed spans, what is reserved, and the spans found for
those that wait before it. -/
theorem spansBefore_eq {place found : VariableId → Nat} {id : VariableId} {declared : Variable}
    (nodup : start.globals.Nodup)
    (located : ∀ {other another location}, Slotted target start other another →
      (bound target bindings another).location = some location → place other = location)
    (waits : ∀ {other another}, Slotted target start other another →
      (bound target bindings another).location = none → place other = found other)
    (slotted : Slotted target start id declared)
    (unlocated : (bound target bindings declared).location = none) :
    spansBefore target bindings start place id declared =
      {span | ∃ other ∈ start.globals, claimed? target bindings start other = some span} ∪
          {span | Reserves target start ∧ span = ⟨0, 1⟩} ∪
        {span | ∃ other, [other, (id, declared.ty.attributeSlots)].Sublist
            (largestFirst (·.2) (waiting target bindings start start.globals)) ∧
          span = ⟨found other.1, other.2⟩} := by
  ext span
  simp only [spansBefore, Set.mem_union, Set.mem_ofPred_eq]
  constructor
  · rintro (reserved | ⟨other, another, slotted_other, precedes, rfl⟩)
    · exact .inl (.inr reserved)
    · cases has : (bound target bindings another).location with
      | some location =>
          have own : (bound target bindings another).index = 0 := by
            simpa [Precedes, has] using precedes
          refine .inl (.inl ⟨other, slotted_other.global,
            claimed?_eq_some_iff.mpr ⟨another, location, slotted_other.found,
              slotted_other.generic, own, has, ?_⟩⟩)
          rw [located slotted_other has]
      | none =>
          have differ : other ≠ id := by
            rintro rfl
            obtain rfl := slotted.unique slotted_other.found
            exact not_precedes_self nodup unlocated precedes
          refine .inr ⟨(other, another.ty.attributeSlots), ?_, by rw [waits slotted_other has]⟩
          exact (pair_sublist_order_iff nodup slotted_other has slotted unlocated differ).mpr
            precedes
  · rintro ((⟨other, global, claims⟩ | reserved) | ⟨pair, sublist, rfl⟩)
    · obtain ⟨another, location, was, generic, own, has, rfl⟩ := claimed?_eq_some_iff.mp claims
      have slotted_other : Slotted target start other another := ⟨global, was, generic⟩
      refine .inr ⟨other, another, slotted_other, by simp [Precedes, has, own], ?_⟩
      rw [located slotted_other has]
    · exact .inl reserved
    · have listed_other : pair ∈ waiting target bindings start start.globals :=
        (largestFirst_perm _ _).mem_iff.mp (sublist.subset (by simp))
      obtain ⟨another, slotted_other, has, same⟩ := exists_slotted_of_mem_waiting listed_other
      rw [same] at sublist
      have differ : pair.1 ≠ id := by
        intro same_id
        rw [same_id] at slotted_other sublist
        obtain rfl := slotted.unique slotted_other.found
        have once : ((waiting target bindings start start.globals).map (·.1)).Nodup :=
          nodup.sublist (waiting_sublist start.globals)
        exact List.nodup_iff_sublist.mp
          ((largestFirst_perm _ _).nodup_iff.mpr once.of_map) _ sublist
      refine .inr ⟨pair.1, another, slotted_other,
        (pair_sublist_order_iff nodup slotted_other has slotted unlocated differ).mp sublist, ?_⟩
      rw [waits slotted_other has, congrArg Prod.snd same]

/-- Whatever is allocated without a failure is allotted. -/
theorem allocate_allotted {result : Shader} (nodup : start.globals.Nodup)
    (runs : allocate target limit bindings start = .ok (result, none)) :
    ∃ place, Allotted target limit bindings start result place := by
  have revised := allocate_revised runs
  obtain ⟨allocation, used, progress, tallies, placing⟩ := allocate_phases nodup runs
  rw [progress.pending] at placing
  have order := largestFirst_perm (·.2) (waiting target bindings start start.globals)
  have once : ((waiting target bindings start start.globals).map (·.1)).Nodup :=
    nodup.sublist (waiting_sublist start.globals)
  obtain ⟨found, placed, others⟩ :=
    placeAll_spec tallies ((order.map _).nodup_iff.mpr once) placing
  -- a variable that has a location keeps it, and one that waits gets what has been found for it
  let place : VariableId → Nat := fun id =>
    ((start.vars.get? id).bind fun declared =>
      (bound target bindings declared).location).getD (found id)
  have place_located : ∀ {id declared location}, Slotted target start id declared →
      (bound target bindings declared).location = some location → place id = location := by
    intro id declared location slotted has_location
    simp [place, slotted.found, has_location]
  have place_waiting : ∀ {id declared}, Slotted target start id declared →
      (bound target bindings declared).location = none → place id = found id := by
    intro id declared slotted unlocated
    simp [place, slotted.found, unlocated]
  have not_waiting : ∀ id, (∀ declared, Slotted target start id declared →
      (bound target bindings declared).location ≠ none) →
      result.vars.get? id = allocation.shader.vars.get? id := by
    intro id never
    refine others id fun listed => ?_
    obtain ⟨pair, in_order, rfl⟩ := List.mem_map.mp listed
    obtain ⟨declared, slotted, unlocated, -⟩ :=
      exists_slotted_of_mem_waiting (order.mem_iff.mp in_order)
    exact never declared slotted unlocated
  refine ⟨place, revised.same, ?_, ?_, ?_, ⟨_, progress.ledger⟩, ?_⟩
  · intro id declared location slotted has_location
    refine ⟨place_located slotted has_location, ?_⟩
    rw [not_waiting id ?_, progress.contents, if_pos slotted.global, slotted.found, Option.map_some]
    intro another other_slotted
    rw [other_slotted.unique slotted.found, has_location]
    simp
  · intro id declared slotted unlocated
    obtain ⟨-, settles⟩ := placed _ (order.mem_iff.mpr (slotted.mem_waiting unlocated))
    rw [settles, progress.contents, if_pos slotted.global, slotted.found,
      place_waiting slotted unlocated]
    rfl
  · intro id never
    rw [not_waiting id fun declared slotted => absurd slotted (never declared), progress.contents]
    split
    · next global =>
        cases was : start.vars.get? id with
        | none => rfl
        | some declared =>
            have not_generic : Varying.isGeneric target.mode declared = false := by
              by_contra generic
              exact never declared ⟨global, was, by simpa using generic⟩
            simp [bound, not_generic]
    · rfl
  · intro id declared slotted unlocated
    obtain ⟨least, -⟩ := placed _ (order.mem_iff.mpr (slotted.mem_waiting unlocated))
    rw [place_waiting slotted unlocated]
    rw [spansBefore_eq nodup place_located place_waiting slotted unlocated]
    exact least

/-- A variable has its slots to itself: it has waited for them or has claimed them. -/
def HasOwn (target : AttributeTarget) (bindings : Bindings) (declared : Variable) : Prop :=
  (bound target bindings declared).location = none ∨ (bound target bindings declared).index = 0

namespace Allotted

variable {result : Shader} {place : VariableId → Nat} {id other : VariableId}
  {declared another : Variable}

/-- Every variable that gets slots ends with a location, and keeps what it was bound to. -/
theorem found (allotted : Allotted target limit bindings start result place)
    (slotted : Slotted target start id declared) :
    ∃ allocated, result.vars.get? id = some allocated ∧ allocated.location = some (place id) ∧
      allocated.index = (bound target bindings declared).index ∧ allocated.ty = declared.ty := by
  cases has : (bound target bindings declared).location with
  | none => exact ⟨_, allotted.settled slotted has, rfl, rfl, (moved_bound declared).same.ty⟩
  | some location =>
      obtain ⟨placed, now⟩ := allotted.located slotted has
      exact ⟨_, now, by rw [has, placed], rfl, (moved_bound declared).same.ty⟩

theorem claimed (allotted : Allotted target limit bindings start result place)
    (slotted : Slotted target start id declared)
    (located : (bound target bindings declared).location ≠ none)
    (own : (bound target bindings declared).index = 0) :
    among start.globals (claimed? target bindings start) id =
      some ⟨place id, declared.ty.attributeSlots⟩ := by
  obtain ⟨location, has⟩ := Option.ne_none_iff_exists'.mp located
  rw [among, if_pos slotted.global, claimed?_eq_some_iff]
  refine ⟨declared, location, slotted.found, slotted.generic, own, has, ?_⟩
  rw [(allotted.located slotted has).1]

/-- The slots that a variable has to itself are below the limit and in the word. -/
theorem inside (allotted : Allotted target limit bindings start result place)
    (slotted : Slotted target start id declared) (own : HasOwn target bindings declared)
    {slot : Nat} (covers : Span.Covers ⟨place id, declared.ty.attributeSlots⟩ slot) :
    slot < min limit 32 := by
  by_cases unlocated : (bound target bindings declared).location = none
  · exact (allotted.lowest slotted unlocated).1.inside slot covers
  · obtain ⟨used, ledger⟩ := allotted.claims
    have entry := allotted.claimed slotted unlocated (own.resolve_left unlocated)
    have in_word := BitVec.lt_of_getLsbD (ledger.taken entry slot covers)
    obtain ⟨above, below⟩ := covers
    have ends := ledger.within entry (by simp only at above below ⊢; omega)
    simp only at below ends
    omega

/-- Of two variables that have slots to themselves and of which one waits, one comes before the
other. -/
theorem precedes (other_slotted : Slotted target start other another)
    (slotted : Slotted target start id declared) (differ : other ≠ id)
    (other_own : HasOwn target bindings another) (own : HasOwn target bindings declared)
    (waits : (bound target bindings another).location = none ∨
      (bound target bindings declared).location = none) :
    (bound target bindings declared).location = none ∧
        Precedes target bindings start other another id declared ∨
      (bound target bindings another).location = none ∧
        Precedes target bindings start id declared other another := by
  unfold Precedes
  by_cases other_waits : (bound target bindings another).location = none
  · by_cases this_waits : (bound target bindings declared).location = none
    · have listed := pair_sublist_total other_slotted.global slotted.global differ
      simp only [other_waits, this_waits, Option.isSome_none, Bool.false_eq_true,
        if_false, true_and]
      rcases Nat.lt_trichotomy declared.ty.attributeSlots another.ty.attributeSlots with
        smaller | same | larger
      · exact .inl (.inl smaller)
      · rcases listed with before | after
        · exact .inl (.inr ⟨same, before⟩)
        · exact .inr (.inr ⟨same.symm, after⟩)
      · exact .inr (.inl larger)
    · right
      simp only [Option.isSome_iff_ne_none.mpr this_waits, if_true]
      exact ⟨other_waits, own.resolve_left this_waits⟩
  · left
    simp only [Option.isSome_iff_ne_none.mpr other_waits, if_true]
    exact ⟨waits.resolve_left other_waits, other_own.resolve_left other_waits⟩

/-- Variables that have slots to themselves lie apart. -/
theorem apart (allotted : Allotted target limit bindings start result place)
    (slotted : Slotted target start id declared)
    (other_slotted : Slotted target start other another) (differ : id ≠ other)
    (own : HasOwn target bindings declared) (other_own : HasOwn target bindings another) :
    Span.Apart ⟨place id, declared.ty.attributeSlots⟩ ⟨place other, another.ty.attributeSlots⟩ := by
  by_cases waits : (bound target bindings declared).location = none ∨
      (bound target bindings another).location = none
  · -- the later of the two has been placed in a span that was vacant next to that of the other
    rcases precedes slotted other_slotted differ own other_own waits with
      ⟨unlocated, before⟩ | ⟨unlocated, before⟩
    · exact (allotted.lowest other_slotted unlocated).1.apart _
        (.inr ⟨id, declared, slotted, before, rfl⟩)
    · exact ((allotted.lowest slotted unlocated).1.apart _
        (.inr ⟨other, another, other_slotted, before, rfl⟩)).symm
  · rw [not_or] at waits
    obtain ⟨used, ledger⟩ := allotted.claims
    exact ledger.apart differ
      (allotted.claimed slotted waits.1 (own.resolve_left waits.1))
      (allotted.claimed other_slotted waits.2 (other_own.resolve_left waits.2))

end Allotted

/-- After an allocation without a failure every variable of its kind has a location, those that do
not share slots lie apart, and the variables of other modes are as they were. -/
theorem allocate_generics {result : Shader} (tidy : start.Tidy)
    (runs : allocate target limit bindings start = .ok (result, none)) :
    (∀ declared ∈ result.generics target.mode, declared.location.isSome = true) ∧
      Variable.Separate (fun ty => ty) (result.generics target.mode) ∧
      ∀ mode, mode ≠ target.mode → result.generics mode ⊆ start.generics mode := by
  have revised := allocate_revised runs
  obtain ⟨place, allotted⟩ := allocate_allotted tidy.nodup_globals runs
  have allotted_at : ∀ allocated ∈ result.generics target.mode, ∃ id before,
      Slotted target start id before ∧ result.vars.get? id = some allocated ∧
        allocated.index = (bound target bindings before).index ∧
        allocated.span? (fun ty => ty) = some ⟨place id, before.ty.attributeSlots⟩ := by
    intro allocated listed
    obtain ⟨declared_now, kind⟩ := List.mem_filter.mp listed
    obtain ⟨id, global, now⟩ := Shader.mem_declaredVariables.mp declared_now
    obtain ⟨before, slotted, -⟩ := Slotted.before revised ⟨global, now, kind⟩
    obtain ⟨final, found, located, index, type⟩ := allotted.found slotted
    obtain rfl := Option.some.inj (now.symm.trans found)
    exact ⟨id, before, slotted, now, index, by simp [Variable.span?, located, type]⟩
  refine ⟨?_, ?_, ?_⟩
  · intro declared listed
    obtain ⟨id, before, -, -, -, spans⟩ := allotted_at declared listed
    obtain ⟨location, located, -⟩ := Option.map_eq_some_iff.mp spans
    exact Option.isSome_of_eq_some located
  · intro one one_listed other other_listed differ one_own other_own span another spans spans_other
    obtain ⟨id, before, slotted, now, index, has⟩ := allotted_at one one_listed
    obtain ⟨second, earlier, other_slotted, now_second, other_index, other_has⟩ :=
      allotted_at other other_listed
    have different : id ≠ second := by
      rintro rfl
      obtain rfl := Option.some.inj (now.symm.trans now_second)
      exact differ rfl
    obtain rfl := Option.some.inj (has.symm.trans spans)
    obtain rfl := Option.some.inj (other_has.symm.trans spans_other)
    exact allotted.apart slotted other_slotted different (.inr (index ▸ one_own))
      (.inr (other_index ▸ other_own))
  · intro mode different declared listed
    obtain ⟨declared_now, kind⟩ := List.mem_filter.mp listed
    obtain ⟨id, global, now⟩ := Shader.mem_declaredVariables.mp declared_now
    obtain ⟨before, was, same⟩ := revised.origin now
    have kind_before : Varying.isGeneric mode before = true := same.isGeneric mode ▸ kind
    have other_kind : ∀ another, ¬ Slotted target start id another := by
      intro another slotted
      obtain rfl := slotted.unique was
      have generic := slotted.generic
      simp only [Varying.isGeneric, Bool.and_eq_true, decide_eq_true_eq] at generic kind_before
      exact different (kind_before.1.symm.trans generic.1)
    rw [allotted.untouched id other_kind] at now
    exact List.mem_filter.mpr
      ⟨Shader.mem_declaredVariables.mpr ⟨id, revised.globals ▸ global, now⟩, kind⟩

/-! ## Locations that are asked for -/

/-- The location that a declaration asks for: its explicit one, or else the one that is bound to its
name. -/
def asked? (bindings : Bindings) (declared : Variable) : Option Nat :=
  if declared.explicitLocation then declared.location
  else bindings.locations.get? declared.name

section Invalidated

variable {before : Shader} {id : VariableId} {declared : Variable}

theorem globals_invalidated (invalidates : before.modifyGlobals Varying.invalidate = .ok start) :
    start.globals = before.globals := by
  rw [(Shader.modifyVariables_eq_ok invalidates).1]
  rfl

/-- Invalidating locations changes each variable once. -/
theorem Slotted.origin (nodup : before.globals.Nodup)
    (invalidates : before.modifyGlobals Varying.invalidate = .ok start)
    (slotted : Slotted target start id declared) :
    ∃ was, Slotted target before id was ∧ declared = Varying.invalidate was := by
  obtain ⟨-, -, -, changed⟩ := Shader.modifyVariables_eq_ok invalidates
  have global : id ∈ before.globals := globals_invalidated invalidates ▸ slotted.global
  have found := slotted.found
  rw [changed, List.count_eq_one_of_mem nodup global] at found
  obtain ⟨was, there, rfl⟩ := Option.map_eq_some_iff.mp found
  have generic := (Variable.SameButPlace.invalidate was).isGeneric target.mode ▸ slotted.generic
  exact ⟨was, ⟨global, there, generic⟩, rfl⟩

/-- Once locations have been invalidated, a variable that gets slots has its location for good, or
has none. -/
theorem Slotted.invalidated (nodup : before.globals.Nodup)
    (invalidates : before.modifyGlobals Varying.invalidate = .ok start)
    (slotted : Slotted target start id declared) :
    if declared.explicitLocation then declared.unmatched = false else declared.location = none := by
  obtain ⟨was, slotted_before, rfl⟩ := slotted.origin nodup invalidates
  obtain ⟨interface, not_builtin⟩ : was.mode.isInterface = true ∧ was.isBuiltin = false := by
    have generic := slotted_before.generic
    simp only [Varying.isGeneric, Bool.and_eq_true, decide_eq_true_eq, Bool.not_eq_true'] at generic
    exact ⟨by rw [generic.1]; cases target <;> rfl, generic.2⟩
  rw [Varying.invalidate, interface, not_builtin]
  cases was.explicitLocation <;> simp

/-- After that the location that a variable asks for is the one it has once the bindings have been
looked at. -/
theorem Slotted.bound_location (nodup : before.globals.Nodup)
    (invalidates : before.modifyGlobals Varying.invalidate = .ok start)
    (slotted : Slotted target start id declared) :
    (bound target bindings declared).location = asked? bindings declared := by
  have fixed := slotted.invalidated nodup invalidates
  unfold bound asked? bind
  cases explicit : declared.explicitLocation with
  | true => simp
  | false =>
      simp only [slotted.generic, Bool.not_false, Bool.and_self, if_true, Bool.false_eq_true,
        if_false]
      cases bindings.locations.get? declared.name with
      | none => simpa [explicit] using fixed
      | some location => rfl

/-- A variable that gets slots is no longer unmatched once it has a location. -/
theorem Slotted.bound_unmatched (nodup : before.globals.Nodup)
    (invalidates : before.modifyGlobals Varying.invalidate = .ok start)
    (slotted : Slotted target start id declared)
    (asks : (asked? bindings declared).isSome = true) :
    (bound target bindings declared).unmatched = false := by
  have fixed := slotted.invalidated nodup invalidates
  unfold asked? at asks
  unfold bound bind
  cases explicit : declared.explicitLocation with
  | true => simpa [explicit] using fixed
  | false =>
      rw [explicit, if_neg Bool.false_ne_true] at asks
      obtain ⟨location, asked⟩ := Option.isSome_iff_exists.mp asks
      simp [slotted.generic, asked]

end Invalidated

end Attribute
end StageLink
