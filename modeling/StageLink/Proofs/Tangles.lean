import StageLink.Proofs.Checking
import Mathlib.Data.Fintype.EquivFin
import Mathlib.Data.Fintype.Pigeonhole

/-!
# Tangled calls

The defined signatures of the declared functions and the calls between them are a graph.  What
pruning leaves of a finite graph are its cycles and the vertices between them, in whatever order the
vertices of a round are visited.  So the check for recursion is passed exactly where there is no
cycle, and names the functions with a signature on a cycle or between two of them where there is
one.
-/

namespace StageLink

/-! ## Cycles of a graph -/

section Cycles

open Relation

variable {Vertex : Type} {edge : Vertex → Vertex → Prop} {vertex : Vertex}

/-- A path leads from a vertex to a cycle. -/
def ReachesCycle (edge : Vertex → Vertex → Prop) (vertex : Vertex) : Prop :=
  ∃ turn, TransGen edge turn turn ∧ ReflTransGen edge vertex turn

/-- A vertex is on a cycle, or a path leads from one to it and another path from it to one. -/
def Tangled (edge : Vertex → Vertex → Prop) (vertex : Vertex) : Prop :=
  (∃ turn, TransGen edge turn turn ∧ ReflTransGen edge turn vertex) ∧ ReachesCycle edge vertex

theorem Tangled.of_cycle (cycle : TransGen edge vertex vertex) : Tangled edge vertex :=
  ⟨⟨vertex, cycle, .refl⟩, vertex, cycle, .refl⟩

/-- Turning all edges around changes nothing. -/
theorem tangled_swap : Tangled (Function.swap edge) vertex ↔ Tangled edge vertex := by
  simp only [Tangled, ReachesCycle, transGen_swap, reflTransGen_swap]
  exact and_comm

theorem tangled_iff :
    Tangled edge vertex ↔ ReachesCycle (Function.swap edge) vertex ∧ ReachesCycle edge vertex := by
  simp only [Tangled, ReachesCycle, transGen_swap, reflTransGen_swap]

theorem Tangled.exists_next (tangled : Tangled edge vertex) :
    ∃ next, edge vertex next ∧ Tangled edge next := by
  obtain ⟨⟨first, first_cycle, leads⟩, last, last_cycle, path⟩ := tangled
  rcases path.cases_head with rfl | ⟨next, step, rest⟩
  · obtain ⟨next, step, rest⟩ := TransGen.head'_iff.mp last_cycle
    exact ⟨next, step, ⟨first, first_cycle, leads.tail step⟩, _, last_cycle, rest⟩
  · exact ⟨next, step, ⟨first, first_cycle, leads.tail step⟩, last, last_cycle, rest⟩

theorem Tangled.exists_previous (tangled : Tangled edge vertex) :
    ∃ previous, edge previous vertex ∧ Tangled edge previous := by
  obtain ⟨previous, step, tangled_too⟩ := (tangled_swap.mpr tangled).exists_next
  exact ⟨previous, step, tangled_swap.mp tangled_too⟩

/-- Whoever always goes on among finitely many vertices comes to a cycle. -/
theorem reachesCycle_of_finite {vertices : Set Vertex} (finite : vertices.Finite)
    (goes_on : ∀ vertex ∈ vertices, ∃ next ∈ vertices, edge vertex next) :
    ∀ vertex ∈ vertices, ReachesCycle edge vertex := by
  intro start among
  have subtype_finite : Finite vertices := finite
  choose next next_among step using goes_on
  let walk (vertex : vertices) : vertices := ⟨next vertex vertex.2, next_among vertex vertex.2⟩
  have path : ∀ (steps : Nat) (vertex : vertices),
      ReflTransGen edge vertex.1 (walk^[steps] vertex).1 := by
    intro steps
    induction steps with
    | zero => exact fun _ => .refl
    | succ steps ih =>
        intro vertex
        rw [Function.iterate_succ_apply]
        exact .head (step vertex vertex.2) (ih (walk vertex))
  have closes : ∀ early late : Nat, early < late →
      walk^[early] ⟨start, among⟩ = walk^[late] ⟨start, among⟩ → ReachesCycle edge start := by
    intro early late before same
    obtain ⟨between, rfl⟩ := Nat.exists_eq_add_of_lt before
    rw [Nat.add_assoc, Nat.add_comm, Function.iterate_add_apply] at same
    have turn := TransGen.head' (step _ (walk^[early] ⟨start, among⟩).2)
      (path between (walk (walk^[early] ⟨start, among⟩)))
    rw [← Function.iterate_succ_apply, ← same] at turn
    exact ⟨_, turn, path early ⟨start, among⟩⟩
  -- the walk comes to some vertex twice
  obtain ⟨one, other, differ, same⟩ :=
    Finite.exists_ne_map_eq_of_infinite fun steps : Nat => walk^[steps] ⟨start, among⟩
  rcases Nat.lt_or_gt_of_ne differ with before | after
  · exact closes one other before same
  · exact closes other one after same.symm

/-- Where every one of finitely many vertices has a next and a previous one among them, all are
tangled. -/
theorem tangled_of_finite {vertices : Set Vertex} (finite : vertices.Finite)
    (goes_on : ∀ vertex ∈ vertices, ∃ next ∈ vertices, edge vertex next)
    (goes_back : ∀ vertex ∈ vertices, ∃ previous ∈ vertices, edge previous vertex) :
    ∀ vertex ∈ vertices, Tangled edge vertex := fun vertex among =>
  tangled_iff.mpr ⟨reachesCycle_of_finite finite goes_back vertex among,
    reachesCycle_of_finite finite goes_on vertex among⟩

end Cycles

namespace Recursion

open Shader Relation

variable {shader : Shader} {edges : List (Callee × Callee)} {alive : List Callee}

/-! ## Pruning -/

/-- A call between two of some signatures. -/
def Linked (edges : List (Callee × Callee)) (among : List Callee) (caller callee : Callee) : Prop :=
  caller ∈ among ∧ callee ∈ among ∧ (caller, callee) ∈ edges

theorem isEntangled_iff {signature : Callee} : isEntangled edges alive signature = true ↔
    (∃ callee ∈ alive, (signature, callee) ∈ edges) ∧
      ∃ caller ∈ alive, (caller, signature) ∈ edges := by
  simp [isEntangled, and_comm]

/-- As long as the tangled signatures are there, all of them are entangled. -/
theorem isEntangled_of_tangled {among : List Callee}
    (there : ∀ one, Tangled (Linked edges among) one → one ∈ alive) {one : Callee}
    (tangled : Tangled (Linked edges among) one) : isEntangled edges alive one = true := by
  obtain ⟨next, ⟨-, -, call⟩, next_tangled⟩ := tangled.exists_next
  obtain ⟨previous, ⟨-, -, called⟩, previous_tangled⟩ := tangled.exists_previous
  exact isEntangled_iff.mpr ⟨⟨next, there next next_tangled, call⟩,
    previous, there previous previous_tangled, called⟩

/-- Where all signatures are entangled, they are tangled. -/
theorem tangled_of_isEntangled {among : List Callee} (subset : ∀ one ∈ alive, one ∈ among)
    (all : ∀ one ∈ alive, isEntangled edges alive one = true) :
    ∀ one ∈ alive, Tangled (Linked edges among) one := by
  refine tangled_of_finite (List.finite_toSet alive) ?_ ?_
  · intro one there
    obtain ⟨⟨callee, callee_there, call⟩, -⟩ := isEntangled_iff.mp (all one there)
    exact ⟨callee, callee_there, subset one there, subset callee callee_there, call⟩
  · intro one there
    obtain ⟨-, caller, caller_there, called⟩ := isEntangled_iff.mp (all one there)
    exact ⟨caller, caller_there, subset caller caller_there, subset one there, called⟩

theorem tangled_mem {among : List Callee} {one : Callee}
    (tangled : Tangled (Linked edges among) one) : one ∈ among := by
  obtain ⟨next, ⟨there, -⟩, -⟩ := tangled.exists_next
  exact there

/-- Pruning stops where all signatures are entangled. -/
theorem isEntangled_prune (alive : List Callee) : (∀ one ∈ prune edges alive, one ∈ alive) ∧
    ∀ one ∈ prune edges alive, isEntangled edges (prune edges alive) one = true := by
  induction alive using prune.induct edges with
  | case1 alive shrinks ih =>
      rw [prune, dif_pos shrinks]
      exact ⟨fun one left => (List.mem_filter.mp (ih.1 one left)).1, ih.2⟩
  | case2 alive finished =>
      rw [prune, dif_neg finished]
      have all_stay : (entangled edges alive).length = alive.length :=
        Nat.le_antisymm (List.length_filter_le _ _) (Nat.le_of_not_lt finished)
      exact ⟨fun _ left => left, List.length_filter_eq_length_iff.mp all_stay⟩

/-- Pruning leaves the tangled signatures. -/
theorem mem_prune_iff {one : Callee} :
    one ∈ prune edges alive ↔ Tangled (Linked edges alive) one := by
  constructor
  · intro left
    obtain ⟨subset, all⟩ := @isEntangled_prune edges alive
    exact tangled_of_isEntangled subset all one left
  · refine mem_prune (fun one tangled => ?_) (fun one tangled => ?_) alive
      (fun _ => tangled_mem) one
    · obtain ⟨next, ⟨-, -, call⟩, next_tangled⟩ := tangled.exists_next
      exact ⟨next, next_tangled, call⟩
    · obtain ⟨previous, ⟨-, -, called⟩, previous_tangled⟩ := tangled.exists_previous
      exact ⟨previous, previous_tangled, called⟩

/-! ## The order of a round -/

/-- The signatures that are not entangled, in the order in which they are visited. -/
def loose (edges : List (Callee × Callee)) (order : List Callee) : List Callee :=
  order.filter fun one => !isEntangled edges order one

/-- A round of pruning on a set: its signatures are visited in some order, and those that are not
entangled, if there are any, are then removed one by one. -/
inductive Round (edges : List (Callee × Callee)) : Finset Callee → Finset Callee → Prop
  | visit (order : List Callee) (some_loose : loose edges order ≠ []) :
      Round edges order.toFinset ((loose edges order).foldl Finset.erase order.toFinset)

theorem mem_foldl_erase {removed : List Callee} {set : Finset Callee} {one : Callee} :
    one ∈ removed.foldl Finset.erase set ↔ one ∈ set ∧ one ∉ removed := by
  induction removed generalizing set with
  | nil => simp
  | cons first removed ih =>
      rw [List.foldl_cons, ih, Finset.mem_erase, List.mem_cons, not_or]
      exact ⟨fun ⟨⟨other, there⟩, later⟩ => ⟨there, other, later⟩,
        fun ⟨there, other, later⟩ => ⟨⟨other, there⟩, later⟩⟩

theorem mem_round {order : List Callee} {one : Callee} :
    one ∈ (loose edges order).foldl Finset.erase order.toFinset ↔
      one ∈ order ∧ isEntangled edges order one = true := by
  rw [mem_foldl_erase, List.mem_toFinset, loose, List.mem_filter, not_and, Bool.not_eq_true',
    Bool.not_eq_false]
  exact and_congr_right fun there => forall_prop_of_true there

/-- A round removes a signature. -/
theorem Round.ssubset {before after : Finset Callee} (round : Round edges before after) :
    after ⊂ before := by
  obtain ⟨order, some_loose⟩ := round
  obtain ⟨one, listed⟩ := List.exists_mem_of_ne_nil _ some_loose
  obtain ⟨there, not_entangled⟩ := List.mem_filter.mp listed
  refine Finset.ssubset_iff_of_subset (fun other left => ?_) |>.mpr ⟨one, ?_, fun left => ?_⟩
  · exact List.mem_toFinset.mpr (mem_round.mp left).1
  · exact List.mem_toFinset.mpr there
  · rw [(mem_round.mp left).2] at not_entangled
    cases not_entangled

/-- There is no endless sequence of rounds. -/
theorem round_wellFounded : WellFounded (Function.swap (Round edges)) :=
  Subrelation.wf Round.ssubset (wellFounded_lt (α := Finset Callee))

theorem Round.keeps_tangled {among : List Callee} {before after : Finset Callee}
    (round : Round edges before after)
    (there : ∀ one, Tangled (Linked edges among) one → one ∈ before) :
    ∀ one, Tangled (Linked edges among) one → one ∈ after := by
  obtain ⟨order, -⟩ := round
  intro one tangled
  have in_order : ∀ other, Tangled (Linked edges among) other → other ∈ order :=
    fun other other_tangled => List.mem_toFinset.mp (there other other_tangled)
  exact mem_round.mpr ⟨in_order one tangled, isEntangled_of_tangled in_order tangled⟩

/-- Rounds in any orders end with what pruning leaves. -/
theorem rounds_eq_prune {final : Finset Callee}
    (rounds : ReflTransGen (Round edges) alive.toFinset final)
    (finished : ∀ after, ¬ Round edges final after) : final = (prune edges alive).toFinset := by
  have subset : ∀ one ∈ final, one ∈ alive := by
    have shrinks : final ⊆ alive.toFinset := by
      clear finished
      induction rounds with
      | refl => exact Finset.Subset.refl _
      | tail _ round ih => exact round.ssubset.subset.trans ih
    exact fun one left => List.mem_toFinset.mp (shrinks left)
  have keeps : ∀ one, Tangled (Linked edges alive) one → one ∈ final := by
    clear finished subset
    induction rounds with
    | refl => exact fun one tangled => List.mem_toFinset.mpr (tangled_mem tangled)
    | tail _ round ih => exact round.keeps_tangled ih
  have all : ∀ one ∈ final.toList, isEntangled edges final.toList one = true := by
    have none_loose : loose edges final.toList = [] := by
      by_contra some_loose
      have round := Round.visit final.toList some_loose
      rw [Finset.toList_toFinset] at round
      exact finished _ round
    intro one left
    simpa using List.filter_eq_nil_iff.mp none_loose one left
  refine Finset.ext fun one => ?_
  rw [List.mem_toFinset, mem_prune_iff]
  constructor
  · intro left
    exact tangled_of_isEntangled
      (fun other there => subset other (Finset.mem_toList.mp there)) all one
      (Finset.mem_toList.mpr left)
  · exact keeps one

end Recursion

/-! ## The graph of calls -/

namespace Shader

variable {shader : Shader}

def Implements (shader : Shader) (callee : Callee) : Prop :=
  callee.function ∈ shader.declaredFunctions ∧
    ∃ signature, shader.At callee signature ∧ signature.isDefined = true

/-- In the body of a defined signature of a declared function, another one is called. -/
def CallsInto (shader : Shader) (caller callee : Callee) : Prop :=
  shader.Implements caller ∧ shader.Implements callee ∧
    ∃ signature, shader.At caller signature ∧ callee ∈ callees signature.body.ownNodes

open Classical in
/-- The names of the declared functions with a tangled signature, in the order of the declarations
and without repetitions. -/
noncomputable def tangledNames (shader : Shader) : List String :=
  ((shader.declaredFunctions.filter fun id => ∃ position,
    Tangled shader.CallsInto ⟨id, position⟩).filterMap
    fun id => (shader.functions.get? id).map (·.name)).eraseDups

end Shader

namespace Recursion

open Shader Relation

variable {shader : Shader} {signatures : List Callee} {edges : List (Callee × Callee)}

theorem of_mem_calls {callers : List Callee} : ∀ {edges : List (Callee × Callee)},
    calls shader callers = .ok edges → ∀ {caller callee}, (caller, callee) ∈ edges →
      ∃ signature, shader.At caller signature ∧ callee ∈ callees signature.body.ownNodes := by
  induction callers with
  | nil =>
      intro edges runs caller callee listed
      obtain rfl := Checked.pure_eq_ok.mp runs
      cases listed
  | cons first callers ih =>
      intro edges runs caller callee listed
      obtain ⟨signature, fetched, following⟩ := Checked.bind_eq_ok.mp runs
      obtain ⟨later, runs_later, finish⟩ := Checked.bind_eq_ok.mp following
      obtain rfl := Checked.pure_eq_ok.mp finish
      rcases List.mem_append.mp listed with here | there
      · obtain ⟨other, called, same⟩ := List.mem_map.mp here
        obtain ⟨rfl, rfl⟩ := Prod.mk.inj same
        exact ⟨signature, fetchSignature_eq_ok.mp fetched, called⟩
      · exact ih runs_later there

/-- The graph that is pruned is the graph of calls. -/
theorem linked_iff (lists : definedSignatures shader shader.declaredFunctions = .ok signatures)
    (runs : calls shader signatures = .ok edges) {caller callee : Callee} :
    Linked edges signatures caller callee ↔ shader.CallsInto caller callee := by
  rw [Linked, mem_definedSignatures lists, mem_definedSignatures lists]
  refine and_congr_right fun implements => and_congr_right fun _ => ⟨of_mem_calls runs, ?_⟩
  rintro ⟨signature, there, called⟩
  exact mem_calls runs ((mem_definedSignatures lists).mpr implements) there called

/-! ## Names -/

theorem distinct_eq (names : List String) : ∀ seen : List String,
    distinct seen names = (names.filter fun name => !seen.contains name).eraseDups := by
  induction names with
  | nil => exact fun _ => List.eraseDups_nil.symm
  | cons name names ih =>
      intro seen
      rw [distinct]
      split
      · next known => rw [ih, List.filter_cons_of_neg (by simpa using known)]
      · next unknown =>
          rw [ih, List.filter_cons_of_pos (by simpa using unknown), List.eraseDups_cons,
            List.filter_filter]
          refine congrArg (fun left : List String => name :: left.eraseDups)
            (List.filter_congr fun other _ => ?_)
          rw [List.contains_cons, Bool.not_or]

/-- A name counts once, however often it is repeated. -/
theorem distinct_repeated {name : String} {copies : List String} (rest : List String)
    (some_copy : copies ≠ []) (same : ∀ copy ∈ copies, copy = name) : ∀ seen : List String,
    distinct seen (copies ++ rest) = distinct seen (name :: rest) := by
  induction copies with
  | nil => exact absurd rfl some_copy
  | cons copy copies ih =>
      intro seen
      obtain rfl := same copy (List.mem_cons_self ..)
      by_cases more : copies = []
      · rw [more, List.singleton_append]
      · have once := ih more fun other listed => same other (List.mem_cons_of_mem _ listed)
        rw [List.cons_append, distinct, distinct]
        split
        · next known => rw [once, distinct, if_pos known]
        · rw [once, distinct, if_pos (by simp)]

/-- Where every function names itself any number of times, the distinct names are those of the
functions that do so at all. -/
theorem distinct_flatMap {ids : List FunctionId} {named : FunctionId → List String}
    {name? : FunctionId → Option String}
    (own : ∀ id ∈ ids, ∀ name ∈ named id, name? id = some name) : ∀ seen : List String,
    distinct seen (ids.flatMap named) =
      distinct seen ((ids.filter fun id => !(named id).isEmpty).filterMap name?) := by
  induction ids with
  | nil => exact fun _ => rfl
  | cons id ids ih =>
      intro seen
      have later := ih fun other listed => own other (List.mem_cons_of_mem _ listed)
      rw [List.flatMap_cons]
      cases first : named id with
      | nil => rw [List.filter_cons_of_neg (by simp [first]), List.nil_append, later]
      | cons name names =>
          have here : name? id = some name := own id (List.mem_cons_self ..) name (by simp [first])
          have same : ∀ copy ∈ name :: names, copy = name := by
            intro copy listed
            have copied := own id (List.mem_cons_self ..) copy (first ▸ listed)
            exact Option.some.inj (copied.symm.trans here)
          rw [distinct_repeated _ (List.cons_ne_nil _ _) same,
            List.filter_cons_of_pos (by simp [first]),
            List.filterMap_cons_some here, distinct, distinct]
          split
          · exact later seen
          · exact congrArg _ (later (name :: seen))

def definedOf (shader : Shader) (id : FunctionId) : List Callee :=
  ((shader.signaturesOf id).zipIdx.filter (·.1.isDefined)).map fun pair => Callee.mk id pair.2

theorem definedSignatures_eq {ids : List FunctionId} : ∀ {signatures : List Callee},
    definedSignatures shader ids = .ok signatures →
      signatures = ids.flatMap (definedOf shader) := by
  induction ids with
  | nil =>
      intro signatures runs
      exact (Checked.pure_eq_ok.mp runs).symm
  | cons id ids ih =>
      intro signatures runs
      obtain ⟨function, fetched, following⟩ := Checked.bind_eq_ok.mp runs
      obtain ⟨later, runs_later, finish⟩ := Checked.bind_eq_ok.mp following
      obtain rfl := Checked.pure_eq_ok.mp finish
      rw [List.flatMap_cons, ← ih runs_later, definedOf,
        signaturesOf_eq (fetchFunction_eq_ok.mp fetched)]

theorem mem_definedOf {id : FunctionId} {one : Callee} : one ∈ definedOf shader id ↔
    one.function = id ∧ ∃ signature, shader.At one signature ∧ signature.isDefined = true := by
  obtain ⟨function, position⟩ := one
  simp only [definedOf, List.mem_map, List.mem_filter, Prod.exists, List.mem_zipIdx_iff_getElem?,
    Callee.mk.injEq]
  constructor
  · rintro ⟨signature, place, ⟨there, defined⟩, rfl, rfl⟩
    exact ⟨rfl, signature, there, defined⟩
  · rintro ⟨rfl, signature, there, defined⟩
    exact ⟨signature, position, ⟨there, defined⟩, rfl, rfl⟩

def owner? (shader : Shader) (signature : Callee) : Option String :=
  (shader.functions.get? signature.function).map (·.name)

def namesLeft (shader : Shader) (alive : List Callee) (id : FunctionId) : List String :=
  ((definedOf shader id).filter alive.contains).filterMap (owner? shader)

theorem mem_namesLeft {alive : List Callee} {id : FunctionId} {name : String} :
    name ∈ namesLeft shader alive id ↔ (shader.functions.get? id).map (·.name) = some name ∧
      ∃ one ∈ alive, one ∈ definedOf shader id := by
  simp only [namesLeft, List.mem_filterMap, List.mem_filter, List.contains_iff_mem]
  constructor
  · rintro ⟨one, ⟨defined, left⟩, named⟩
    obtain ⟨rfl, -⟩ := mem_definedOf.mp defined
    exact ⟨named, one, left, defined⟩
  · rintro ⟨named, one, left, defined⟩
    obtain ⟨rfl, -⟩ := mem_definedOf.mp defined
    exact ⟨one, ⟨defined, left⟩, named⟩

theorem distinct_names_eq (inside : ∀ id ∈ shader.declaredFunctions, id < shader.functions.size)
    (lists : definedSignatures shader shader.declaredFunctions = .ok signatures)
    {alive : List Callee} (left : ∀ one, one ∈ alive ↔ Tangled shader.CallsInto one) :
    distinct [] ((signatures.filter alive.contains).filterMap (owner? shader)) =
      shader.tangledNames := by
  have by_function : (signatures.filter alive.contains).filterMap (owner? shader) =
      shader.declaredFunctions.flatMap (namesLeft shader alive) := by
    rw [definedSignatures_eq lists, List.filter_flatMap, List.filterMap_flatMap]
    rfl
  rw [by_function, distinct_flatMap fun id _ name listed =>
    (mem_namesLeft.mp listed).1, distinct_eq,
    List.filter_eq_self.mpr (by simp), tangledNames]
  refine congrArg (fun ids : List FunctionId => (ids.filterMap _).eraseDups)
    (List.filter_congr fun id is_declared => ?_)
  obtain ⟨function, found⟩ := Arena.exists_get? (inside id is_declared)
  rw [Bool.eq_iff_iff, Bool.not_eq_true', @decide_eq_true_iff _ (Classical.propDecidable _)]
  constructor
  · intro some_name
    obtain ⟨name, listed⟩ := List.isEmpty_eq_false_iff_exists_mem.mp some_name
    obtain ⟨-, one, there, defined⟩ := mem_namesLeft.mp listed
    obtain ⟨rfl, -⟩ := mem_definedOf.mp defined
    exact ⟨one.signature, (left one).mp there⟩
  · rintro ⟨position, tangled⟩
    obtain ⟨next, ⟨⟨-, implemented⟩, -⟩, -⟩ := tangled.exists_next
    refine List.isEmpty_eq_false_iff_exists_mem.mpr ⟨function.name, mem_namesLeft.mpr ⟨?_, ?_⟩⟩
    · rw [found]
      rfl
    · exact ⟨⟨id, position⟩, (left _).mpr tangled, mem_definedOf.mpr ⟨rfl, implemented⟩⟩

/-! ## The check -/

theorem grants_owners {listed : List Callee}
    (inside : ∀ one ∈ listed, one.function < shader.functions.size) :
    (listed.mapM fun signature => (do
      return (← shader.fetchFunction signature.function).name : Judged String)).Grants
        (listed.filterMap (owner? shader)) := by
  refine Judged.grants_mapM.mpr ?_
  induction listed with
  | nil => exact .nil
  | cons one listed ih =>
      obtain ⟨function, found⟩ := Arena.exists_get? (inside one (List.mem_cons_self ..))
      have named : owner? shader one = some function.name := by
        rw [owner?, found]
        rfl
      rw [List.filterMap_cons_some named]
      refine .cons ?_ (ih fun other there => inside other (List.mem_cons_of_mem _ there))
      exact Judged.grants_bind.mpr ⟨function,
        Judged.grants_monadLift.mpr (fetchFunction_eq_ok.mpr found), Judged.grants_pure.mpr rfl⟩

/-- The check for recursion rejects the functions with tangled signatures, if there are any. -/
theorem check_eq (inside : ∀ id ∈ shader.declaredFunctions, id < shader.functions.size)
    (lists : definedSignatures shader shader.declaredFunctions = .ok signatures)
    (runs : calls shader signatures = .ok edges) :
    check shader = Judged.rejectAll (shader.tangledNames.map .staticRecursion) := by
  have same_graph : Linked edges signatures = shader.CallsInto :=
    funext fun _ => funext fun _ => propext (linked_iff lists runs)
  have left_inside : ∀ one ∈ signatures.filter (prune edges signatures).contains,
      one.function < shader.functions.size := fun one listed =>
    inside _ ((mem_definedSignatures lists).mp (List.mem_filter.mp listed).1).1
  rw [check, Judged.bind_of_grants (Judged.grants_monadLift.mpr lists),
    Judged.bind_of_grants (Judged.grants_monadLift.mpr runs)]
  refine (Judged.bind_of_grants (grants_owners left_inside)).trans ?_
  rw [distinct_names_eq inside lists fun one => by rw [mem_prune_iff, same_graph]]

theorem mem_tangledNames {name : String} : name ∈ shader.tangledNames ↔
    ∃ id ∈ shader.declaredFunctions, (∃ position, Tangled shader.CallsInto ⟨id, position⟩) ∧
      (shader.functions.get? id).map (·.name) = some name := by
  rw [tangledNames, List.mem_eraseDups, List.mem_filterMap]
  simp only [List.mem_filter, @decide_eq_true_iff _ (Classical.propDecidable _), and_assoc]

theorem tangledNames_eq_nil (inside : ∀ id ∈ shader.declaredFunctions, id < shader.functions.size) :
    shader.tangledNames = [] ↔ ∀ one, ¬ TransGen shader.CallsInto one one := by
  rw [List.eq_nil_iff_forall_not_mem]
  constructor
  · intro no_name one cycle
    obtain ⟨next, ⟨⟨is_declared, -⟩, -⟩, -⟩ := TransGen.head'_iff.mp cycle
    obtain ⟨function, found⟩ := Arena.exists_get? (inside one.function is_declared)
    refine no_name function.name (mem_tangledNames.mpr ⟨one.function, is_declared, ?_, ?_⟩)
    · exact ⟨one.signature, .of_cycle cycle⟩
    · rw [found]
      rfl
  · intro acyclic name listed
    obtain ⟨id, -, ⟨position, -, turn, cycle, -⟩, -⟩ := mem_tangledNames.mp listed
    exact acyclic turn cycle

/-- The check for recursion is exact: it is passed where no defined signature can come to call
itself, and otherwise names the functions with a signature that is on a cycle of calls or between
two cycles, each once and in the order of the declarations.  Rounds of pruning in which the
signatures are visited in any order come to an end, and then have left what the check has. -/
theorem check_exact (inside : ∀ id ∈ shader.declaredFunctions, id < shader.functions.size) :
    ((check shader).Grants () ↔ ∀ one, ¬ TransGen shader.CallsInto one one) ∧
      ((∃ one, TransGen shader.CallsInto one one) →
        (check shader).Rejects (shader.tangledNames.map .staticRecursion)) ∧
      ∃ signatures edges, definedSignatures shader shader.declaredFunctions = .ok signatures ∧
        calls shader signatures = .ok edges ∧ WellFounded (Function.swap (Round edges)) ∧
        ∀ final, ReflTransGen (Round edges) signatures.toFinset final →
          (∀ after, ¬ Round edges final after) → final = (prune edges signatures).toFinset := by
  obtain ⟨signatures, lists⟩ := exists_definedSignatures inside
  obtain ⟨edges, runs⟩ := exists_calls fun caller listed =>
    ((mem_definedSignatures lists).mp listed).2.imp fun _ => And.left
  refine ⟨?_, fun ⟨one, cycle⟩ => ?_, signatures, edges, lists, runs, round_wellFounded,
    fun final => rounds_eq_prune⟩
  · rw [check_eq inside lists runs, Judged.grants_rejectAll, List.map_eq_nil_iff,
      tangledNames_eq_nil inside]
  · rw [check_eq inside lists runs]
    refine Judged.rejects_rejectAll fun no_error => ?_
    exact (tangledNames_eq_nil inside).mp (List.map_eq_nil_iff.mp no_error) one cycle

/-- A call of the first signature of a function. -/
def callOf (id : FunctionId) : Instruction := .call ⟨id, 0⟩ [] none

/-- One function calls itself, two call each other, and one is between them. -/
def knotted : Shader :=
  ({ stage := .vertex
     version := 150
     functions := ⟨[
       { name := "main", signatures := [.define .void [] [callOf 1]] },
       { name := "ping", signatures := [.define .void [] [callOf 2]] },
       { name := "pong", signatures := [.define .void [] [callOf 1, callOf 3]] },
       { name := "bridge", signatures := [.define .void [] [.loop [callOf 4]]] },
       { name := "again", signatures := [.define .void [] [callOf 4, callOf 5]] },
       { name := "leaf", signatures := [.define .void [] []] }]⟩
     topLevel := (List.range 6).map .function } : Shader).populateSymbols

theorem knotted_rejects : (∀ id ∈ knotted.declaredFunctions, id < knotted.functions.size) ∧
    (∃ one, TransGen knotted.CallsInto one one) ∧
    (check knotted).Rejects (knotted.tangledNames.map .staticRecursion) ∧
    knotted.tangledNames = ["ping", "pong", "bridge", "again"] := by
  have inside : ∀ id ∈ knotted.declaredFunctions, id < knotted.functions.size := by decide
  have implements : knotted.Implements ⟨4, 0⟩ := ⟨by decide, _, rfl, rfl⟩
  have cycle : TransGen knotted.CallsInto ⟨4, 0⟩ ⟨4, 0⟩ :=
    .single ⟨implements, implements, _, rfl, by decide⟩
  have rejects := (check_exact inside).2.1 ⟨_, cycle⟩
  refine ⟨inside, ⟨_, cycle⟩, rejects, ?_⟩
  have runs :
      (check knotted).Rejects (["ping", "pong", "bridge", "again"].map .staticRecursion) := by
    unfold Judged.Rejects
    decide +kernel
  have same : knotted.tangledNames.map LinkError.staticRecursion = _ :=
    Except.error.inj (Except.ok.inj (rejects.symm.trans runs))
  exact List.map_injective_iff.mpr (fun _ _ => LinkError.staticRecursion.inj) same

end Recursion
end StageLink
