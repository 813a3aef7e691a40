import Mathlib.Data.List.Perm.Lattice
import StageLink.Proofs.Agreement

/-!
# Declarations in any order

Declarations are folded one by one into the first of their name.  Each step looks at what earlier
steps have left, yet success is a matter of pairs: any two declarations of a name must be
compatible.  By design one rule looks at the order: the depth layout is compared with the one seen
first.  Initial values are no such rule, but by a slip their order matters too: a later constant is
taken over before it is tested whether both are constant.  Apart from that the order does not
matter, for success as well as for what is resolved.
-/

namespace StageLink
namespace Declaration

/-! ## One step -/

/-- The resolved declaration takes in another one. -/
structure Admits (existing declared : Variable) : Prop where
  types : declared.ty = existing.ty ∨ unifiable declared.ty existing.ty = true
  locations : declared.explicitLocation = true → existing.explicitLocation = true →
    declared.location = existing.location
  bindings : declared.explicitBinding = true → existing.explicitBinding = true →
    declared.binding = existing.binding
  offsets : declared.ty.containsAtomic = true → declared.atomicOffset = existing.atomicOffset
  depths : depthLayoutErrors existing declared = []
  values : ∀ value first, declared.constantInitializer = some value →
    existing.constantInitializer = some first → value = first
  initializers : declared.hasInitializer = true → existing.hasInitializer = true →
    declared.constantInitializer.isSome = true
  invariant : declared.invariant = existing.invariant
  centroid : declared.centroid = existing.centroid

/-- What a resolved declaration becomes up to where the depth layout is looked at. -/
def placed (existing declared : Variable) : Variable :=
  { existing with
    ty := if declared.ty.isUnsizedArray then existing.ty else declared.ty
    explicitLocation := existing.explicitLocation || declared.explicitLocation
    location := if declared.explicitLocation then declared.location else existing.location
    explicitBinding := existing.explicitBinding || declared.explicitBinding
    binding := if declared.explicitBinding then declared.binding else existing.binding }

/-- What a resolved declaration becomes when it takes in another one. -/
def joined (existing declared : Variable) : Variable :=
  { placed existing declared with
    constantInitializer := existing.constantInitializer <|> declared.constantInitializer
    hasInitializer := existing.hasInitializer || declared.hasInitializer }

theorem unifyPlacement_iff {existing declared result : Variable} :
    unifyPlacement existing declared = .ok result ↔
      (declared.ty = existing.ty ∨ unifiable declared.ty existing.ty = true) ∧
      (declared.explicitLocation = true → existing.explicitLocation = true →
        declared.location = existing.location) ∧
      (declared.explicitBinding = true → existing.explicitBinding = true →
        declared.binding = existing.binding) ∧
      (declared.ty.containsAtomic = true → declared.atomicOffset = existing.atomicOffset) ∧
      result = placed existing declared := by
  simp only [unifyPlacement, except_bind_eq_ok, unifyType_iff, unifyLocation_iff,
    unifyBinding_iff, unifyAtomicOffset_iff]
  constructor
  · rintro ⟨_, ⟨types, rfl⟩, _, ⟨locations, rfl⟩, _, ⟨bindings, rfl⟩, offsets, rfl⟩
    exact ⟨types, locations, bindings, offsets, rfl⟩
  · rintro ⟨types, locations, bindings, offsets, rfl⟩
    exact ⟨_, ⟨types, rfl⟩, _, ⟨locations, rfl⟩, _, ⟨bindings, rfl⟩, offsets, rfl⟩

theorem unifyValue_iff {existing declared result : Variable} :
    unifyValue existing declared = .ok result ↔
      (∀ value first, declared.constantInitializer = some value →
        existing.constantInitializer = some first → value = first) ∧
      (declared.hasInitializer = true → existing.hasInitializer = true →
        declared.constantInitializer.isSome = true) ∧
      declared.invariant = existing.invariant ∧ declared.centroid = existing.centroid ∧
      result =
        { existing with
          constantInitializer := existing.constantInitializer <|> declared.constantInitializer
          hasInitializer := existing.hasInitializer || declared.hasInitializer } := by
  simp only [unifyValue, except_bind_eq_ok, unifyInitializer_iff, unifyInitialization_iff,
    unifyQualifiers_iff]
  constructor
  · rintro ⟨_, ⟨values, rfl⟩, _, ⟨initializers, rfl⟩, ⟨invariant, centroid⟩, rfl⟩
    exact ⟨values, fun given before => (initializers given before).1, invariant, centroid, rfl⟩
  · rintro ⟨values, initializers, invariant, centroid, rfl⟩
    refine ⟨_, ⟨values, rfl⟩, _, ⟨fun given before => ⟨initializers given before, ?_⟩, rfl⟩,
      ⟨invariant, centroid⟩, rfl⟩
    -- what has just been taken over from the later declaration counts as constant
    obtain ⟨value, constant⟩ := Option.isSome_iff_exists.mp (initializers given before)
    simp [constant]

/-- A step goes on and reports nothing exactly if the declaration is admitted. -/
theorem merge_iff {existing declared merged : Variable} :
    merge existing declared = ([], some merged) ↔
      Admits existing declared ∧ merged = joined existing declared := by
  constructor
  · intro runs
    unfold merge at runs
    split at runs
    · simp at runs
    · next halfway placing =>
        obtain ⟨types, locations, bindings, offsets, rfl⟩ := unifyPlacement_iff.mp placing
        split at runs
        · simp at runs
        · next resolved valuing =>
            obtain ⟨values, initializers, invariant, centroid, rfl⟩ := unifyValue_iff.mp valuing
            obtain ⟨depths, equal⟩ := Prod.mk.inj runs
            exact ⟨⟨types, locations, bindings, offsets, depths, values, initializers, invariant,
              centroid⟩, (Option.some.inj equal).symm⟩
  · rintro ⟨admits, rfl⟩
    have placing := unifyPlacement_iff.mpr
      ⟨admits.types, admits.locations, admits.bindings, admits.offsets, rfl⟩
    have valuing : unifyValue (placed existing declared) declared =
      .ok (joined existing declared) :=
      unifyValue_iff.mpr
        ⟨admits.values, admits.initializers, admits.invariant, admits.centroid, rfl⟩
    simp only [merge, placing, valuing]
    exact congrArg (·, some (joined existing declared)) admits.depths

/-! ## All declarations of a name -/

/-- Some declarations are folded one by one into what has been resolved so far. -/
inductive Comes : Option Variable → List Variable → Option Variable → Prop
  | done {sofar} : Comes sofar [] sofar
  | first {declared rest final} : Comes (some declared) rest final →
      Comes none (declared :: rest) final
  | next {existing declared rest final} : Admits existing declared →
      Comes (some (joined existing declared)) rest final →
      Comes (some existing) (declared :: rest) final

theorem comes_none_cons {declared : Variable} {rest : List Variable} {final : Option Variable} :
    Comes none (declared :: rest) final ↔ Comes (some declared) rest final :=
  ⟨fun | .first comes => comes, .first⟩

theorem comes_some_cons {existing declared : Variable} {rest : List Variable}
    {final : Option Variable} :
    Comes (some existing) (declared :: rest) final ↔
      Admits existing declared ∧ Comes (some (joined existing declared)) rest final :=
  ⟨fun | .next admits comes => ⟨admits, comes⟩, fun ⟨admits, comes⟩ => .next admits comes⟩

/-- The declarations of a name. -/
def named (name : String) (declared : List Variable) : List Variable :=
  declared.filter (·.name = name)

theorem named_cons_same {declared : Variable} {rest : List Variable} :
    named declared.name (declared :: rest) = declared :: named declared.name rest := by
  simp [named]

theorem named_cons_other {name : String} {declared : Variable} {rest : List Variable}
    (differs : name ≠ declared.name) : named name (declared :: rest) = named name rest := by
  simp [named, Ne.symm differs]

/-- Entering a declaration into the table makes a difference for its own name only. -/
theorem comes_insert {table : Resolutions} {declared entry : Variable} {rest : List Variable}
    (here : ∀ final, Comes (table.get? declared.name) (declared :: named declared.name rest) final ↔
      Comes (some entry) (named declared.name rest) final) (name : String)
    (final : Option Variable) :
    Comes (table.get? name) (named name (declared :: rest)) final ↔
      Comes ((table.insert declared.name entry).get? name) (named name rest) final := by
  rw [NameTable.get?_insert]
  split
  · next equal =>
      rw [equal, named_cons_same]
      exact here final
  · next differs => rw [named_cons_other differs]

/-- What is granted gives for each name what its declarations come to. -/
theorem comes_of_grants {uniformsOnly : Bool} {items : List (Shader × VariableId)}
    {declared : List Variable} {result : Resolutions}
    (fetched : List.Forall₂ (fun item entry => item.1.fetchVariable item.2 = .ok entry) items
      declared) :
    ∀ {errors : List LinkError} {table : Resolutions},
      (resolveFrom uniformsOnly errors table items).Grants result →
      errors = [] ∧ ∀ name,
        Comes (table.get? name) (named name (declared.filter (isCompared uniformsOnly)))
          (result.get? name) := by
  induction fetched with
  | nil =>
      intro errors table grants
      obtain ⟨_, none_found, equal⟩ := Judged.grants_bind.mp grants
      obtain rfl := Judged.grants_pure.mp equal
      exact ⟨Judged.grants_rejectAll.mp none_found, fun _ => .done⟩
  | @cons item entry items rest fetch _ ih =>
      intro errors table grants
      obtain ⟨found, fetches, grants⟩ := Judged.grants_bind.mp grants
      obtain rfl : entry = found :=
        Except.ok.inj (fetch.symm.trans (Judged.grants_monadLift.mp fetches))
      split at grants
      · next compared =>
          rw [List.filter_cons_of_pos compared]
          split at grants
          · next unknown =>
              obtain ⟨none_found, each⟩ := ih grants
              refine ⟨none_found, fun name => (comes_insert (fun final => ?_) name _).mpr
                (each name)⟩
              rw [unknown, comes_none_cons]
          · next existing known =>
              split at grants
              · simp at grants
              · next reported merged merges =>
                  obtain ⟨none_found, each⟩ := ih grants
                  obtain ⟨rfl, rfl⟩ := List.append_eq_nil_iff.mp none_found
                  obtain ⟨admits, rfl⟩ := merge_iff.mp merges
                  refine ⟨rfl, fun name => (comes_insert (fun final => ?_) name _).mpr
                    (each name)⟩
                  rw [known, comes_some_cons, and_iff_right admits]
      · next excluded =>
          rw [List.filter_cons_of_neg excluded]
          exact ih grants

theorem exists_grants {uniformsOnly : Bool} {items : List (Shader × VariableId)}
    {declared : List Variable}
    (fetched : List.Forall₂ (fun item entry => item.1.fetchVariable item.2 = .ok entry) items
      declared) :
    ∀ {table : Resolutions},
      (∀ name, ∃ final,
        Comes (table.get? name) (named name (declared.filter (isCompared uniformsOnly))) final) →
      ∃ result, (resolveFrom uniformsOnly [] table items).Grants result := by
  induction fetched with
  | nil =>
      intro table _
      exact ⟨table, Judged.grants_bind.mpr
        ⟨(), Judged.grants_rejectAll.mpr rfl, Judged.grants_pure.mpr rfl⟩⟩
  | @cons item entry items rest fetch _ ih =>
      intro table each
      rw [resolveFrom]
      -- it is enough that what follows the fetching is granted a result
      refine Judged.exists_grants_bind (Judged.grants_monadLift.mpr fetch) ?_
      split
      · next compared =>
          simp only [List.filter_cons_of_pos compared] at each
          obtain ⟨final, here⟩ := each entry.name
          rw [named_cons_same] at here
          split
          · next unknown =>
              refine ih fun name => ?_
              obtain ⟨other, comes⟩ := each name
              refine ⟨other, (comes_insert (fun final => ?_) name other).mp comes⟩
              rw [unknown, comes_none_cons]
          · next existing known =>
              rw [known] at here
              obtain ⟨admits, -⟩ := comes_some_cons.mp here
              rw [merge_iff.mpr ⟨admits, rfl⟩]
              refine ih fun name => ?_
              obtain ⟨other, comes⟩ := each name
              refine ⟨other, (comes_insert (fun final => ?_) name other).mp comes⟩
              rw [known, comes_some_cons, and_iff_right admits]
      · next excluded =>
          simp only [List.filter_cons_of_neg excluded] at each
          exact ih each

/-! ## Pairs of declarations -/

/-- Two declarations of a name can stand together, whichever comes first. -/
structure Compatible (one other : Variable) : Prop where
  types : one.ty = other.ty ∨ unifiable one.ty other.ty = true
  locations : one.explicitLocation = true → other.explicitLocation = true →
    one.location = other.location
  bindings : one.explicitBinding = true → other.explicitBinding = true →
    one.binding = other.binding
  offsets : one.ty.containsAtomic = true → one.atomicOffset = other.atomicOffset
  values : ∀ value first, one.constantInitializer = some value →
    other.constantInitializer = some first → value = first
  initializers : one.hasInitializer = true → other.hasInitializer = true →
    one.constantInitializer.isSome = true ∧ other.constantInitializer.isSome = true
  invariant : one.invariant = other.invariant
  centroid : one.centroid = other.centroid

theorem unifiable_comm (one other : Ty) : unifiable one other = unifiable other one := by
  unfold unifiable
  rw [Bool.and_comm one.isArray, Bool.or_comm one.isUnsizedArray,
    decide_eq_decide.mpr (eq_comm (a := one.element?))]

/-- Types that unify have the same elements. -/
theorem containsAtomic_of_types {one other : Ty}
    (types : one = other ∨ unifiable one other = true) :
    one.containsAtomic = other.containsAtomic := by
  rcases types with rfl | may
  · rfl
  · cases one <;> cases other <;>
      simp_all [unifiable, Ty.isArray, Ty.element?, Ty.containsAtomic]

theorem Compatible.symm {one other : Variable} (compatible : Compatible one other) :
    Compatible other one where
  types := compatible.types.imp Eq.symm fun may => (unifiable_comm _ _).trans may
  locations given before := (compatible.locations before given).symm
  bindings given before := (compatible.bindings before given).symm
  offsets atomic :=
    (compatible.offsets ((containsAtomic_of_types compatible.types).trans atomic)).symm
  values value first given before := (compatible.values first value before given).symm
  initializers given before := (compatible.initializers before given).symm
  invariant := compatible.invariant.symm
  centroid := compatible.centroid.symm

/-- The declaration goes with a depth layout that has been seen first. -/
def DepthFits (layout : DepthLayout) (declared : Variable) : Prop :=
  declared.name = "gl_FragDepth" → declared.depthLayout ≠ layout →
    declared.depthLayout = .none ∧ declared.used = false

theorem depthLayoutErrors_eq_nil {existing declared : Variable} :
    depthLayoutErrors existing declared = [] ↔ DepthFits existing.depthLayout declared := by
  unfold depthLayoutErrors DepthFits
  by_cases depth : declared.name = "gl_FragDepth"
  · by_cases differs : declared.depthLayout = existing.depthLayout
    · simp [differs]
    · simp [depth, differs]
  · simp [depth]

/-- A resolved declaration has what the declarations in some group say together. -/
structure Summary (group : List Variable) (resolved : Variable) : Prop where
  some_ty : ∃ declared ∈ group, declared.ty = resolved.ty
  ty : ∀ declared ∈ group, declared.ty = resolved.ty ∨
    declared.ty.isUnsizedArray = true ∧ unifiable declared.ty resolved.ty = true
  explicitLocation : resolved.explicitLocation = true ↔
    ∃ declared ∈ group, declared.explicitLocation = true
  location : ∀ declared ∈ group, declared.explicitLocation = true →
    resolved.location = declared.location
  explicitBinding : resolved.explicitBinding = true ↔
    ∃ declared ∈ group, declared.explicitBinding = true
  binding : ∀ declared ∈ group, declared.explicitBinding = true →
    resolved.binding = declared.binding
  offset : ∀ declared ∈ group, declared.ty.containsAtomic = true →
    declared.atomicOffset = resolved.atomicOffset
  value : ∀ value, resolved.constantInitializer = some value ↔
    ∃ declared ∈ group, declared.constantInitializer = some value
  hasInitializer : resolved.hasInitializer = true ↔
    ∃ declared ∈ group, declared.hasInitializer = true
  invariant : ∀ declared ∈ group, declared.invariant = resolved.invariant
  centroid : ∀ declared ∈ group, declared.centroid = resolved.centroid

theorem summary_singleton (declared : Variable) : Summary [declared] declared := by
  constructor <;> simp

/-- Of several declarations with an initializer, all are constant or none is. -/
def EvenlyInitialized (group : List Variable) : Prop :=
  ∀ one ∈ group, ∀ other ∈ group, one.hasInitializer = true → other.hasInitializer = true →
    one.constantInitializer.isSome = other.constantInitializer.isSome

section Step

variable {group : List Variable} {existing declared : Variable}

theorem unifies_of_shared {one other shared : Ty}
    (first : one = shared ∨ one.isUnsizedArray = true ∧ unifiable one shared = true)
    (second : other = shared ∨ unifiable other shared = true) :
    other = one ∨ unifiable other one = true := by
  rcases first with rfl | ⟨unsized, may⟩
  · exact second
  · rcases second with rfl | too
    · exact .inr ((unifiable_comm _ _).trans may)
    · simp_all [unifiable]

/-- What goes with the summary of a group goes with every member. -/
theorem Summary.compatible (summary : Summary group existing)
    (even : EvenlyInitialized (declared :: group)) (admits : Admits existing declared)
    {member : Variable} (listed : member ∈ group) : Compatible declared member where
  types := unifies_of_shared (summary.ty member listed) admits.types
  locations given before :=
    (admits.locations given (summary.explicitLocation.mpr ⟨member, listed, before⟩)).trans
      (summary.location member listed before)
  bindings given before :=
    (admits.bindings given (summary.explicitBinding.mpr ⟨member, listed, before⟩)).trans
      (summary.binding member listed before)
  offsets atomic := by
    have types := unifies_of_shared (summary.ty member listed) admits.types
    rw [admits.offsets atomic]
    exact (summary.offset member listed ((containsAtomic_of_types types).symm.trans atomic)).symm
  values value first given before :=
    admits.values value first given ((summary.value first).mpr ⟨member, listed, before⟩)
  initializers given before := by
    have constant := admits.initializers given
      (summary.hasInitializer.mpr ⟨member, listed, before⟩)
    refine ⟨constant, ?_⟩
    rwa
      [← even declared (List.mem_cons_self ..) member (List.mem_cons_of_mem _ listed) given before]
  invariant := admits.invariant.trans (summary.invariant member listed).symm
  centroid := admits.centroid.trans (summary.centroid member listed).symm

theorem Summary.admits (summary : Summary group existing)
    (each : ∀ member ∈ group, Compatible declared member)
    (depth : DepthFits existing.depthLayout declared) : Admits existing declared := by
  obtain ⟨typical, typical_listed, typical_ty⟩ := summary.some_ty
  have typical_goes := each typical typical_listed
  constructor
  case types => exact typical_ty ▸ typical_goes.types
  case locations =>
    intro given before
    obtain ⟨member, listed, explicit⟩ := summary.explicitLocation.mp before
    rw [summary.location member listed explicit]
    exact (each member listed).locations given explicit
  case bindings =>
    intro given before
    obtain ⟨member, listed, explicit⟩ := summary.explicitBinding.mp before
    rw [summary.binding member listed explicit]
    exact (each member listed).bindings given explicit
  case offsets =>
    intro atomic
    rw [typical_goes.offsets atomic]
    exact summary.offset typical typical_listed
      ((containsAtomic_of_types typical_goes.types).symm.trans atomic)
  case depths => exact depthLayoutErrors_eq_nil.mpr depth
  case values =>
    intro value first given before
    obtain ⟨member, listed, constant⟩ := (summary.value first).mp before
    exact (each member listed).values value first given constant
  case initializers =>
    intro given before
    obtain ⟨member, listed, initialized⟩ := summary.hasInitializer.mp before
    exact ((each member listed).initializers given initialized).1
  case invariant => exact typical_goes.invariant.trans (summary.invariant typical typical_listed)
  case centroid => exact typical_goes.centroid.trans (summary.centroid typical typical_listed)

/-- The type after a step is the type of the declaration or of the summary, and the other one
unifies with it. -/
theorem Summary.joined_ty (summary : Summary group existing) (admits : Admits existing declared)
    {member : Variable} (listed : member ∈ declared :: group) :
    member.ty = (joined existing declared).ty ∨
      member.ty.isUnsizedArray = true ∧
        unifiable member.ty (joined existing declared).ty = true := by
  have types := admits.types
  by_cases unsized : declared.ty.isUnsizedArray = true
  · have kept : (joined existing declared).ty = existing.ty := if_pos unsized
    rw [kept]
    rcases List.mem_cons.mp listed with rfl | inside
    · exact types.imp_right fun may => ⟨unsized, may⟩
    · exact summary.ty member inside
  · have taken : (joined existing declared).ty = declared.ty := if_neg unsized
    rw [taken]
    rcases List.mem_cons.mp listed with rfl | inside
    · exact .inl rfl
    · rcases types with same | may
      · exact same ▸ summary.ty member inside
      · have open_before : existing.ty.isUnsizedArray = true := by
          simp_all [unifiable]
        rcases summary.ty member inside with same | ⟨is_open, too⟩
        · rw [same]
          exact .inr ⟨open_before, (unifiable_comm _ _).trans may⟩
        · refine .inr ⟨is_open, ?_⟩
          simp_all [unifiable]

/-- What is taken from the last declaration that gives it, or else kept, is what every member that
gives it has. -/
theorem given_of_joined {Value : Type} {gives : Variable → Bool} {value : Variable → Value}
    {kept : Value} (before : ∀ {member}, member ∈ group → gives member = true → kept = value member)
    (agrees : ∀ {member}, gives declared = true → member ∈ group → gives member = true →
      value declared = value member) :
    ∀ member ∈ declared :: group, gives member = true →
      (if gives declared then value declared else kept) = value member := by
  intro member listed given
  rcases List.mem_cons.mp listed with rfl | inside
  · rw [if_pos given]
  · split
    · next given_too => exact agrees given_too inside given
    · exact before inside given

theorem Summary.joined (summary : Summary group existing) (admits : Admits existing declared) :
    Summary (declared :: group) (joined existing declared) := by
  constructor
  case some_ty =>
    by_cases unsized : declared.ty.isUnsizedArray = true
    · obtain ⟨typical, listed, same⟩ := summary.some_ty
      exact ⟨typical, List.mem_cons_of_mem _ listed, same.trans (if_pos unsized).symm⟩
    · exact ⟨declared, List.mem_cons_self .., (if_neg unsized).symm⟩
  case ty => exact fun member listed => summary.joined_ty admits listed
  case explicitLocation =>
    simp [Declaration.joined, placed, summary.explicitLocation, or_comm]
  case location =>
    exact given_of_joined (fun listed explicit => summary.location _ listed explicit)
      fun given listed explicit => (admits.locations given
        (summary.explicitLocation.mpr ⟨_, listed, explicit⟩)).trans
        (summary.location _ listed explicit)
  case explicitBinding =>
    simp [Declaration.joined, placed, summary.explicitBinding, or_comm]
  case binding =>
    exact given_of_joined (fun listed explicit => summary.binding _ listed explicit)
      fun given listed explicit => (admits.bindings given
        (summary.explicitBinding.mpr ⟨_, listed, explicit⟩)).trans
        (summary.binding _ listed explicit)
  case offset => exact List.forall_mem_cons.mpr ⟨admits.offsets, summary.offset⟩
  case value =>
    intro value
    have taken : (Declaration.joined existing declared).constantInitializer =
      (existing.constantInitializer <|> declared.constantInitializer) := rfl
    rw [taken, List.exists_mem_cons_iff, ← summary.value]
    cases before : existing.constantInitializer with
    | none => simp
    | some first =>
        suffices declared.constantInitializer = some value → first = value by simpa
        exact fun given => (admits.values value first given before).symm
  case hasInitializer =>
    simp [Declaration.joined, summary.hasInitializer, or_comm]
  case invariant => exact List.forall_mem_cons.mpr ⟨admits.invariant, summary.invariant⟩
  case centroid => exact List.forall_mem_cons.mpr ⟨admits.centroid, summary.centroid⟩

end Step

theorem Summary.congr {group other : List Variable} {resolved : Variable}
    (summary : Summary group resolved) (same : ∀ declared, declared ∈ other ↔ declared ∈ group) :
    Summary other resolved := by
  constructor <;> simp only [same]
  exacts [summary.some_ty, summary.ty, summary.explicitLocation, summary.location,
    summary.explicitBinding, summary.binding, summary.offset, summary.value,
    summary.hasInitializer, summary.invariant, summary.centroid]

/-! ## Groups of declarations -/

theorem EvenlyInitialized.subset {group part : List Variable} (even : EvenlyInitialized group)
    (inside : part ⊆ group) : EvenlyInitialized part :=
  fun one listed other too => even one (inside listed) other (inside too)

/-- Declarations can be folded into the summary of a group exactly if they go with the group and
with each other, and with the depth layout seen first. -/
theorem Summary.exists_comes_iff {rest : List Variable} :
    ∀ {group : List Variable} {existing : Variable}, Summary group existing →
      EvenlyInitialized (rest ++ group) →
      ((∃ final, Comes (some existing) rest final) ↔
        rest.Pairwise Compatible ∧
          ∀ declared ∈ rest, (∀ member ∈ group, Compatible declared member) ∧
            DepthFits existing.depthLayout declared) := by
  induction rest with
  | nil =>
      intro group existing _ _
      simpa using ⟨_, Comes.done⟩
  | cons declared rest ih =>
      intro group existing summary even
      have even_here : EvenlyInitialized (declared :: group) := even.subset (by simp)
      have even_later : EvenlyInitialized (rest ++ declared :: group) :=
        even.subset (by simp [List.subset_def, or_left_comm])
      constructor
      · rintro ⟨final, comes⟩
        obtain ⟨admits, comes⟩ := comes_some_cons.mp comes
        obtain ⟨apart, each⟩ := (ih (summary.joined admits) even_later).mp ⟨final, comes⟩
        refine ⟨List.pairwise_cons.mpr ⟨fun later listed => ?_, apart⟩,
          List.forall_mem_cons.mpr ⟨⟨fun member listed => ?_, ?_⟩, fun later listed => ⟨?_, ?_⟩⟩⟩
        · exact ((each later listed).1 declared (List.mem_cons_self ..)).symm
        · exact summary.compatible even_here admits listed
        · exact depthLayoutErrors_eq_nil.mp admits.depths
        · exact fun member inside => (each later listed).1 member (List.mem_cons_of_mem _ inside)
        · exact (each later listed).2
      · rintro ⟨apart, each⟩
        obtain ⟨here, later⟩ := List.forall_mem_cons.mp each
        obtain ⟨first, apart⟩ := List.pairwise_cons.mp apart
        have admits := summary.admits here.1 here.2
        obtain ⟨final, comes⟩ := (ih (summary.joined admits) even_later).mpr
          ⟨apart, fun other listed => ⟨List.forall_mem_cons.mpr
            ⟨(first other listed).symm, (later other listed).1⟩, (later other listed).2⟩⟩
        exact ⟨final, .next admits comes⟩

/-- Folding declarations into the summary of a group gives the summary of all. -/
theorem Summary.comes {rest : List Variable} {final : Option Variable} :
    ∀ {group : List Variable} {existing : Variable}, Summary group existing →
      Comes (some existing) rest final →
      ∃ resolved, final = some resolved ∧ Summary (rest ++ group) resolved := by
  induction rest with
  | nil =>
      rintro group existing summary ⟨⟩
      exact ⟨existing, rfl, summary⟩
  | cons declared rest ih =>
      intro group existing summary comes
      obtain ⟨admits, comes⟩ := comes_some_cons.mp comes
      obtain ⟨resolved, rfl, whole⟩ := ih (summary.joined admits) comes
      exact ⟨resolved, rfl, whole.congr (by simp [or_left_comm])⟩

/-- Declarations of a name come to something exactly if each goes with each other one, and with the
depth layout of the first. -/
theorem exists_comes_iff {group : List Variable} (even : EvenlyInitialized group) :
    (∃ final, Comes none group final) ↔
      group.Pairwise Compatible ∧
        ∀ first ∈ group.head?, ∀ declared ∈ group, DepthFits first.depthLayout declared := by
  cases group with
  | nil => simpa using ⟨_, Comes.done⟩
  | cons first rest =>
      simp only [comes_none_cons]
      rw [(summary_singleton first).exists_comes_iff
        (even.subset (by simp [List.subset_def, or_comm])),
        List.pairwise_cons]
      have own : DepthFits first.depthLayout first := fun _ differs => absurd rfl differs
      constructor
      · rintro ⟨apart, each⟩
        refine ⟨⟨fun other listed =>
          ((each other listed).1 first (List.mem_singleton.mpr rfl)).symm,
          apart⟩, ?_⟩
        rintro _ ⟨⟩
        exact List.forall_mem_cons.mpr ⟨own, fun other listed => (each other listed).2⟩
      · rintro ⟨⟨with_first, apart⟩, depths⟩
        exact ⟨apart, fun other listed => ⟨List.forall_mem_singleton.mpr
          (with_first other listed).symm, depths first rfl other (List.mem_cons_of_mem _ listed)⟩⟩

/-- Nothing is resolved of no declarations, and otherwise their summary. -/
def Summarized (group : List Variable) : Option Variable → Prop
  | none => group = []
  | some resolved => Summary group resolved

theorem summarized_of_comes {group : List Variable} {final : Option Variable}
    (comes : Comes none group final) : Summarized group final := by
  cases comes with
  | done => rfl
  | @first declared rest final comes =>
      obtain ⟨resolved, rfl, summary⟩ := (summary_singleton declared).comes comes
      exact summary.congr (by simp [or_comm])

theorem Summary.ne_nil {group : List Variable} {resolved : Variable}
    (summary : Summary group resolved) : group ≠ [] := by
  obtain ⟨declared, listed, -⟩ := summary.some_ty
  exact List.ne_nil_of_mem listed

/-! ## Orders of shaders -/

/-- The globals of some shaders that take part in the comparison, in order. -/
def compared (uniformsOnly : Bool) (shaders : List Shader) : List Variable :=
  (shaders.flatMap Shader.declaredVariables).filter (isCompared uniformsOnly)

def firstDepthLayout? (uniformsOnly : Bool) (shaders : List Shader) : Option DepthLayout :=
  ((compared uniformsOnly shaders).find? (·.name = "gl_FragDepth")).map (·.depthLayout)

/-- Two resolved declarations say the same. -/
structure Concurs (one other : Variable) : Prop where
  ty : one.ty = other.ty
  explicitLocation : one.explicitLocation = other.explicitLocation
  location : one.explicitLocation = true → one.location = other.location
  explicitBinding : one.explicitBinding = other.explicitBinding
  binding : one.explicitBinding = true → one.binding = other.binding
  constantInitializer : one.constantInitializer = other.constantInitializer

/-- Two lists of shaders are judged alike, and have declarations resolved that say the same. -/
def JudgedAlike (uniformsOnly : Bool) (shaders others : List Shader) : Prop :=
  ((∃ result, (resolve uniformsOnly shaders).Grants result) ↔
    ∃ result, (resolve uniformsOnly others).Grants result) ∧
  ∀ one other, (resolve uniformsOnly shaders).Grants one →
    (resolve uniformsOnly others).Grants other →
    ∀ name, Option.Rel Concurs (one.get? name) (other.get? name)

theorem Summary.concurs {group : List Variable} {one other : Variable} (first : Summary group one)
    (second : Summary group other) : Concurs one other where
  ty := by
    obtain ⟨typical, listed, typical_ty⟩ := first.some_ty
    obtain ⟨member, member_listed, member_ty⟩ := second.some_ty
    rcases second.ty typical listed with same | ⟨unsized, may⟩
    · exact typical_ty.symm.trans same
    · rcases first.ty member member_listed with same | ⟨too, _⟩
      · exact same.symm.trans member_ty
      · -- two arrays of the same elements that both lack a length
        rw [typical_ty] at unsized may
        rw [member_ty] at too
        cases left : one.ty <;> cases right : other.ty <;>
          simp_all [unifiable, Ty.isUnsizedArray, Ty.element?]
        grind [Ty.isUnsizedArray]
  explicitLocation :=
    Bool.eq_iff_iff.mpr (first.explicitLocation.trans second.explicitLocation.symm)
  location explicit := by
    obtain ⟨member, listed, given⟩ := first.explicitLocation.mp explicit
    rw [first.location member listed given, second.location member listed given]
  explicitBinding := Bool.eq_iff_iff.mpr (first.explicitBinding.trans second.explicitBinding.symm)
  binding explicit := by
    obtain ⟨member, listed, given⟩ := first.explicitBinding.mp explicit
    rw [first.binding member listed given, second.binding member listed given]
  constantInitializer := Option.ext fun value => (first.value value).trans (second.value value).symm

theorem Summarized.concurs {group others : List Variable} {one other : Option Variable}
    (perm : group.Perm others) (first : Summarized group one) (second : Summarized others other) :
    Option.Rel Concurs one other := by
  cases one with
  | none =>
      cases other with
      | none => exact .none
      | some resolved => exact absurd (List.nil_perm.mp (first ▸ perm)) second.ne_nil
  | some resolved =>
      cases other with
      | none => exact absurd (List.perm_nil.mp (second ▸ perm)) first.ne_nil
      | some found =>
          exact .some (Summary.concurs first (Summary.congr second fun _ => perm.mem_iff))

/-- All handles of globals point to variables. -/
def AllBound (shaders : List Shader) : Prop :=
  ∀ shader ∈ shaders, ∀ id ∈ shader.globals, id < shader.vars.size

def globalsOf (shaders : List Shader) : List (Shader × VariableId) :=
  shaders.flatMap fun shader => shader.globals.map fun id => (shader, id)

theorem fetched_of_bound {shaders : List Shader} (bound : AllBound shaders) :
    List.Forall₂ (fun item entry => item.1.fetchVariable item.2 = .ok entry) (globalsOf shaders)
      (shaders.flatMap Shader.declaredVariables) := by
  have entries : shaders.flatMap Shader.declaredVariables =
      (globalsOf shaders).filterMap fun item => item.1.vars.get? item.2 := by
    simp only [globalsOf, List.filterMap_flatMap, List.filterMap_map]
    rfl
  have all_there : ∀ item ∈ globalsOf shaders, ∃ entry, item.1.vars.get? item.2 = some entry := by
    intro item listed
    obtain ⟨shader, shader_listed, inside⟩ := List.mem_flatMap.mp listed
    obtain ⟨id, global, rfl⟩ := List.mem_map.mp inside
    exact Arena.exists_get? (bound shader shader_listed id global)
  rw [entries]
  generalize globalsOf shaders = items at all_there
  induction items with
  | nil => exact .nil
  | cons item items ih =>
      obtain ⟨entry, found⟩ := all_there item (List.mem_cons_self ..)
      rw [List.filterMap_cons, found]
      exact .cons (Shader.fetchVariable_eq_ok.mpr found)
        (ih fun other listed => all_there other (List.mem_cons_of_mem _ listed))

/-- Folding goes through all handles, so none of them may point nowhere. -/
theorem bound_of_grants {uniformsOnly : Bool} {items : List (Shader × VariableId)}
    {result : Resolutions} :
    ∀ {errors : List LinkError} {table : Resolutions},
      (resolveFrom uniformsOnly errors table items).Grants result →
      ∀ item ∈ items, item.2 < item.1.vars.size := by
  induction items with
  | nil => simp
  | cons item items ih =>
      intro errors table grants
      obtain ⟨entry, fetches, grants⟩ := Judged.grants_bind.mp grants
      refine List.forall_mem_cons.mpr ⟨Arena.lt_of_get?
        (Shader.fetchVariable_eq_ok.mp (Judged.grants_monadLift.mp fetches)), ?_⟩
      split at grants
      · split at grants
        · exact ih grants
        · split at grants
          · simp at grants
          · exact ih grants
      · exact ih grants

theorem allBound_of_grants {uniformsOnly : Bool} {shaders : List Shader} {result : Resolutions}
    (grants : (resolve uniformsOnly shaders).Grants result) : AllBound shaders := by
  intro shader listed id global
  exact bound_of_grants grants (shader, id)
    (List.mem_flatMap.mpr ⟨shader, listed, List.mem_map.mpr ⟨id, global, rfl⟩⟩)

/-- What is resolved gives for each name what its declarations come to. -/
theorem comes_of_resolve {uniformsOnly : Bool} {shaders : List Shader} {result : Resolutions}
    (grants : (resolve uniformsOnly shaders).Grants result) (name : String) :
    Comes none (named name (compared uniformsOnly shaders)) (result.get? name) :=
  (comes_of_grants (fetched_of_bound (allBound_of_grants grants)) grants).2 name

/-- Only the depth output has to go with the depth layout seen first. -/
theorem depthsFit_iff {name : String} {declared : List Variable} :
    (∀ first ∈ (named name declared).head?, ∀ entry ∈ named name declared,
      DepthFits first.depthLayout entry) ↔
    (name = "gl_FragDepth" →
      ∀ layout ∈ (declared.find? (·.name = "gl_FragDepth")).map (·.depthLayout),
        ∀ entry ∈ declared, DepthFits layout entry) := by
  have mem_named : ∀ entry, entry ∈ named name declared ↔ entry ∈ declared ∧ entry.name = name := by
    simp [named]
  constructor
  · rintro each rfl layout given entry listed depth
    obtain ⟨first, found, rfl⟩ := Option.map_eq_some_iff.mp given
    exact each first (List.head?_filter.trans found) entry ((mem_named entry).mpr ⟨listed, depth⟩)
      depth
  · intro each first found entry listed depth
    obtain ⟨inside, same⟩ := (mem_named entry).mp listed
    obtain rfl := same.symm.trans depth
    have first_found : declared.find? (·.name = "gl_FragDepth") = some first :=
      List.head?_filter.symm.trans found
    exact each rfl first.depthLayout (Option.map_eq_some_iff.mpr ⟨first, first_found, rfl⟩) entry
      inside depth

/-- The declarations of some shaders can be resolved exactly if all handles are bound and, for each
name, the declarations go with each other and with the depth layout seen first. -/
theorem exists_resolve_iff {uniformsOnly : Bool} {shaders : List Shader}
    (even : ∀ name, EvenlyInitialized (named name (compared uniformsOnly shaders))) :
    (∃ result, (resolve uniformsOnly shaders).Grants result) ↔
      AllBound shaders ∧
      (∀ name, (named name (compared uniformsOnly shaders)).Pairwise Compatible) ∧
      ∀ layout ∈ firstDepthLayout? uniformsOnly shaders,
        ∀ declared ∈ compared uniformsOnly shaders, DepthFits layout declared := by
  have comes_iff := fun name =>
    (exists_comes_iff (even name)).trans (and_congr_right fun _ => depthsFit_iff)
  constructor
  · rintro ⟨result, grants⟩
    have each := fun name => (comes_iff name).mp ⟨_, comes_of_resolve grants name⟩
    exact ⟨allBound_of_grants grants, fun name => (each name).1, (each _).2 rfl⟩
  · rintro ⟨bound, apart, depths⟩
    exact exists_grants (fetched_of_bound bound) fun name =>
      (comes_iff name).mpr ⟨apart name, fun _ => depths⟩

theorem compared_perm {uniformsOnly : Bool} {shaders others : List Shader}
    (perm : shaders.Perm others) :
    (compared uniformsOnly shaders).Perm (compared uniformsOnly others) :=
  (perm.flatMap_right _).filter _

/-- Globals are resolved in any order alike, if of several initializers of a name all are constant
or none is, and the depth layout that is seen first is the same. -/
theorem resolve_in_any_order {uniformsOnly : Bool} {shaders others : List Shader}
    (perm : shaders.Perm others)
    (even : ∀ name, EvenlyInitialized (named name (compared uniformsOnly shaders)))
    (same_depth : firstDepthLayout? uniformsOnly shaders = firstDepthLayout? uniformsOnly others) :
    JudgedAlike uniformsOnly shaders others := by
  have reordered : ∀ name, (named name (compared uniformsOnly shaders)).Perm
      (named name (compared uniformsOnly others)) := fun name => (compared_perm perm).filter _
  refine ⟨?_, fun one other grants_one grants_other name => ?_⟩
  · rw [exists_resolve_iff even, exists_resolve_iff fun name =>
      (even name).subset (reordered name).symm.subset, same_depth]
    refine and_congr ?_ (and_congr ?_ ?_)
    · exact forall_congr' fun shader => imp_congr perm.mem_iff Iff.rfl
    · exact forall_congr' fun name => (reordered name).pairwise_iff Compatible.symm
    · exact forall₂_congr fun layout _ => forall_congr' fun declared =>
        imp_congr (compared_perm perm).mem_iff Iff.rfl
  · exact (summarized_of_comes (comes_of_resolve grants_one name)).concurs (reordered name)
      (summarized_of_comes (comes_of_resolve grants_other name))

/-! ## Examples -/

def ofGlobals (declared : List Variable) : Shader :=
  ({ stage := .fragment, version := 330, vars := ⟨declared⟩
     topLevel := (List.range declared.length).map .declare } : Shader).populateSymbols

/-- Weights without a length, whose binding is given. -/
def boundWeights : Shader :=
  ofGlobals [{ name := "weights", ty := .unsizedArray .float, mode := .uniform
               explicitBinding := true, binding := 2 }]

/-- Weights with a length, and a constant gain. -/
def sizedWeights : Shader :=
  ofGlobals [
    .ofType "weights" (.sizedArray .float 3) .uniform,
    (Variable.ofType "gain" .float .uniform).withInitializer (.float .one)]

/-- The same gain, and the depth output. -/
def scaledDepth : Shader :=
  ofGlobals [
    { name := "gl_FragDepth", ty := .float, mode := .shaderOut, depthLayout := .greater },
    (Variable.ofType "gain" .float .uniform).withInitializer (.float .one)]

theorem weights_in_any_order :
    [boundWeights, sizedWeights, scaledDepth].Perm [scaledDepth, boundWeights, sizedWeights] ∧
    (∀ name, EvenlyInitialized
      (named name (compared false [boundWeights, sizedWeights, scaledDepth]))) ∧
    firstDepthLayout? false [boundWeights, sizedWeights, scaledDepth] =
      firstDepthLayout? false [scaledDepth, boundWeights, sizedWeights] ∧
    JudgedAlike false [boundWeights, sizedWeights, scaledDepth]
      [scaledDepth, boundWeights, sizedWeights] := by
  have perm : [boundWeights, sizedWeights, scaledDepth].Perm
      [scaledDepth, boundWeights, sizedWeights] :=
    (List.perm_append_comm : ([boundWeights, sizedWeights] ++ [scaledDepth]).Perm _)
  have even : EvenlyInitialized (compared false [boundWeights, sizedWeights, scaledDepth]) := by
    unfold EvenlyInitialized
    decide +kernel
  have each : ∀ name, EvenlyInitialized
      (named name (compared false [boundWeights, sizedWeights, scaledDepth])) :=
    fun name => even.subset List.filter_sublist.subset
  have same_depth : firstDepthLayout? false [boundWeights, sizedWeights, scaledDepth] =
      firstDepthLayout? false [scaledDepth, boundWeights, sizedWeights] := by decide +kernel
  exact ⟨perm, each, same_depth, resolve_in_any_order perm each same_depth⟩

/-- The depth output with a layout. -/
def greaterDepth : Shader :=
  ofGlobals [{ name := "gl_FragDepth", ty := .float, mode := .shaderOut, depthLayout := .greater }]

/-- The depth output without a layout. -/
def plainDepth : Shader := ofGlobals [.ofType "gl_FragDepth" .float .shaderOut]

/-- A variable with an initial value that is computed. -/
def computedGain : Shader :=
  ofGlobals [{ name := "gain", ty := .float, hasInitializer := true }]

/-- The variable with a constant as its initial value. -/
def constantGain : Shader :=
  ofGlobals [(Variable.ofType "gain" .float .plain).withInitializer (.float .one)]

/-- Whether the declarations of some shaders can be resolved. -/
def isResolved (uniformsOnly : Bool) (shaders : List Shader) : Bool :=
  match (resolve uniformsOnly shaders).run with
  | .ok (.ok _) => true
  | _ => false

theorem isResolved_iff {uniformsOnly : Bool} {shaders : List Shader} :
    isResolved uniformsOnly shaders = true ↔
      ∃ result, (resolve uniformsOnly shaders).Grants result := by
  unfold isResolved Judged.Grants
  split
  · next result runs => simp [runs]
  · next other => simpa using other

/-- Shaders that declare each name once are not always resolved in any order alike.  By design, a
layout of the depth output must equal the one seen first.  By a slip, a computed initial value is
found out only where it comes second, because the constant of a later declaration is taken over
before the test. -/
theorem resolve_minds_order :
    ((∀ shader ∈ [greaterDepth, plainDepth], (shader.declaredVariables.map (·.name)).Nodup) ∧
      [greaterDepth, plainDepth].Perm [plainDepth, greaterDepth] ∧
      ¬ JudgedAlike false [greaterDepth, plainDepth] [plainDepth, greaterDepth]) ∧
    ((∀ shader ∈ [computedGain, constantGain], (shader.declaredVariables.map (·.name)).Nodup) ∧
      [computedGain, constantGain].Perm [constantGain, computedGain] ∧
      ¬ JudgedAlike false [computedGain, constantGain] [constantGain, computedGain]) := by
  refine ⟨⟨by decide +kernel, .swap _ _ _, fun alike => ?_⟩,
    ⟨by decide +kernel, .swap _ _ _, fun alike => ?_⟩⟩
  · have verdict := isResolved_iff.mpr (alike.1.mp (isResolved_iff.mp (by decide +kernel)))
    exact absurd verdict (by decide +kernel)
  · have verdict := isResolved_iff.mpr (alike.1.mp (isResolved_iff.mp (by decide +kernel)))
    exact absurd verdict (by decide +kernel)

end Declaration
end StageLink
