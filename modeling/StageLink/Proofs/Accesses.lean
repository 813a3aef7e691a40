import StageLink.Proofs.Deriving
import StageLink.Proofs.Lasting
import StageLink.Proofs.Sharing
import StageLink.Proofs.Slots

/-!
# Constant indices

Arrays are sized by the highest constant index that has been noted on their declarations.  Units of
a stage that share an array end up with one declaration of it, and what the other units have noted
is lost.  But where the declaration that stays notes all indices that are used on its name, and is
below all lengths that are declared for it, no constant index ever goes beyond the array: not when a
length is adopted, taken from the vertices of a primitive, counted, or cut to what all stages use.
-/

namespace StageLink

/-! ## Types that reach an index -/

namespace Ty

/-- An array of the type has an element at the index. -/
def Reaches (index : Nat) (ty : Ty) : Prop := ∀ length ∈ ty.length?, index < length

/-- An array of the type has an element at the index, or no length yet. -/
def MayReach (index : Nat) (ty : Ty) : Prop := ty.isUnsizedArray = true ∨ ty.Reaches index

instance (index : Nat) (ty : Ty) : Decidable (ty.Reaches index) :=
  inferInstanceAs (Decidable (∀ length ∈ ty.length?, index < length))

instance (index : Nat) (ty : Ty) : Decidable (ty.MayReach index) :=
  inferInstanceAs (Decidable (_ ∨ _))

variable {index : Nat} {ty : Ty}

theorem reaches_withLength {length : Nat} (inside : index < length) :
    (ty.withLength length).Reaches index := by
  cases ty <;> simp [Reaches, withLength, length?, inside]

theorem Reaches.sized (reaches : ty.Reaches index) : ty.isUnsizedArray = false := by
  cases ty with
  | array element length =>
      cases length with
      | none => exact absurd (reaches 0 rfl) (Nat.not_lt_zero _)
      | some length => rfl
  | _ => rfl

theorem MayReach.sized (counted : index + 1 < UInt32.size) (may : ty.MayReach index) :
    (ArraySize.sized index ty).Reaches index := by
  unfold ArraySize.sized
  split
  · rw [wrap_of_lt counted]
    exact reaches_withLength (Nat.lt_succ_self index)
  · next is_sized => exact may.resolve_left is_sized

end Ty

namespace Variable

/-- The declaration has noted all indices that are used on its name, and is below all lengths that
are declared for it.  A word can say the length that it asks for. -/
structure Leads (used : List (String × Nat)) (declarations : List Variable) (declared : Variable) :
    Prop where
  notes : ∀ use ∈ used, use.1 = declared.name → use.2 ≤ declared.maxArrayAccess
  counted : declared.maxArrayAccess + 1 < UInt32.size
  reaches : ∀ other ∈ declared :: declarations, other.name = declared.name →
    other.ty.MayReach declared.maxArrayAccess

instance (used : List (String × Nat)) (declarations : List Variable) (declared : Variable) :
    Decidable (declared.Leads used declarations) :=
  decidable_of_iff ((∀ use ∈ used, use.1 = declared.name → use.2 ≤ declared.maxArrayAccess) ∧
    declared.maxArrayAccess + 1 < UInt32.size ∧
    ∀ other ∈ declared :: declarations, other.name = declared.name →
      other.ty.MayReach declared.maxArrayAccess)
    ⟨fun ⟨notes, counted, reaches⟩ => ⟨notes, counted, reaches⟩,
      fun leads => ⟨leads.notes, leads.counted, leads.reaches⟩⟩

/-- The second declaration has the name of the first, and has noted no less.  If a word can say the
length that the first asks for, so it is with the second. -/
structure NotesMore (one other : Variable) : Prop where
  name : other.name = one.name
  highest : one.maxArrayAccess ≤ other.maxArrayAccess
  counted : one.maxArrayAccess + 1 < UInt32.size → other.maxArrayAccess + 1 < UInt32.size

theorem NotesMore.of_same {one other : Variable} (name : other.name = one.name)
    (highest : other.maxArrayAccess = one.maxArrayAccess) : one.NotesMore other :=
  ⟨name, Nat.le_of_eq highest.symm, fun counted => highest ▸ counted⟩

/-- The second declaration has noted what the first has, and whatever the first may reach. -/
structure Continues (keeps : Variable → Prop)
    (one other : Variable) : Prop extends NotesMore one other where
  keeps : keeps one → keeps other

theorem Continues.refl {keeps : Variable → Prop} (declared : Variable) :
    declared.Continues keeps declared :=
  ⟨.of_same rfl rfl, fun holds => holds⟩

theorem Continues.trans {keeps : Variable → Prop} (one other last : Variable)
    (before : one.Continues keeps other) (after : other.Continues keeps last) :
    one.Continues keeps last :=
  ⟨⟨after.name.trans before.name, Nat.le_trans before.highest after.highest,
      fun counted => after.counted (before.counted counted)⟩,
    fun holds => after.keeps (before.keeps holds)⟩

/-- The array reaches what has been noted on it. -/
def Reaching (declared : Variable) : Prop := declared.ty.Reaches declared.maxArrayAccess

/-- The array reaches what has been noted on it, or has no length yet. -/
def MayReach (declared : Variable) : Prop := declared.ty.MayReach declared.maxArrayAccess

end Variable

/-! ## Variables that are merged -/

open Variable

theorem leads_adopt {used : List (String × Nat)} {declarations : List Variable}
    {declared resolved : Variable}
    (origin : ∃ other ∈ declarations, other.name = declared.name ∧ resolved.ty = other.ty) :
    declared.Continues (Leads used declarations) (Declaration.adopt resolved declared) := by
  have highest : (Declaration.adopt resolved declared).maxArrayAccess =
      declared.maxArrayAccess := by
    unfold Declaration.adopt
    split <;> rfl
  have named := Declaration.adopt_name resolved declared
  refine ⟨.of_same named highest, fun leads => ⟨?_, ?_, fun other listed same => ?_⟩⟩
  · rw [named, highest]
    exact leads.notes
  · rw [highest]
    exact leads.counted
  · rw [named] at same
    rw [highest]
    rcases List.mem_cons.mp listed with rfl | declared_too
    · have own := leads.reaches declared (List.mem_cons_self ..) rfl
      unfold Declaration.adopt
      split
      · exact own
      · obtain ⟨origin, in_declarations, origin_named, origin_type⟩ := origin
        have adopted := leads.reaches origin (List.mem_cons_of_mem _ in_declarations) origin_named
        dsimp only
        split
        · exact origin_type ▸ adopted
        · exact own
    · exact leads.reaches other (List.mem_cons_of_mem _ declared_too) same

theorem fitInput_continues {primitive : Primitive} {declared fitted : Variable}
    (fits : ArraySize.fitInput primitive.vertices declared = .ok fitted) :
    declared.Continues Variable.MayReach fitted := by
  obtain rfl | ⟨-, -, inside, rfl⟩ := Merge.fitInput_eq_ok fits
  · exact .refl _
  · have few : primitive.vertices < UInt32.size := by cases primitive <;> decide
    refine ⟨⟨rfl, Nat.le_sub_one_of_lt inside, fun _ => ?_⟩,
      fun _ => .inr (Ty.reaches_withLength (Nat.sub_one_lt_of_lt inside))⟩
    exact Nat.lt_of_le_of_lt (Nat.sub_one_lt_of_lt inside) few

theorem length_of_sizedMembers {highest : List Nat} {ty definition : Ty}
    (sizes : ArraySize.sizedMembers? highest ty = some definition) : definition.length? = none := by
  unfold ArraySize.sizedMembers? at sizes
  split at sizes
  · split at sizes
    · obtain rfl := Option.some.inj sizes
      rfl
    · cases sizes
  · cases sizes

/-- Sizing the members of a block leaves the length of an array of blocks alone. -/
theorem length_sizedVariable (declared : Variable) : (ArraySize.sizedVariable declared).ty.length? =
    (ArraySize.sized declared.maxArrayAccess declared.ty).length? := by
  unfold ArraySize.sizedVariable
  dsimp only
  split
  · next same =>
      rw [same]
      split
      · next sizes => exact length_of_sizedMembers sizes
      · rfl
  · next same =>
      rw [same]
      split <;> rfl
  · rfl

theorem highest_sizedVariable (declared : Variable) :
    (ArraySize.sizedVariable declared).maxArrayAccess = declared.maxArrayAccess := by
  unfold ArraySize.sizedVariable
  dsimp only
  split
  · split <;> rfl
  · split <;> rfl
  · rfl

theorem name_sizedVariable (declared : Variable) :
    (ArraySize.sizedVariable declared).name = declared.name :=
  (Merge.sizedVariable_standsFor inherited_trivial declared).name

theorem reaching_sizedVariable {declared : Variable}
    (counted : declared.maxArrayAccess + 1 < UInt32.size) (may : declared.MayReach) :
    (ArraySize.sizedVariable declared).Reaching := by
  intro length listed
  rw [length_sizedVariable] at listed
  rw [highest_sizedVariable]
  exact may.sized counted length listed

/-- An array that has a length stays as long as it is. -/
theorem Variable.Reaching.sizedVariable {declared : Variable} (reaching : declared.Reaching) :
    (ArraySize.sizedVariable declared).Reaching := by
  intro length listed
  rw [length_sizedVariable, ArraySize.sized, if_neg (by rw [reaching.sized]; decide)] at listed
  rw [highest_sizedVariable]
  exact reaching length listed

theorem continues_sizedVariable {keeps : Variable → Prop} (declared : Variable)
    (holds : keeps declared → keeps (ArraySize.sizedVariable declared)) :
    declared.Continues keeps (ArraySize.sizedVariable declared) :=
  ⟨.of_same (name_sizedVariable declared) (highest_sizedVariable declared), holds⟩

/-! ## Executables -/

namespace Shader

/-- Names stand for the globals that have them, and what is used of a global is noted on it.  Words
can say the lengths that the variables with a name ask for. -/
structure Noted (shader : Shader) : Prop where
  tidy : shader.Tidy
  counted : ∀ name, ∀ declared ∈ shader.findVariable? name,
    declared.maxArrayAccess + 1 < UInt32.size
  bound : ∀ id ∈ shader.globals, ∀ declared, shader.vars.get? id = some declared →
    shader.symbols.vars.get? declared.name = some id
  noted : ∀ callee signature, callee.function ∈ shader.declaredFunctions →
    shader.At callee signature → ∀ id index,
      Touch.element id index ∈ touches signature.body.ownNodes →
    id ∈ shader.globals → ∀ declared, shader.vars.get? id = some declared →
    index ≤ declared.maxArrayAccess

/-- What is used of a global is noted on it, and the arrays among the globals reach what is
noted. -/
structure Reaching (shader : Shader) : Prop extends Noted shader where
  reaching : ∀ declared ∈ shader.declaredVariables, declared.Reaching

/-- The second list of instructions touches nothing that the first does not. -/
def TouchesNoMore (block left : Block) : Prop :=
  touches left.ownNodes ⊆ touches block.ownNodes

variable {shader before after : Shader} {moves : Callee → Callee → Prop}

theorem Noted.counted_of_global (noted : shader.Noted) {id : VariableId}
    (global : id ∈ shader.globals) {declared : Variable}
    (found : shader.vars.get? id = some declared) :
    declared.maxArrayAccess + 1 < UInt32.size :=
  noted.counted declared.name declared
    (Option.bind_eq_some_iff.mpr ⟨id, noted.bound id global declared found, found⟩)

theorem touchesNoMore_of_unchanged (block left : Block) (alike : Block.Alike unchanged block left) :
    TouchesNoMore block left := by
  intro touch listed
  obtain ⟨origin, was, related⟩ := alike.touched listed
  cases related with
  | whole same => exact same ▸ was
  | element same => exact same ▸ was

theorem Noted.derives (noted : before.Noted) (thinned : Thinned before after)
    (derives : Derives moves TouchesNoMore before after)
    (known : ∀ name id, after.symbols.vars.get? name = some id →
      before.symbols.vars.get? name = some id)
    (bound : ∀ id ∈ after.globals, ∀ declared, after.vars.get? id = some declared →
      before.symbols.vars.get? declared.name = some id →
      after.symbols.vars.get? declared.name = some id) : after.Noted := by
  have fewer := thinned.globals.subset
  refine ⟨thinned.tidy noted.tidy, fun name declared named => ?_,
    fun id global declared found => ?_, ?_⟩
  · obtain ⟨id, stands, found⟩ := Option.bind_eq_some_iff.mp named
    rw [thinned.vars] at found
    exact noted.counted name declared
      (Option.bind_eq_some_iff.mpr ⟨id, known name id stands, found⟩)
  · exact bound id global declared found
      (noted.bound id (fewer global) declared (thinned.vars ▸ found))
  · intro callee carried is_declared there id index touched global declared found
    obtain ⟨one, signature, -, was_declared, was, -, no_more⟩ :=
      derives callee carried is_declared there
    exact noted.noted one signature was_declared was id index (no_more touched) (fewer global)
      declared (thinned.vars ▸ found)

theorem Reaching.derives (reaching : before.Reaching) (thinned : Thinned before after)
    (derives : Derives moves TouchesNoMore before after)
    (known : ∀ name id, after.symbols.vars.get? name = some id →
      before.symbols.vars.get? name = some id)
    (bound : ∀ id ∈ after.globals, ∀ declared, after.vars.get? id = some declared →
      before.symbols.vars.get? declared.name = some id →
      after.symbols.vars.get? declared.name = some id) : after.Reaching :=
  ⟨reaching.toNoted.derives thinned derives known bound,
    fun declared listed => reaching.reaching declared (thinned.declaredVariables.subset listed)⟩

theorem Noted.revised {relation : Variable → Variable → Prop} (noted : before.Noted)
    (notes : ∀ one other, relation one other → one.NotesMore other)
    (revised : Revised relation before after) : after.Noted := by
  have globals := revised.globals
  refine ⟨revised.tidy (fun one other related => (notes one other related).name) noted.tidy,
    fun name declared named => ?_, fun id global declared found => ?_, ?_⟩
  · obtain ⟨id, stands, found⟩ := Option.bind_eq_some_iff.mp named
    obtain ⟨origin, was, related⟩ := revised.origin found
    rw [revised.same] at stands
    exact (notes _ _ related).counted
      (noted.counted name origin (Option.bind_eq_some_iff.mpr ⟨id, stands, was⟩))
  · obtain ⟨origin, was, related⟩ := revised.origin found
    rw [(notes _ _ related).name, revised.same]
    exact noted.bound id (globals ▸ global) origin was
  · intro callee carried is_declared there id index touched global declared found
    obtain ⟨origin, was, related⟩ := revised.origin found
    rw [revised.same] at is_declared there
    exact Nat.le_trans (noted.noted callee carried is_declared there id index touched
      (globals ▸ global) origin was) (notes _ _ related).highest

theorem Reaching.revised (reaching : before.Reaching)
    (revised : Revised (Continues Variable.Reaching) before after) : after.Reaching := by
  refine ⟨reaching.toNoted.revised (fun _ _ => Continues.toNotesMore) revised,
    fun declared listed => ?_⟩
  obtain ⟨origin, was, continues⟩ := revised.mem_declared listed
  exact continues.keeps (reaching.reaching origin was)

/-! ## Passes -/

theorem touchesNoMore_of_shrinks {may : Simplification} (block left : Block)
    (shrinks : Block.Shrinks may block left) : TouchesNoMore block left :=
  fun touch listed => shrinks.noMore.touches touch listed

theorem unbindVariables_keeps {name : String} {id : VariableId} (ids : List VariableId)
    (not_listed : id ∉ ids) : ∀ {symbols : SymbolTable}, symbols.vars.get? name = some id →
      (shader.unbindVariables symbols ids).vars.get? name = some id := by
  induction ids with
  | nil => exact fun bound => bound
  | cons first ids ih =>
      obtain ⟨other, later⟩ := not_or.mp (fun listed => not_listed (List.mem_cons.mpr listed))
      intro symbols bound
      rw [unbindVariables]
      split
      · next declared found =>
          split
          · next first_bound => exact ih later (NameTable.get?_erase_of_ne bound first_bound other)
          · exact ih later bound
      · exact ih later bound

theorem unbindVariables_known {name : String} {id : VariableId} (ids : List VariableId) :
    ∀ {symbols : SymbolTable}, (shader.unbindVariables symbols ids).vars.get? name = some id →
      symbols.vars.get? name = some id := by
  induction ids with
  | nil => exact fun stands => stands
  | cons first ids ih =>
      intro symbols stands
      rw [unbindVariables] at stands
      split at stands
      · split at stands
        · exact NameTable.get?_of_get?_erase (ih stands)
        · exact ih stands
      · exact ih stands

/-- A variable that is still declared is not dead. -/
theorem not_dead_of_global {keepUniforms : Bool} (flat : shader.topLevel.Flat) {id : VariableId}
    (global : id ∈ (shader.removeDeadCode keepUniforms).globals) :
    id ∉ shader.deadDeclarations keepUniforms := by
  have listed := mem_globals.mp global
  simp only [removeDeadCode, updateBodies, Block.updateBlocks_flat _ flat] at listed
  have survived := (List.mem_filter.mp listed).2
  simpa [survives] using survived

theorem Reaching.removeDeadCode (reaching : shader.Reaching) (keepUniforms : Bool) :
    (shader.removeDeadCode keepUniforms).Reaching := by
  have flat := reaching.tidy.flat
  refine reaching.derives (thinned_removeDeadCode keepUniforms flat)
    ((derives_removeDeadCode keepUniforms flat).imp touchesNoMore_of_shrinks)
    (fun _ _ => shader.unbindVariables_known _) ?_
  intro id global declared _ bound
  exact shader.unbindVariables_keeps _ (not_dead_of_global flat global) bound

/-- Every pass keeps the arrays reaching. -/
theorem Reaching.run (reaching : shader.Reaching) (pass : Pass) : (pass.run shader).Reaching := by
  have flat := reaching.tidy.flat
  cases pass with
  | foldConstants =>
      refine reaching.derives (thinned_foldConstants flat)
        ((derives_foldConstants flat).imp fun block left ⟨halfway, first, second⟩ => ?_)
        (fun _ _ known => known) fun _ _ _ _ bound => bound
      exact List.Subset.trans (touchesNoMore_of_shrinks _ _ second)
        (touchesNoMore_of_shrinks _ _ first)
  | removeDeadCode keepUniforms => exact reaching.removeDeadCode keepUniforms
  | removeDeadFunctions =>
      refine reaching.derives (thinned_removeDeadFunctions flat)
        (derives_removeDeadFunctions.imp touchesNoMore_of_shrinks) (fun _ _ known => ?_) ?_
      · rwa [Pass.run, shader.vars_removeDeadFunctions] at known
      · intro id _ declared _ bound
        rwa [Pass.run, shader.vars_removeDeadFunctions]
  | inspect => exact reaching

theorem Reaching.optimizeFully (reaching : shader.Reaching) : shader.optimizeFully.Reaching := by
  refine exhaust_keeps (fun current so_far => ?_) shader reaching
  exact @optimize_keeps Reaching .full (fun pass _ _ holds => holds.run pass) current so_far

/-! ## Retyping and resizing -/

theorem thinned_retypeElements {result : Shader} (flat : shader.topLevel.Flat)
    (runs : ArraySize.retypeElements shader = .ok result) : Thinned shader result := by
  rw [retypeElements_eq_ok flat runs]
  exact ⟨rfl, rfl, List.Sublist.refl _⟩

theorem Noted.retypeElements {result : Shader} (noted : shader.Noted)
    (runs : ArraySize.retypeElements shader = .ok result) : result.Noted := by
  have flat := noted.tidy.flat
  refine noted.derives (thinned_retypeElements flat runs)
    ((derives_retypeElements flat runs).imp touchesNoMore_of_unchanged) (fun name id known => ?_)
    fun id _ declared _ bound => ?_
  · rw [retypeElements_eq_ok flat runs] at known
    exact known
  · rw [retypeElements_eq_ok flat runs]
    exact bound

theorem Reaching.retypeElements {result : Shader} (reaching : shader.Reaching)
    (runs : ArraySize.retypeElements shader = .ok result) : result.Reaching :=
  ⟨reaching.toNoted.retypeElements runs, fun declared listed => reaching.reaching declared
    ((thinned_retypeElements reaching.tidy.flat runs).declaredVariables.subset listed)⟩

/-- Arrays among the uniforms may be cut to what is noted on them, or more. -/
theorem Reaching.resizeArrays {highest : String → Nat} {result : Shader}
    (reaching : shader.Reaching)
    (enough : ∀ declared ∈ shader.declaredVariables, declared.mode = .uniform →
      declared.maxArrayAccess ≤ highest declared.name)
    (counted : ∀ name, highest name + 1 < UInt32.size)
    (runs : Uniform.resizeArrays highest shader = .ok result) : result.Reaching := by
  obtain ⟨changed, resized, -, retypes⟩ := resizeArrays_eq_ok runs
  have noted : changed.Noted := by
    refine reaching.toNoted.revised (fun one other related => ?_) resized
    rcases related with rfl | ⟨-, rfl⟩
    · exact .of_same rfl rfl
    · exact .of_same rfl rfl
  have reaching_changed : changed.Reaching := by
    refine ⟨noted, fun declared listed => ?_⟩
    obtain ⟨origin, was, related⟩ := resized.mem_declared listed
    rcases related with rfl | ⟨resizable, rfl⟩
    · exact reaching.reaching _ was
    · simp only [Uniform.isResizable, Bool.and_eq_true, decide_eq_true_eq] at resizable
      refine Ty.reaches_withLength ?_
      rw [wrap_of_lt (counted origin.name)]
      exact Nat.lt_succ_of_le (enough origin was resizable.1.1.1)
  rcases retypes with rfl | retypes
  · exact reaching_changed
  · exact reaching_changed.retypeElements retypes

end Shader
end StageLink
