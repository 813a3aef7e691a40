import StageLink.Proofs.Merging

/-!
# Settling calls

Resolving a call defines one signature, but announces others.  What is announced has the name and
the types of a signature of a library and could not be found before, so a signature without
definition and a key of the libraries that cannot be found yet both count as pending.  Cloning from
a library adds nothing to what is pending and each definition takes one away, so the calls are
settled within as many steps as there are signatures.
-/

namespace StageLink

/-! ## Counting -/

theorem total_map_modify {Item : Type} (weight : Item → Nat) (change : Item → Item)
    {items : List Item} {position : Nat} {item : Item} (there : items[position]? = some item) :
    total ((items.modify position change).map weight) + weight item =
      total (items.map weight) + weight (change item) := by
  induction items generalizing position with
  | nil => cases there
  | cons first rest ih =>
      cases position with
      | zero =>
          obtain rfl : first = item := Option.some.inj there
          simp only [List.modify_zero_cons, List.map_cons, total_cons]
          omega
      | succ position =>
          have later := ih there
          simp only [List.modify_succ_cons, List.map_cons, total_cons]
          omega

/-- A predicate that holds of fewer items, and not of a certain one, counts fewer. -/
theorem countP_lt_of_mem {Item : Type} {fewer more : Item → Bool} {items : List Item} {item : Item}
    (implies : ∀ item, fewer item = true → more item = true) (listed : item ∈ items)
    (counted : more item = true) (not_counted : fewer item = false) :
    items.countP fewer < items.countP more := by
  obtain ⟨before, after, rfl⟩ := List.append_of_mem listed
  have early := List.countP_mono_left (l := before) fun item _ => implies item
  have late := List.countP_mono_left (l := after) fun item _ => implies item
  simp only [List.countP_append, List.countP_cons, counted, not_counted, if_true]
  simp
  omega

namespace Resolution

/-! ## What is pending -/

/-- The name and the types by which a signature of a function is found. -/
def keyOf (shader : Shader) (name : String) (signature : Signature) : Option (String × List Ty) :=
  match shader.typesOf signature.parameters with
  | .ok types => some (name, types)
  | .error _ => none

/-- The names and types by which the signatures of a shader are found. -/
def keys (shader : Shader) : List (String × List Ty) :=
  shader.functions.entries.flatMap fun function =>
    function.signatures.filterMap (keyOf shader function.name)

/-- Whether a name and types lead to a signature. -/
def knows (shader : Shader) (key : String × List Ty) : Bool :=
  match shader.symbols.functions.get? key.1 with
  | none => false
  | some function =>
      match shader.findSignature function key.2 with
      | .ok (some _) => true
      | _ => false

def openCount (signature : Signature) : Nat := if signature.isDefined then 0 else 1

/-- The number of signatures that are only announced. -/
def undefinedCount (shader : Shader) : Nat :=
  total (shader.functions.entries.map fun function => total (function.signatures.map openCount))

/-- The number of signatures that are only announced, and of those that may still be. -/
def pending (libraries : List Shader) (shader : Shader) : Nat :=
  undefinedCount shader + (libraries.flatMap keys).countP (!knows shader ·)

theorem knows_iff {shader : Shader} {name : String} {types : List Ty} :
    knows shader (name, types) = true ↔ ∃ callee, shader.Finds name types callee := by
  unfold knows
  constructor
  · intro found
    split at found
    · cases found
    · next function bound =>
        split at found
        · next position finds => exact ⟨⟨function, position⟩, bound, finds⟩
        · cases found
  · rintro ⟨⟨function, position⟩, bound, finds⟩
    rw [bound]
    dsimp only
    rw [finds]

theorem mem_keys {shader : Shader} {callee : Callee} {name : String} {types : List Ty}
    (has : shader.HasKey callee name types) : (name, types) ∈ keys shader := by
  obtain ⟨function, signature, found, rfl, there, typed⟩ := has
  refine List.mem_flatMap.mpr ⟨function, Arena.mem_of_get? found, ?_⟩
  refine List.mem_filterMap.mpr ⟨signature, List.mem_of_getElem? there, ?_⟩
  rw [keyOf, typed]

theorem openCount_le (signature : Signature) : openCount signature ≤ 1 := by
  unfold openCount
  split <;> simp

theorem total_openCount_le (signatures : List Signature) :
    total (signatures.map openCount) ≤ signatures.length := by
  induction signatures with
  | nil => exact Nat.le_refl _
  | cons signature signatures ih =>
      have here := openCount_le signature
      simp only [List.map_cons, total_cons, List.length_cons]
      omega

theorem undefinedCount_le (shader : Shader) : undefinedCount shader ≤ signatureCount shader :=
  total_map_le fun function _ => total_openCount_le function.signatures

/-- Where some signature is defined, not all are only announced. -/
theorem undefinedCount_lt {shader : Shader} {callee : Callee} {signature : Signature}
    (there : shader.At callee signature) (is_defined : signature.isDefined = true) :
    undefinedCount shader < signatureCount shader := by
  obtain ⟨function, found, held⟩ := there.function
  obtain ⟨before, after, split⟩ := List.append_of_mem (List.mem_of_getElem? held)
  have fewer : total (function.signatures.map openCount) < function.signatures.length := by
    have early := total_openCount_le before
    have late := total_openCount_le after
    simp only [split, List.map_append, List.map_cons, total_append, total_cons,
      openCount, is_defined,
      if_true, List.length_append, List.length_cons]
    omega
  exact total_map_lt (fun function _ => total_openCount_le function.signatures)
    (Arena.mem_of_get? found) fewer

theorem length_keys_le (shader : Shader) : (keys shader).length ≤ signatureCount shader := by
  have each : ∀ functions : List Function,
      (functions.flatMap fun function =>
        function.signatures.filterMap (keyOf shader function.name)).length ≤
        total (functions.map (·.signatures.length)) := by
    intro functions
    induction functions with
    | nil => exact Nat.le_refl _
    | cons function functions ih =>
        have here := List.length_filterMap_le (keyOf shader function.name) function.signatures
        simp only [List.flatMap_cons, List.length_append, List.map_cons, total_cons]
        omega
  exact each shader.functions.entries

theorem countP_keys_le (libraries : List Shader) (chosen : String × List Ty → Bool) :
    (libraries.flatMap keys).countP chosen ≤ total (libraries.map signatureCount) := by
  have few : (libraries.flatMap keys).length ≤ total (libraries.map signatureCount) := by
    induction libraries with
    | nil => exact Nat.le_refl _
    | cons library libraries ih =>
        have here := length_keys_le library
        simp only [List.flatMap_cons, List.length_append, List.map_cons, total_cons]
        omega
  exact Nat.le_trans List.countP_le_length few

/-- At first no more is pending than there are signatures. -/
theorem pending_le (libraries : List Shader) (shader : Shader) :
    pending libraries shader ≤ signatureCount shader + total (libraries.map signatureCount) :=
  Nat.add_le_add (undefinedCount_le shader) (countP_keys_le libraries _)

theorem pending_lt (libraries : List Shader) {shader : Shader} {callee : Callee}
    {signature : Signature} (there : shader.At callee signature)
    (is_defined : signature.isDefined = true) :
    pending libraries shader < signatureCount shader + total (libraries.map signatureCount) :=
  Nat.add_lt_add_of_lt_of_le (undefinedCount_lt there is_defined) (countP_keys_le libraries _)

/-! ## What a step takes away -/

variable {source before after : Shader} {free : VariableId → Prop} {libraries : List Shader}

/-- What can be found stays so. -/
theorem knows_growth (growth : Shader.Growth source free before after) {key : String × List Ty}
    (known : knows before key = true) : knows after key = true := by
  obtain ⟨callee, finds⟩ := knows_iff.mp known
  exact knows_iff.mpr ⟨callee, finds.growth growth⟩

/-- Growing from a library adds nothing to what is pending. -/
theorem pending_growth (listed : source ∈ libraries)
    (growth : Shader.Growth source free before after) :
    pending libraries after ≤ pending libraries before := by
  have fewer : ∀ key, (!knows after key) = true → (!knows before key) = true := by
    intro key unknown
    cases known : knows before key with
    | false => rfl
    | true =>
        rw [knows_growth growth known] at unknown
        cases unknown
  have counted := List.countP_mono_left (l := libraries.flatMap keys) fun key _ => fewer key
  have unless_announced : undefinedCount after = undefinedCount before →
      pending libraries after ≤ pending libraries before := fun same => by
    unfold pending
    omega
  cases growth with
  | copy _ => exact unless_announced rfl
  | global _ _ _ => exact unless_announced rfl
  | function unknown =>
      refine unless_announced ?_
      simp [undefinedCount, Shader.declareFunction, unknown, Arena.push]
  | @announce id function signature parameters lacks =>
      obtain ⟨original, name, has, -, bound⟩ := lacks.origin
      have in_keys : (name, parameters.map (·.ty)) ∈ libraries.flatMap keys :=
        List.mem_flatMap.mpr ⟨source, listed, mem_keys has⟩
      have now_known := knows_iff.mpr ⟨_, lacks.finds bound⟩
      have was_unknown : knows before (name, parameters.map (·.ty)) = false := by
        rw [knows, bound]
        dsimp only
        rw [lacks.lacking]
      have one_less := countP_lt_of_mem fewer in_keys (by rw [was_unknown]; rfl)
        (by rw [now_known]; rfl)
      have one_more := total_map_modify
        (fun entry : Function => total (entry.signatures.map openCount))
        (fun _ => { function with signatures := function.signatures ++
          [{ returnType := signature.returnType
             parameters := List.range' before.vars.size parameters.length
             isBuiltin := signature.isBuiltin }] }) lacks.found
      simp only [List.map_append, total_append, List.map_cons, List.map_nil, total_cons, total_nil,
        openCount, Bool.false_eq_true, if_false] at one_more
      have counts : undefinedCount (before.announce id function signature.returnType
          signature.isBuiltin parameters) = undefinedCount before + 1 := by
        simp only [undefinedCount, Shader.announce, Arena.modify]
        omega
      unfold pending
      omega

theorem pending_grows (listed : source ∈ libraries)
    (grows : Shader.Grows source free before after) :
    pending libraries after ≤ pending libraries before := by
  induction grows with
  | refl => exact Nat.le_refl _
  | tail _ growth ih => exact Nat.le_trans (pending_growth listed growth) ih

/-! ## Definitions -/

variable {shader library resolved : Shader} {target : Callee} {definition : Signature}

/-- An announced signature with the body that a definition has been cloned to. -/
def settled (definition : Signature) (body : Block) (announced : Signature) : Signature :=
  { announced with body := body, isDefined := true, isBuiltin := definition.isBuiltin }

/-- The variables that are not parameters to be replaced may be found by name. -/
def NoParameter (definition announced : Signature) (id : VariableId) : Prop :=
  id ∉ (definition.parameters.zip announced.parameters).map (·.1)

/-- Giving a signature a definition clones its body, with the parameters of the announced signature
in the place of its own. -/
theorem define_eq_ok (coherent : shader.Coherent)
    (runs : define shader target library definition = .ok resolved) :
    ∃ announced body final, shader.At target announced ∧
      Cloning.Copied library (NoParameter definition announced)
        ⟨shader, (definition.parameters.zip announced.parameters).reverse⟩ final
        (Shader.declaredIn (Block.ownNodes definition.body))
        (Shader.declaredIn (Block.ownNodes body)) ∧
      Block.Alike (CloneM.correspondence library (NoParameter definition announced) final)
        (Block.updateBlocks (List.filter CloneM.isNoFunction) definition.body) body ∧
      resolved = final.target.modifySignature target (settled definition body) := by
  obtain ⟨announced, fetched, following⟩ := Checked.bind_eq_ok.mp runs
  obtain ⟨⟨body, cloned⟩, clones, finish⟩ := Checked.bind_eq_ok.mp following
  obtain rfl := Checked.pure_eq_ok.mp finish
  have known_or_free : ∀ id,
    id ∈ (definition.parameters.zip announced.parameters).reverse.map (·.1) ∨
      NoParameter definition announced id := by
    intro id
    rw [List.map_reverse, List.mem_reverse]
    exact Decidable.em _
  obtain ⟨final, rfl, copied, alike⟩ :=
    CloneM.block_eq_ok coherent (declaredFirst_of_free known_or_free _) clones
  exact ⟨announced, body, final, Shader.fetchSignature_eq_ok.mp fetched, copied, alike, rfl⟩

theorem define_coherent (coherent : shader.Coherent)
    (runs : define shader target library definition = .ok resolved) : resolved.Coherent := by
  obtain ⟨_, _, final, -, copied, -, rfl⟩ := define_eq_ok coherent runs
  exact Merge.coherent_modifySignature (copied.grows.coherent coherent) target _

/-- Whatever is known before or after a signature has got a body is known both before and after. -/
theorem knows_modifySignature {change : Signature → Signature}
    (same : ∀ signature, (change signature).parameters = signature.parameters)
    (key : String × List Ty) :
    knows (shader.modifySignature target change) key = knows shader key := by
  obtain ⟨there, back⟩ : Shader.KeepsKeys shader (shader.modifySignature target change) ∧ _ :=
    Shader.keepsKeys_modifySignature same
  rw [Bool.eq_iff_iff, knows_iff, knows_iff]
  exact ⟨fun ⟨callee, finds⟩ => ⟨callee, back.finds finds⟩,
    fun ⟨callee, finds⟩ => ⟨callee, there.finds finds⟩⟩

theorem pending_modifySignature {announced : Signature} (there : shader.At target announced)
    (undefined : announced.isDefined = false) (body : Block) :
    pending libraries (shader.modifySignature target (settled definition body)) + 1 =
      pending libraries shader := by
  obtain ⟨function, found, held⟩ := there.function
  have one_less := total_map_modify openCount (settled definition body) held
  have in_function := total_map_modify
    (fun entry : Function => total (entry.signatures.map openCount))
    (fun entry => { entry with
      signatures := entry.signatures.modify target.signature (settled definition body) }) found
  have counts : undefinedCount (shader.modifySignature target (settled definition body)) + 1 =
      undefinedCount shader := by
    simp only [openCount, settled, undefined, Bool.false_eq_true, if_false, if_true] at one_less
    dsimp only at in_function
    simp only [undefinedCount, Shader.modifySignature, Arena.modify]
    omega
  have keeps_parameters : ∀ signature,
      (settled definition body signature).parameters = signature.parameters := fun _ => rfl
  have same_keys :
    (fun key => !knows (shader.modifySignature target (settled definition body)) key) =
      fun key => !knows shader key := by
    funext key
    rw [knows_modifySignature keeps_parameters]
  unfold pending
  rw [same_keys]
  omega

theorem pending_define (coherent : shader.Coherent) (listed : library ∈ libraries)
    (undefined : ∀ announced, shader.At target announced → announced.isDefined = false)
    (runs : define shader target library definition = .ok resolved) :
    pending libraries resolved < pending libraries shader := by
  obtain ⟨announced, body, final, there, copied, -, rfl⟩ := define_eq_ok coherent runs
  have later := (Shader.at_grows copied.grows).1 there
  have one_less :
    pending libraries (final.target.modifySignature target (settled definition body)) + 1 =
      pending libraries final.target :=
    pending_modifySignature later (undefined announced there) body
  have no_more := pending_grows listed copied.grows
  simp only at no_more
  omega

/-! ## Settled calls -/

/-- All signatures that are called are defined. -/
def Settled (shader : Shader) : Prop :=
  ∀ callee ∈ Shader.callees shader.nodes, ∀ signature, shader.At callee signature →
    signature.isDefined = true

/-- All signatures that are called are there, and are defined. -/
def Answered (shader : Shader) : Prop :=
  ∀ callee ∈ Shader.callees shader.nodes, ∃ signature, shader.At callee signature ∧
    signature.isDefined = true

theorem Answered.settled (answered : Answered shader) : Settled shader := by
  intro callee listed signature there
  obtain ⟨found, there_too, is_defined⟩ := answered callee listed
  rwa [there.unique there_too]

theorem settled_of_pending (none_left : pending libraries shader = 0) : Settled shader := by
  intro callee _ signature there
  obtain ⟨function, found, held⟩ := there.function
  have in_function := le_total_of_mem
    (List.mem_map_of_mem (f := openCount) (List.mem_of_getElem? held))
  have in_shader := le_total_of_mem
    (List.mem_map_of_mem (f := fun entry : Function => total (entry.signatures.map openCount))
      (Arena.mem_of_get? found))
  have nothing : undefinedCount shader = 0 := by
    unfold pending at none_left
    omega
  cases is_defined : signature.isDefined with
  | true => rfl
  | false =>
      simp only [openCount, is_defined, Bool.false_eq_true, if_false] at in_function
      unfold undefinedCount at nothing
      omega

theorem firstUndefined_eq_none {callees : List Callee}
    (none_left : firstUndefined shader callees = .ok none) :
    ∀ callee ∈ callees, ∃ signature, shader.At callee signature ∧ signature.isDefined = true := by
  induction callees with
  | nil => simp
  | cons first rest ih =>
      obtain ⟨signature, fetched, following⟩ := Checked.bind_eq_ok.mp none_left
      split at following
      · next is_defined =>
          exact List.forall_mem_cons.mpr
            ⟨⟨signature, Shader.fetchSignature_eq_ok.mp fetched, is_defined⟩, ih following⟩
      · cases following

theorem firstUndefined_eq_some {callees : List Callee}
    (one_left : firstUndefined shader callees = .ok (some target)) :
    target ∈ callees ∧ ∃ signature, shader.At target signature ∧ signature.isDefined = false := by
  induction callees with
  | nil => cases one_left
  | cons first rest ih =>
      obtain ⟨signature, fetched, following⟩ := Checked.bind_eq_ok.mp one_left
      split at following
      · exact ⟨List.mem_cons_of_mem first (ih following).1, (ih following).2⟩
      · next not_defined =>
          obtain rfl : first = target := by simpa using following
          exact ⟨List.mem_cons_self .., signature, Shader.fetchSignature_eq_ok.mp fetched,
            by simpa using not_defined⟩

/-- A step that finds nothing to resolve leaves all calls with definitions. -/
theorem step_grants_none (grants : (step libraries shader).Grants none) : Answered shader := by
  rw [step] at grants
  obtain ⟨first, looks, following⟩ := Judged.grants_bind.mp grants
  cases first with
  | none => exact firstUndefined_eq_none (Judged.grants_monadLift.mp looks)
  | some target =>
      obtain ⟨function, -, following⟩ := Judged.grants_bind.mp following
      obtain ⟨types, -, following⟩ := Judged.grants_bind.mp following
      obtain ⟨answer, -, following⟩ := Judged.grants_bind.mp following
      cases answer with
      | none => simp at following
      | some pair =>
          obtain ⟨_, -, finish⟩ := Judged.grants_bind.mp following
          simp at finish

/-- A step that resolves a call leaves less pending. -/
theorem pending_step (coherent : shader.Coherent)
    (grants : (step libraries shader).Grants (some resolved)) :
    resolved.Coherent ∧ pending libraries resolved < pending libraries shader := by
  obtain ⟨target, _, _, library, definition, looks, -, listed, -, defines⟩ := step_grants grants
  obtain ⟨-, signature, there, undefined⟩ := firstUndefined_eq_some looks
  refine ⟨define_coherent coherent defines, pending_define coherent listed ?_ defines⟩
  intro announced there_too
  rw [← there.unique there_too]
  exact undefined

/-- Resolving the calls of a shader that defines some signature, so that there are more steps than
can define one, leaves all of them with definitions. -/
theorem resolveCalls_answers {callee : Callee} {signature : Signature} (coherent : shader.Coherent)
    (there : shader.At callee signature) (is_defined : signature.isDefined = true)
    (grants : (resolveCalls libraries shader).Grants resolved) : Answered resolved := by
  rw [resolveCalls] at grants
  have enough := pending_lt libraries there is_defined
  generalize signatureCount shader + total (libraries.map signatureCount) = count at grants enough
  clear there
  induction count generalizing shader with
  | zero => cases enough
  | succ count ih =>
      obtain ⟨answer, steps_once, following⟩ := Judged.grants_bind.mp grants
      cases answer with
      | none =>
          obtain rfl := Judged.grants_pure.mp following
          exact step_grants_none steps_once
      | some next =>
          obtain ⟨still_coherent, less⟩ := pending_step coherent steps_once
          exact ih still_coherent following (by omega)

end Resolution
end StageLink
