import StageLink.Proofs.Merging
import StageLink.Proofs.Problems
import StageLink.Proofs.Shrinking

/-!
# What units share

Cloning finds by name whatever an instruction list mentions without knowing or having declared it.
So the variables that a unit shares with the executable of its stage are its globals and what its
instruction lists leave free, and whatever constant index it uses on one of these is used on the
global of the name.
-/

namespace StageLink

/-! ## Free variables -/

/-- The variables that are mentioned without being known or having been declared before. -/
def freeVariables : List VariableId → List Occurrence → List VariableId
  | _, [] => []
  | known, .declares id :: rest => freeVariables (id :: known) rest
  | known, .mentions id :: rest =>
      if id ∈ known then freeVariables known rest else id :: freeVariables known rest
  | known, .calls _ :: rest => freeVariables known rest

theorem declaredFirst_of_freeVariables {free : VariableId → Prop} {items : List Occurrence} :
    ∀ {known more : List VariableId}, known ⊆ more →
      (∀ id ∈ freeVariables known items, free id) → DeclaredFirst free more items := by
  induction items with
  | nil => exact fun _ _ => trivial
  | cons occurrence items ih =>
      intro known more fewer all_free
      cases occurrence with
      | declares id => exact ih (List.cons_subset_cons id fewer) all_free
      | calls callee => exact ih fewer all_free
      | mentions id =>
          rw [freeVariables] at all_free
          split at all_free
          · next is_known => exact ⟨.inl (fewer is_known), ih fewer all_free⟩
          · exact ⟨.inr (all_free id (List.mem_cons_self ..)),
              ih fewer fun other listed => all_free other (List.mem_cons_of_mem id listed)⟩

namespace Shader

def statements (shader : Shader) : Block :=
  shader.topLevel.filter (!Merge.declaresGlobal shader ·)

/-- The instruction lists of a unit, each with the parameters that it knows. -/
def parts (shader : Shader) : List (List VariableId × Block) :=
  ([], shader.statements) :: shader.functions.entries.flatMap fun function =>
    function.signatures.map fun signature => (signature.parameters, signature.body)

/-- The variables that are found by name. -/
def shared (shader : Shader) : List VariableId :=
  shader.globals ++ shader.parts.flatMap fun part =>
    freeVariables part.1 (occurrences part.2.ownNodes)

/-- The declarations of the variables that are found by name. -/
def sharedVariables (shader : Shader) : List Variable := shader.shared.filterMap shader.vars.get?

/-- The constant indices that are used on the variables that are found by name. -/
def uses (shader : Shader) : List (String × Nat) :=
  shader.parts.flatMap fun part => (touches part.2.ownNodes).filterMap fun
    | .whole _ => none
    | .element id index =>
        if id ∈ shader.shared then
          (shader.vars.get? id).map fun declared => (declared.name, index)
        else
          none

variable {shader : Shader}

theorem statements_part : ([], shader.statements) ∈ shader.parts := List.mem_cons_self ..

theorem signature_part {id : FunctionId} {signature : Signature}
    (listed : signature ∈ shader.signaturesOf id) :
    (signature.parameters, signature.body) ∈ shader.parts := by
  obtain ⟨function, in_arena, listed⟩ := exists_function_iff.mpr ⟨id, listed⟩
  exact List.mem_cons_of_mem _
    (List.mem_flatMap.mpr ⟨function, in_arena, List.mem_map_of_mem listed⟩)

theorem shared_of_global {id : VariableId} (global : id ∈ shader.globals) : id ∈ shader.shared :=
  List.mem_append_left _ global

theorem shared_of_free {id : VariableId} {part : List VariableId × Block}
    (listed : part ∈ shader.parts)
    (is_free : id ∈ freeVariables part.1 (occurrences part.2.ownNodes)) : id ∈ shader.shared :=
  List.mem_append_right _ (List.mem_flatMap.mpr ⟨part, listed, is_free⟩)

theorem mem_sharedVariables {declared : Variable} :
    declared ∈ shader.sharedVariables ↔
      ∃ id ∈ shader.shared, shader.vars.get? id = some declared :=
  List.mem_filterMap

theorem mem_uses {part : List VariableId × Block} {id : VariableId} {index : Nat}
    {declared : Variable} (listed : part ∈ shader.parts) (is_shared : id ∈ shader.shared)
    (touched : Touch.element id index ∈ touches part.2.ownNodes)
    (found : shader.vars.get? id = some declared) : (declared.name, index) ∈ shader.uses := by
  refine List.mem_flatMap.mpr ⟨part, listed, List.mem_filterMap.mpr ⟨_, touched, ?_⟩⟩
  simp [is_shared, found]

end Shader

/-! ## What is used is counted -/

/-- A list touches only variables of the shader, and the constant indices that it uses on globals
are among those that are counted. -/
structure Block.Counted (used : List (String × Nat)) (shader : Shader) (block : Block) : Prop where
  inside : ∀ id, Touch.whole id ∈ touches block.ownNodes → id < shader.vars.size
  counted : ∀ id index, Touch.element id index ∈ touches block.ownNodes → id ∈ shader.globals →
    ∀ declared, shader.vars.get? id = some declared → (declared.name, index) ∈ used

namespace Block.Counted

variable {used : List (String × Nat)} {shader : Shader}

theorem nil : Block.Counted used shader [] :=
  ⟨fun _ touched => (by cases touched), fun _ _ touched => (by cases touched)⟩

theorem append {block rest : Block} (first : block.Counted used shader)
    (second : rest.Counted used shader) : Block.Counted used shader (block ++ rest) := by
  refine ⟨fun id touched => ?_, fun id index touched => ?_⟩
  · rw [Block.ownNodes_append, touches_append, List.mem_append] at touched
    exact touched.elim (first.inside id) (second.inside id)
  · rw [Block.ownNodes_append, touches_append, List.mem_append] at touched
    exact touched.elim (first.counted id index) (second.counted id index)

theorem grows {source extended : Shader} {free : VariableId → Prop} {block : Block}
    (contained : block.Counted used shader) (grows : Shader.Grows source free shader extended) :
    block.Counted used extended := by
  refine ⟨fun id touched => Nat.lt_of_lt_of_le (contained.inside id touched) grows.size_le, ?_⟩
  intro id index touched global declared now
  have inside := contained.inside id (Block.touches_whole touched)
  obtain ⟨other, was⟩ := Arena.exists_get? inside
  obtain rfl := Option.some.inj ((grows.get?_of_get? was).symm.trans now)
  rcases grows.globals.2 global with old | new
  · exact contained.counted id index touched old _ was
  · exact absurd inside (Nat.not_lt_of_le new)

end Block.Counted

namespace Merge

variable {used : List (String × Nat)} {leads : Variable → Prop} {names : List String}
  {stage : Stage} {shader : Shader}

/-- What holds while the units of a stage are being gathered in an executable: it declares what
leads, and counts what its functions use. -/
structure Gathered (used : List (String × Nat)) (leads : Variable → Prop) (names : List String)
    (stage : Stage) (shader : Shader) : Prop where
  sound : Sound (fun _ => True) stage shader
  known : ∀ name ∈ names, (shader.symbols.vars.get? name).isSome = true
  led : ∀ declared ∈ shader.declaredVariables, leads declared
  parameters : ∀ id, ∀ signature ∈ shader.signaturesOf id, ∀ parameter ∈ signature.parameters,
    parameter < shader.vars.size ∧ parameter ∉ shader.globals
  counted : ∀ id ∈ shader.declaredFunctions, ∀ signature ∈ shader.signaturesOf id,
    signature.body.Counted used shader

theorem Gathered.grows {source extended : Shader} {free : VariableId → Prop}
    (gathered : Gathered used leads names stage shader)
    (shares : ∀ id declared, free id → source.vars.get? id = some declared →
      declared.name ∉ names → leads declared)
    (grows : Shader.Grows source free shader extended) :
    Gathered used leads names stage extended := by
  induction grows with
  | refl => exact gathered
  | @tail middle last _ growth ih =>
      have one : Shader.Grows source free middle last := .single growth
      refine ⟨ih.sound.grows (fun _ _ => trivial) one, fun name listed => growth.known
        (ih.known name listed), fun declared listed => ?_,
        fun id signature listed parameter inside => ?_,
        fun id is_declared signature listed => ?_⟩
      · rcases growth.mem_declaredVariables ih.sound.coherent listed
          with old | ⟨unknown, id, origin⟩
        · exact ih.led declared old
        · refine shares id declared origin.1 origin.2 fun has_name => ?_
          have known := ih.known _ has_name
          rw [unknown] at known
          cases known
      · have old : signature ∈ middle.signaturesOf id →
            parameter < last.vars.size ∧ parameter ∉ last.globals := by
          intro was
          obtain ⟨bound, no_global⟩ := ih.parameters id signature was parameter inside
          refine ⟨Nat.lt_of_lt_of_le bound growth.size_le, fun global => ?_⟩
          rcases one.globals.2 global with before | beyond
          · exact no_global before
          · exact Nat.not_lt_of_le beyond bound
        rcases growth.signaturesOf id with same | ⟨same_globals, added, extended, announced⟩
        · exact old (same ▸ listed)
        · rw [extended] at listed
          rcases List.mem_append.mp listed with was | new
          · exact old was
          · rw [List.mem_singleton.mp new] at inside
            obtain ⟨above, below⟩ := announced.parameters parameter inside
            refine ⟨below, fun global => ?_⟩
            rw [same_globals] at global
            exact Nat.not_lt_of_le above (ih.sound.coherent.bound _ global)
      · have old : signature ∈ middle.signaturesOf id → signature.body.Counted used last := by
          intro was
          rcases growth.mem_declaredFunctions is_declared with declared_before | beyond
          · exact (ih.counted id declared_before signature was).grows one
          · rw [Shader.signaturesOf_eq_nil beyond] at was
            cases was
        rcases growth.signaturesOf id with same | ⟨_, added, extended, announced⟩
        · exact old (same ▸ listed)
        · rw [extended] at listed
          rcases List.mem_append.mp listed with was | new
          · exact old was
          · rw [List.mem_singleton.mp new, announced.body]
            exact .nil

/-! ## Cloning -/

theorem noMore_withoutFunctions (block : Block) : NoMore block.ownNodes
    (Block.ownNodes (Block.updateBlocks (List.filter CloneM.isNoFunction) block)) := by
  rw [Block.filter_eq_flatMap]
  let dropping : Simplification := ⟨fun _ => True, Eq⟩
  refine (@Block.shrinks_updateBlocks dropping _ (fun _ => rfl) (fun inner => ?_) block).noMore
  split
  · exact .keep
  · exact .drop fun _ _ => trivial

/-- What is shared by a unit or library: its uses are counted, and its declarations lead unless
their names are known. -/
structure Shares (used : List (String × Nat)) (leads : Variable → Prop) (names : List String)
    (source : Shader) : Prop where
  uses : ∀ use ∈ source.uses, use ∈ used
  leads : ∀ declared ∈ source.sharedVariables, declared.name ∉ names → leads declared

theorem Gathered.clone {source extended : Shader} {part : List VariableId × Block} {clone : Block}
    {renamed : List (VariableId × VariableId)} (gathered : Gathered used leads names stage shader)
    (shares : Shares used leads names source) (listed : part ∈ source.parts)
    (knows : part.1 ⊆ renamed.map (·.1))
    (counterparts : ∀ pair ∈ renamed, pair.2 < shader.vars.size ∧ pair.2 ∉ shader.globals)
    (runs : (CloneM.block source part.2).runOn shader renamed = .ok (clone, extended)) :
    Gathered used leads names stage extended ∧ clone.Counted used extended ∧
      ∃ free, Shader.Grows source free shader extended := by
  let free (id : VariableId) : Prop := id ∈ freeVariables part.1 (occurrences part.2.ownNodes)
  have first : DeclaredFirst free (renamed.map (·.1)) (occurrences part.2.ownNodes) :=
    declaredFirst_of_freeVariables knows fun _ is_free => is_free
  obtain ⟨final, rfl, copied, alike⟩ := CloneM.block_eq_ok gathered.sound.coherent first runs
  have grown := gathered.grows (fun id declared is_free found =>
    shares.leads declared (Shader.mem_sharedVariables.mpr
      ⟨id, Shader.shared_of_free listed is_free, found⟩)) copied.grows
  have given : ∀ id counterpart, (id, counterpart) ∈ final.renamed →
      counterpart < final.target.vars.size ∧ counterpart ∉ final.target.globals := by
    intro id counterpart inside
    obtain ⟨grows, fresh, news, -⟩ := copied
    rw [news.renamed] at inside
    rcases List.mem_append.mp inside with new | old
    · exact (news.new _ new).2
    · obtain ⟨bound, no_global⟩ := counterparts _ old
      refine ⟨Nat.lt_of_lt_of_le bound grows.size_le, fun global => ?_⟩
      rcases grows.globals.2 global with before | beyond
      · exact no_global before
      · exact Nat.not_lt_of_le beyond bound
  refine ⟨grown,
    ⟨fun counterpart touched => ?_, fun counterpart index touched global found there => ?_⟩,
    free, copied.grows⟩
  · obtain ⟨_, -, related⟩ := alike.touched touched
    cases related with
    | whole stands =>
        rcases stands with inside | ⟨-, global, -⟩
        · exact (given _ _ inside).1
        · exact grown.sound.coherent.bound _ global
  · obtain ⟨origin, in_origin, related⟩ := alike.touched touched
    cases related with
    | element stands =>
        rcases stands with inside | ⟨is_free, -, declared, entry, was, now, named⟩
        · exact absurd global (given _ _ inside).2
        · obtain rfl := Option.some.inj (now.symm.trans there)
          rw [named]
          exact shares.uses _ (Shader.mem_uses listed (Shader.shared_of_free listed is_free)
            ((noMore_withoutFunctions _).touches _ in_origin) was)

/-! ## Changing a body -/

theorem mem_signaturesOf_modifySignature {callee : Callee} {change : Signature → Signature}
    {id : FunctionId} {signature : Signature}
    (listed : signature ∈ (shader.modifySignature callee change).signaturesOf id) :
    signature ∈ shader.signaturesOf id ∨
      id = callee.function ∧ ∃ origin ∈ shader.signaturesOf id, signature = change origin := by
  simp only [Shader.signaturesOf, Shader.modifySignature, Arena.get?_modify] at listed ⊢
  cases found : shader.functions.get? id with
  | none => simp [found] at listed
  | some function =>
      by_cases here : callee.function = id
      · simp only [found, here, if_true, Option.map_some, Option.getD_some] at listed ⊢
        obtain ⟨position, at_position⟩ := List.mem_iff_getElem?.mp listed
        rw [List.getElem?_modify] at at_position
        obtain ⟨origin, was, equal⟩ := Option.map_eq_some_iff.mp at_position
        have origin_listed := List.mem_iff_getElem?.mpr ⟨position, was⟩
        split at equal
        · exact .inr ⟨trivial, origin, origin_listed, equal.symm⟩
        · exact .inl (equal ▸ origin_listed)
      · exact .inl (by simpa [found, here] using listed)

/-- A new body of a signature must be counted. -/
theorem Gathered.modifySignature (gathered : Gathered used leads names stage shader)
    (callee : Callee) {change : Signature → Signature}
    (parameters : ∀ signature, (change signature).parameters = signature.parameters)
    (counted : ∀ signature, signature.body.Counted used shader →
      (change signature).body.Counted used shader) :
    Gathered used leads names stage (shader.modifySignature callee change) := by
  have same_counted : ∀ block : Block, block.Counted used shader →
      block.Counted used (shader.modifySignature callee change) :=
    fun _ holds => ⟨holds.inside, holds.counted⟩
  refine ⟨gathered.sound.modifySignature callee change, gathered.known, gathered.led,
    fun id signature listed parameter inside => ?_, fun id is_declared signature listed => ?_⟩
  · rcases mem_signaturesOf_modifySignature listed with old | ⟨-, origin, was, rfl⟩
    · exact gathered.parameters id signature old parameter inside
    · rw [parameters] at inside
      exact gathered.parameters id origin was parameter inside
  · rcases mem_signaturesOf_modifySignature listed with old | ⟨-, origin, was, rfl⟩
    · exact same_counted _ (gathered.counted id is_declared signature old)
    · exact same_counted _ (counted origin (gathered.counted id is_declared origin was))

end Merge

/-! ## Resolving calls -/

namespace Shader

theorem parameterTypes_length {shader : Shader} {callee : Callee} {signature : Signature}
    {types : List Ty} (fetched : shader.fetchSignature callee = .ok signature)
    (typed : shader.parameterTypes callee = .ok types) :
    signature.parameters.length = types.length := by
  obtain ⟨again, fetched_again, gives⟩ := Checked.bind_eq_ok.mp typed
  obtain rfl := Except.ok.inj (fetched.symm.trans fetched_again)
  exact (Checked.mapM_eq_ok.mp gives).length_eq

end Shader

namespace Resolution

/-- A definition that is found in a library is one of its signatures and has as many parameters as
there are types. -/
theorem definitionIn_eq_some {library : Shader} {name : String} {types : List Ty}
    {definition : Signature} (found : definitionIn library name types = .ok (some definition)) :
    ∃ function, library.symbols.functions.get? name = some function ∧
      definition ∈ library.signaturesOf function ∧
      definition.parameters.length = types.length := by
  unfold definitionIn at found
  split at found
  · cases found
  · next function bound =>
      obtain ⟨answer, looks, following⟩ := Checked.bind_eq_ok.mp found
      cases answer with
      | none => cases following
      | some position =>
          have chosen := Checked.pure_eq_ok.mp following
          obtain ⟨there, -⟩ := Option.filter_eq_some_iff.mp chosen
          obtain ⟨entry, signature, held, at_position, typed⟩ := Shader.findSignature_eq_some looks
          have listed := List.mem_of_getElem? there
          rw [Shader.signaturesOf_eq held] at there
          obtain rfl := Option.some.inj (there.symm.trans at_position)
          exact ⟨function, bound, listed, Shader.length_of_typesOf typed⟩

end Resolution

namespace Merge

variable {used : List (String × Nat)} {leads : Variable → Prop} {names : List String}
  {stage : Stage} {shader : Shader}

theorem Gathered.define {library resolved : Shader} {target : Callee} {types : List Ty}
    {name : String} {definition : Signature} (gathered : Gathered used leads names stage shader)
    (shares : Shares used leads names library) (typed : shader.parameterTypes target = .ok types)
    (inside : Resolution.definitionIn library name types = .ok (some definition))
    (runs : Resolution.define shader target library definition = .ok resolved) :
    Gathered used leads names stage resolved := by
  obtain ⟨signature, fetched, following⟩ := Checked.bind_eq_ok.mp runs
  obtain ⟨⟨body, cloned⟩, clones, finish⟩ := Checked.bind_eq_ok.mp following
  obtain rfl := Checked.pure_eq_ok.mp finish
  obtain ⟨function, -, listed, definition_length⟩ := Resolution.definitionIn_eq_some inside
  have same_length : definition.parameters.length = signature.parameters.length := by
    rw [definition_length, Shader.parameterTypes_length fetched typed]
  have knows : definition.parameters ⊆
      (definition.parameters.zip signature.parameters).reverse.map (·.1) := by
    rw [List.map_reverse, List.map_fst_zip (Nat.le_of_eq same_length)]
    exact fun id here => List.mem_reverse.mpr here
  have counterparts : ∀ pair ∈ (definition.parameters.zip signature.parameters).reverse,
      pair.2 < shader.vars.size ∧ pair.2 ∉ shader.globals := by
    intro pair paired
    have of_target := List.mem_of_getElem? (Shader.fetchSignature_eq_ok.mp fetched)
    exact gathered.parameters _ _ of_target _ (List.of_mem_zip (List.mem_reverse.mp paired)).2
  obtain ⟨grown, counted, -⟩ :=
    gathered.clone shares (Shader.signature_part listed) knows counterparts clones
  exact grown.modifySignature target (fun _ => rfl) fun _ _ => counted

/-- Resolving calls from units and libraries that share only what is counted gathers them. -/
theorem Gathered.resolveCalls {libraries : List Shader} {result : Shader}
    (gathered : Gathered used leads names stage shader)
    (shares : ∀ library ∈ libraries, Shares used leads names library)
    (grants : (Resolution.resolveCalls libraries shader).Grants result) :
    Gathered used leads names stage result := by
  refine Resolution.resolveCalls_keeps (fun shader resolved so_far grants => ?_) gathered grants
  obtain ⟨_, _, _, library, _, -, typed, listed, inside, defines⟩ := Resolution.step_grants grants
  exact so_far.define (shares library listed) typed inside defines

/-! ## Moving statements -/

theorem Gathered.cloneStatements {units : List Shader} :
    ∀ {target extended : Shader} {cloned : Block}, Gathered used leads names stage target →
      (∀ unit ∈ units, Shares used leads names unit) →
      Merge.cloneStatements units target = .ok (cloned, extended) →
      Gathered used leads names stage extended ∧ cloned.Counted used extended ∧
        target.vars.size ≤ extended.vars.size ∧
        (∀ block : Block, block.Counted used target → block.Counted used extended) := by
  induction units with
  | nil =>
      intro target extended cloned gathered _ runs
      obtain ⟨rfl, rfl⟩ : [] = cloned ∧ target = extended := by
        simpa [Merge.cloneStatements] using runs
      exact ⟨gathered, .nil, Nat.le_refl _, fun _ counted => counted⟩
  | cons unit units ih =>
      intro target extended cloned gathered shares runs
      obtain ⟨first, later, halfway, rfl, clones, clones_later⟩ := cloneStatements_cons_eq_ok runs
      obtain ⟨grown, counted, free, grows⟩ :=
        gathered.clone (shares unit (List.mem_cons_self ..)) Shader.statements_part
          (List.nil_subset _) (by simp) clones
      obtain ⟨result, counted_later, larger, keeps⟩ :=
        ih grown (fun other listed => shares other (List.mem_cons_of_mem unit listed)) clones_later
      refine ⟨result, (keeps _ counted).append counted_later,
        Nat.le_trans grows.size_le larger, fun block was => keeps block (was.grows grows)⟩

end Merge

theorem Block.ownNodes_filter (keeps : Instruction → Bool) (block : Block) :
    ∀ node ∈ Block.ownNodes (block.filter keeps), node ∈ block.ownNodes := by
  induction block with
  | nil => exact fun _ listed => listed
  | cons instruction rest ih =>
      intro node listed
      rw [List.filter_cons] at listed
      rw [Block.ownNodes_cons, List.mem_append]
      split at listed
      · rw [Block.ownNodes_cons, List.mem_append] at listed
        exact listed.imp (fun here => here) (ih node)
      · exact .inr (ih node listed)

/-- The globals that are no temporaries. -/
def Shader.lastingVariables (shader : Shader) : List Variable :=
  shader.declaredVariables.filter (·.mode ≠ .temporary)

def Shader.ParametersApart (shader : Shader) : Prop :=
  ∀ function ∈ shader.functions.entries, ∀ signature ∈ function.signatures,
    ∀ parameter ∈ signature.parameters, parameter < shader.vars.size ∧ parameter ∉ shader.globals

instance (shader : Shader) : Decidable shader.ParametersApart :=
  inferInstanceAs (Decidable (∀ function ∈ shader.functions.entries,
    ∀ signature ∈ function.signatures, ∀ parameter ∈ signature.parameters,
      parameter < shader.vars.size ∧ parameter ∉ shader.globals))

theorem Shader.ParametersApart.of_signature {shader : Shader} (apart : shader.ParametersApart)
    {id : FunctionId} {signature : Signature} (listed : signature ∈ shader.signaturesOf id) :
    ∀ parameter ∈ signature.parameters,
      parameter < shader.vars.size ∧ parameter ∉ shader.globals := by
  cases found : shader.functions.get? id with
  | none => simp [signaturesOf, found] at listed
  | some function =>
      rw [signaturesOf_eq found] at listed
      exact apart function (Arena.mem_of_get? found) signature listed

namespace Merge

variable {used : List (String × Nat)} {leads : Variable → Prop} {stage : Stage}

theorem counted_part {main : Shader} (sound : main.NoProblems)
    (uses : ∀ use ∈ main.uses, use ∈ used) {known : List VariableId} {block : Block}
    (listed : (known, block) ∈ main.parts) (inside : ∀ node ∈ block.ownNodes, node ∈ main.nodes) :
    block.Counted used main := by
  constructor
  · intro id touched
    exact (sound.uses.1 id (inside _ (mem_touches_whole.mp touched))).1
  · intro id index touched global declared found
    exact uses _ (Shader.mem_uses listed (Shader.shared_of_global global) touched found)

/-- The main unit is gathered, with the statements of the others, when statements have moved. -/
theorem Gathered.of_main {main result : Shader} {others : List Shader}
    (has_main : main.mainSignature?.isSome = true) (of_stage : main.stage = stage)
    (sound : main.NoProblems) (distinct : (main.declaredVariables.map (·.name)).Nodup)
    (apart : main.ParametersApart) (uses : ∀ use ∈ main.uses, use ∈ used)
    (main_leads : ∀ declared ∈ main.lastingVariables, leads declared)
    (shares : ∀ unit ∈ others, Shares used leads (main.lastingVariables.map (·.name)) unit)
    (runs : moveStatements main others = .ok result) :
    Gathered used leads (main.lastingVariables.map (·.name)) stage result := by
  obtain ⟨callee, found⟩ := Option.isSome_iff_exists.mp has_main
  obtain ⟨bound, cloned, extended, clones, rfl⟩ := moveStatements_of_main found runs
  let bare : Shader := { main with topLevel := main.topLevel.filter (declaresGlobal main) }
  have fewer : bare.globals.Sublist main.globals := List.filter_sublist.filterMap _
  have fewer_functions : bare.declaredFunctions.Sublist main.declaredFunctions :=
    List.filter_sublist.filterMap _
  have bare_sound : Sound (fun _ => True) stage bare.populateSymbols := by
    have bare_bound : ∀ id ∈ bare.globals, id < bare.vars.size := fun id global =>
      bound id (fewer.subset global)
    refine ⟨of_stage, Shader.populateSymbols_coherent bare_bound, ⟨?_, bare_bound, ?_⟩,
      fun _ _ => trivial⟩
    · exact flat_declarations main main.topLevel
    · exact distinct.sublist ((fewer.filterMap _).map _)
  have lasting_of_bare : ∀ declared, declared ∈ bare.declaredVariables ↔
      declared ∈ main.lastingVariables := by
    intro declared
    rw [Shader.lastingVariables, List.mem_filter]
    simp only [Shader.mem_declaredVariables, Shader.mem_globals]
    constructor
    · rintro ⟨id, global, was⟩
      obtain ⟨listed, lasts⟩ := List.mem_filter.mp global
      refine ⟨⟨id, listed, was⟩, ?_⟩
      simpa [declaresGlobal, show main.vars.get? id = some declared from was] using lasts
    · rintro ⟨⟨id, listed, was⟩, lasts⟩
      refine ⟨id, List.mem_filter.mpr ⟨listed, ?_⟩, was⟩
      simpa [declaresGlobal, was] using lasts
  have counted_bare : ∀ block : Block, block.Counted used main →
      block.Counted used bare.populateSymbols := fun block counted =>
    ⟨counted.inside, fun id index touched global => counted.counted id index touched
      (fewer.subset global)⟩
  have gathered : Gathered used leads (main.lastingVariables.map (·.name)) stage
      bare.populateSymbols := by
    refine ⟨bare_sound, fun name listed => ?_, fun declared listed => ?_,
      fun id signature listed parameter inside => ?_, fun id is_declared signature listed => ?_⟩
    · obtain ⟨declared, lasts, rfl⟩ := List.mem_map.mp listed
      obtain ⟨id, global, was⟩ :=
        Shader.mem_declaredVariables.mp ((lasting_of_bare declared).mpr lasts)
      exact bare_sound.coherent.known id global declared was
    · exact main_leads declared ((lasting_of_bare declared).mp listed)
    · obtain ⟨below, no_global⟩ := apart.of_signature listed parameter inside
      exact ⟨below, fun global => no_global (fewer.subset global)⟩
    · have in_main : id ∈ main.declaredFunctions := fewer_functions.subset is_declared
      exact counted_bare _ (counted_part sound uses (Shader.signature_part listed)
        (Shader.nodes_of_body in_main listed))
  have statements_counted : main.statements.Counted used bare.populateSymbols :=
    counted_bare _ (counted_part sound uses Shader.statements_part fun node listed =>
      Block.nodes_of_own main.topLevel node (Block.ownNodes_filter _ _ node listed))
  obtain ⟨grown, cloned_counted, -, keeps⟩ := gathered.cloneStatements shares clones
  refine grown.modifySignature callee (fun _ => rfl) fun signature counted => ?_
  exact ((keeps _ statements_counted).append cloned_counted).append counted

end Merge
end StageLink
