import StageLink.Clone
import StageLink.Proofs.Keys
import StageLink.Proofs.Names
import Mathlib.Logic.Relation

/-!
# Growth of a shader

While instructions are cloned into a shader, the shader only grows, and it does so in four ways: it
gets a copy of a variable of the source, declared or not, it declares a function, or it announces a
signature with copies of its parameters.  Its symbol table goes on saying what its names stand for.
-/

namespace StageLink

namespace Arena

variable {Entry : Type}

theorem get?_push (arena : Arena Entry) (entry : Entry) (position : Nat) :
    (arena.push entry).get? position =
      if position = arena.size then some entry else arena.get? position := by
  split
  · next last => rw [last, get?_push_size]
  · next other =>
      by_cases inside : position < arena.size
      · exact get?_push_of_lt arena entry inside
      · have beyond : arena.size ≤ position := Nat.le_of_not_lt inside
        rw [(arena.get?_eq_none_iff position).mpr beyond, get?_eq_none_iff, size_push]
        omega

/-- Add some entries at the end. -/
def append (arena : Arena Entry) (entries : List Entry) : Arena Entry := ⟨arena.entries ++ entries⟩

@[simp]
theorem size_append (arena : Arena Entry) (entries : List Entry) :
    (arena.append entries).size = arena.size + entries.length := by
  simp [append, size]

theorem get?_append_of_lt (arena : Arena Entry) (entries : List Entry) {position : Nat}
    (inside : position < arena.size) :
    (arena.append entries).get? position = arena.get? position := by
  simp [append, get?,
    List.getElem?_append_left (show position < arena.entries.length from inside)]

theorem get?_append_size (arena : Arena Entry) (entries : List Entry) (offset : Nat) :
    (arena.append entries).get? (arena.size + offset) = entries[offset]? := by
  rw [get?, append, size, List.getElem?_append_right (Nat.le_add_right ..), Nat.add_sub_cancel_left]

end Arena

namespace Shader

theorem mem_declaredFunctions {shader : Shader} {id : FunctionId} :
    id ∈ shader.declaredFunctions ↔ Instruction.function id ∈ shader.topLevel := by
  simp only [declaredFunctions, List.mem_filterMap]
  constructor
  · rintro ⟨instruction, listed, chosen⟩
    cases instruction <;> simp_all
  · intro listed
    exact ⟨.function id, listed, rfl⟩

/-- The symbol table knows the names declared at the top level, and says what they stand for. -/
structure Coherent (shader : Shader) : Prop where
  bound : ∀ id ∈ shader.globals, id < shader.vars.size
  known : ∀ id ∈ shader.globals, ∀ declared, shader.vars.get? id = some declared →
    (shader.symbols.vars.get? declared.name).isSome = true
  variable_of : ∀ {name id}, shader.symbols.vars.get? name = some id →
    id ∈ shader.globals ∧ ∃ declared, shader.vars.get? id = some declared ∧ declared.name = name
  function_of : ∀ {name id}, shader.symbols.functions.get? name = some id →
    id ∈ shader.declaredFunctions ∧
      ∃ function, shader.functions.get? id = some function ∧ function.name = name

/-! ## Growing -/

/-- Add a variable that has no name among the globals yet as the first declaration. -/
def declareFirst (shader : Shader) (declared : Variable) : Shader :=
  { shader with
    vars := shader.vars.push declared
    topLevel := .declare shader.vars.size :: shader.topLevel
    symbols := shader.symbols.addVariable declared.name shader.vars.size }

/-- Announce a signature of a function whose parameters are given by their declarations. -/
def announce (shader : Shader) (id : FunctionId) (function : Function) (returnType : Ty)
    (isBuiltin : Bool) (parameters : List Variable) : Shader :=
  { shader with
    vars := shader.vars.append parameters
    functions := shader.functions.modify id fun _ =>
      { function with
        signatures := function.signatures ++
          [{ returnType := returnType
             parameters := List.range' shader.vars.size parameters.length
             isBuiltin := isBuiltin }] } }

/-- A signature of the source that the target lacks, to be announced as one of a function with
copies of its parameters. -/
structure Lacks (source target : Shader) (id : FunctionId) (function : Function)
    (signature : Signature) (parameters : List Variable) : Prop where
  origin : ∃ callee name, source.HasKey callee name (parameters.map (·.ty)) ∧
    source.At callee signature ∧ target.symbols.functions.get? name = some id
  found : target.functions.get? id = some function
  is_declared : id ∈ target.declaredFunctions
  copied : List.Forall₂ (fun id declared => source.vars.get? id = some declared)
    signature.parameters parameters
  lacking : target.findSignature id (parameters.map (·.ty)) = .ok none

/-- One step in which a shader grows by something from the source, whose free variables may become
globals. -/
inductive Growth (source : Shader) (free : VariableId → Prop) : Shader → Shader → Prop
  /-- A copy of a variable that is not declared at the top level. -/
  | copy {target id declared} : source.vars.get? id = some declared →
      Growth source free target (target.addVariable declared).1
  /-- A new global. -/
  | global {target id declared} : free id → source.vars.get? id = some declared →
      target.symbols.vars.get? declared.name = none →
      Growth source free target (target.declareFirst declared)
  | function {target name} : target.symbols.functions.get? name = none →
      Growth source free target (target.declareFunction name).1
  | announce {target id function signature parameters} :
      Lacks source target id function signature parameters →
      Growth source free target
        (target.announce id function signature.returnType signature.isBuiltin parameters)

/-- A number of steps in which a shader grows. -/
abbrev Grows (source : Shader) (free : VariableId → Prop) : Shader → Shader → Prop :=
  Relation.ReflTransGen (Growth source free)

namespace Growth

variable {source before after : Shader} {free : VariableId → Prop}

/-- Variables keep their positions. -/
theorem get?_of_get? (growth : Growth source free before after) {id : VariableId}
    {declared : Variable} (found : before.vars.get? id = some declared) :
    after.vars.get? id = some declared := by
  have inside := Arena.lt_of_get? found
  cases growth with
  | copy _ => exact (Arena.get?_push_of_lt _ _ inside).trans found
  | global _ _ _ => exact (Arena.get?_push_of_lt _ _ inside).trans found
  | function unknown =>
      simp only [declareFunction, unknown]
      exact found
  | announce _ => exact (Arena.get?_append_of_lt _ _ inside).trans found

/-- What holds of all variables of the source and of the target holds of those of the grown
target. -/
theorem all_vars {holds : Variable → Prop} (growth : Growth source free before after)
    (in_source : ∀ declared ∈ source.vars.entries, holds declared)
    (in_target : ∀ declared ∈ before.vars.entries, holds declared) :
    ∀ declared ∈ after.vars.entries, holds declared := by
  have one_more : ∀ {id new}, source.vars.get? id = some new →
      ∀ declared ∈ before.vars.entries ++ [new], holds declared := by
    intro id new found declared listed
    rcases List.mem_append.mp listed with old | last
    · exact in_target declared old
    · rw [List.mem_singleton.mp last]
      exact in_source _ (Arena.mem_of_get? found)
  cases growth with
  | copy found => exact one_more found
  | global _ found _ => exact one_more found
  | function unknown =>
      simp only [declareFunction, unknown]
      exact in_target
  | announce lacks =>
      intro declared listed
      rcases List.mem_append.mp listed with old | new
      · exact in_target declared old
      · obtain ⟨id, -, found⟩ := exists_of_forall₂ lacks.copied new
        exact in_source declared (Arena.mem_of_get? found)

theorem stage (growth : Growth source free before after) : after.stage = before.stage := by
  cases growth with
  | function unknown => simp [declareFunction, unknown]
  | _ => rfl

theorem uniformBlocks (growth : Growth source free before after) :
    after.uniformBlocks = before.uniformBlocks := by
  cases growth with
  | function unknown => simp [declareFunction, unknown]
  | _ => rfl

/-- A new global comes first, and its name has been unknown. -/
theorem globals (growth : Growth source free before after) :
    after.globals = before.globals ∨
      ∃ declared, after.globals = before.vars.size :: before.globals ∧
        after.vars.get? before.vars.size = some declared ∧
        (∃ id, free id ∧ source.vars.get? id = some declared) ∧
        before.symbols.vars.get? declared.name = none := by
  cases growth with
  | copy _ => exact .inl rfl
  | @global id declared is_free found unknown =>
      exact .inr ⟨declared, rfl, Arena.get?_push_size _ _, ⟨id, is_free, found⟩, unknown⟩
  | function unknown =>
      refine .inl ?_
      simp [declareFunction, unknown, Shader.globals]
  | announce _ => exact .inl rfl

theorem flat (growth : Growth source free before after) (before_flat : before.topLevel.Flat) :
    after.topLevel.Flat := by
  cases growth with
  | copy _ => exact before_flat
  | global _ _ _ =>
      intro instruction listed
      rcases List.mem_cons.mp listed with rfl | old
      · rfl
      · exact before_flat instruction old
  | function unknown =>
      simp only [declareFunction, unknown]
      intro instruction listed
      rcases List.mem_append.mp listed with old | new
      · exact before_flat instruction old
      · rw [List.mem_singleton.mp new]
        rfl
  | announce _ => exact before_flat

/-- Among the same globals the symbol table stays coherent, if it goes on saying what functions
are. -/
theorem coherent_of_same_globals (before_coherent : before.Coherent)
    (globals : after.globals = before.globals) (symbols : after.symbols.vars = before.symbols.vars)
    (keeps : ∀ {id declared}, before.vars.get? id = some declared →
      after.vars.get? id = some declared)
    (function_of : ∀ {name id}, after.symbols.functions.get? name = some id →
      id ∈ after.declaredFunctions ∧
        ∃ function, after.functions.get? id = some function ∧ function.name = name) :
    after.Coherent := by
  have found_before : ∀ {id}, id ∈ after.globals → ∃ declared,
      before.vars.get? id = some declared ∧ after.vars.get? id = some declared := by
    intro id global
    obtain ⟨declared, found⟩ := Arena.exists_get? (before_coherent.bound id (globals ▸ global))
    exact ⟨declared, found, keeps found⟩
  refine ⟨fun id global => ?_, fun id global declared now => ?_, fun {name id} bound => ?_,
    function_of⟩
  · obtain ⟨declared, -, now⟩ := found_before global
    exact Arena.lt_of_get? now
  · obtain ⟨entry, found, there⟩ := found_before global
    obtain rfl := Option.some.inj (there.symm.trans now)
    rw [symbols]
    exact before_coherent.known id (globals ▸ global) entry found
  · rw [symbols] at bound
    obtain ⟨global, entry, was, named⟩ := before_coherent.variable_of bound
    exact ⟨globals ▸ global, entry, keeps was, named⟩

/-- A new first declaration is what its name stands for. -/
theorem coherent_declareFirst {target : Shader} (target_coherent : target.Coherent)
    (declared : Variable) : (target.declareFirst declared).Coherent := by
  refine ⟨?_, ?_, ?_, target_coherent.function_of⟩
  · intro other global
    rcases List.mem_cons.mp global with rfl | old
    · simp [declareFirst]
    · simpa [declareFirst] using Nat.lt_succ_of_lt (target_coherent.bound other old)
  · intro other global entry now
    simp only [declareFirst, SymbolTable.addVariable, NameTable.get?_insert]
    split
    · rfl
    · rcases List.mem_cons.mp global with rfl | old
      · next differs =>
          obtain rfl : declared = entry :=
            Option.some.inj ((Arena.get?_push_size _ _).symm.trans now)
          exact absurd rfl differs
      · have inside := target_coherent.bound other old
        exact target_coherent.known other old entry
          ((Arena.get?_push_of_lt _ _ inside).symm.trans now)
  · intro name other bound
    simp only [declareFirst, SymbolTable.addVariable, NameTable.get?_insert] at bound
    split at bound
    · next same =>
        obtain rfl := Option.some.inj bound
        exact ⟨List.mem_cons_self .., declared, Arena.get?_push_size _ _, same.symm⟩
    · obtain ⟨global, entry, was, named⟩ := target_coherent.variable_of bound
      exact ⟨List.mem_cons_of_mem _ global, entry,
        (Arena.get?_push_of_lt _ _ (Arena.lt_of_get? was)).trans was, named⟩

theorem coherent (growth : Growth source free before after) (before_coherent : before.Coherent) :
    after.Coherent := by
  have keeps : ∀ {id declared}, before.vars.get? id = some declared →
      after.vars.get? id = some declared := growth.get?_of_get?
  cases growth with
  | copy _ =>
      exact coherent_of_same_globals before_coherent rfl rfl keeps before_coherent.function_of
  | global _ _ _ => exact coherent_declareFirst before_coherent _
  | @function name unknown =>
      simp only [declareFunction, unknown] at keeps ⊢
      refine coherent_of_same_globals before_coherent (by simp [Shader.globals]) rfl keeps ?_
      intro other id bound
      simp only [SymbolTable.addFunction, NameTable.get?_insert] at bound
      split at bound
      · next same =>
          obtain rfl := Option.some.inj bound
          exact ⟨by simp [mem_declaredFunctions], ⟨name, []⟩, Arena.get?_push_size _ _, same.symm⟩
      · obtain ⟨listed, function, was, named⟩ := before_coherent.function_of bound
        refine ⟨?_, function, ?_, named⟩
        · rw [mem_declaredFunctions] at listed ⊢
          exact List.mem_append_left _ listed
        · exact (Arena.get?_push_of_lt _ _ (Arena.lt_of_get? was)).trans was
  | @announce id function signature parameters lacks =>
      refine coherent_of_same_globals before_coherent rfl rfl keeps ?_
      intro name other bound
      obtain ⟨listed, entry, was, named⟩ := before_coherent.function_of bound
      refine ⟨listed, _, by rw [Shader.announce, Arena.get?_modify, was]; rfl, ?_⟩
      by_cases same : id = other
      · subst same
        obtain rfl : function = entry := Option.some.inj (lacks.found.symm.trans was)
        simpa using named
      · simpa [same] using named

/-- A name stays known. -/
theorem known (growth : Growth source free before after) {name : String}
    (known_before : (before.symbols.vars.get? name).isSome = true) :
    (after.symbols.vars.get? name).isSome = true := by
  cases growth with
  | global _ _ _ =>
      simp only [Shader.declareFirst, SymbolTable.addVariable, NameTable.get?_insert]
      split
      · rfl
      · exact known_before
  | function unknown =>
      simp only [declareFunction, unknown]
      exact known_before
  | _ => exact known_before

/-- A variable that has come to be declared has come from a free variable of the source whose name
has been unknown. -/
theorem mem_declaredVariables (growth : Growth source free before after)
    (before_coherent : before.Coherent) {declared : Variable}
    (listed : declared ∈ after.declaredVariables) :
    declared ∈ before.declaredVariables ∨ before.symbols.vars.get? declared.name = none ∧
      ∃ id, free id ∧ source.vars.get? id = some declared := by
  obtain ⟨id, global, now⟩ := Shader.mem_declaredVariables.mp listed
  have old : id ∈ before.globals → declared ∈ before.declaredVariables := by
    intro was_global
    obtain ⟨other, found⟩ := Arena.exists_get? (before_coherent.bound id was_global)
    obtain rfl := Option.some.inj ((growth.get?_of_get? found).symm.trans now)
    exact Shader.mem_declaredVariables.mpr ⟨id, was_global, found⟩
  rcases growth.globals with same | ⟨added, extended, found, origin, unknown⟩
  · exact .inl (old (same ▸ global))
  · rw [extended] at global
    rcases List.mem_cons.mp global with rfl | was_global
    · obtain rfl := Option.some.inj (found.symm.trans now)
      exact .inr ⟨unknown, origin⟩
    · exact .inl (old was_global)

theorem tidy (growth : Growth source free before after) (before_coherent : before.Coherent)
    (before_tidy : before.Tidy) : after.Tidy := by
  refine ⟨growth.flat before_tidy.flat, (growth.coherent before_coherent).bound, ?_⟩
  have same_before : before.globals.filterMap after.vars.get? = before.declaredVariables := by
    refine List.filterMap_congr fun id global => ?_
    obtain ⟨declared, found⟩ := Arena.exists_get? (before_tidy.bound id global)
    rw [found, growth.get?_of_get? found]
  rcases growth.globals with same | ⟨declared, extended, found, -, unknown⟩
  · rw [declaredVariables, same, same_before]
    exact before_tidy.distinct
  · rw [declaredVariables, extended, List.filterMap_cons_some found, same_before, List.map_cons,
      List.nodup_cons]
    refine ⟨fun listed => ?_, before_tidy.distinct⟩
    obtain ⟨other, declared_before, named⟩ := List.mem_map.mp listed
    obtain ⟨id, global, was⟩ := Shader.mem_declaredVariables.mp declared_before
    have known := before_coherent.known id global other was
    rw [named, unknown] at known
    cases known

theorem size_le (growth : Growth source free before after) :
    before.vars.size ≤ after.vars.size := by
  cases growth with
  | copy _ => simp [addVariable]
  | global _ _ _ => simp [Shader.declareFirst]
  | function unknown => simp [declareFunction, unknown]
  | announce _ => simp [Shader.announce]

/-- Functions keep their positions and signatures, and may get more. -/
theorem signatures (growth : Growth source free before after) {id : FunctionId}
    {function : Function} (found : before.functions.get? id = some function) :
    ∃ grown, after.functions.get? id = some grown ∧ grown.name = function.name ∧
      function.signatures <+: grown.signatures := by
  cases growth with
  | function unknown =>
      simp only [declareFunction, unknown]
      exact ⟨function, (Arena.get?_push_of_lt _ _ (Arena.lt_of_get? found)).trans found, rfl,
        List.prefix_refl _⟩
  | @announce other entry signature parameters lacks =>
      refine ⟨_, by rw [Shader.announce, Arena.get?_modify, found]; rfl, ?_⟩
      by_cases same : other = id
      · subst same
        obtain rfl : entry = function := Option.some.inj (lacks.found.symm.trans found)
        simp
      · simp [same]
  | _ => exact ⟨function, found, rfl, List.prefix_refl _⟩

theorem declaredFunctions (growth : Growth source free before after) {id : FunctionId}
    (listed : id ∈ before.declaredFunctions) : id ∈ after.declaredFunctions := by
  cases growth with
  | global _ _ _ => exact listed
  | function unknown =>
      rw [mem_declaredFunctions] at listed ⊢
      simp only [declareFunction, unknown]
      exact List.mem_append_left _ listed
  | _ => exact listed

theorem functions_size_le (growth : Growth source free before after) :
    before.functions.size ≤ after.functions.size := by
  cases growth with
  | function unknown => simp [declareFunction, unknown]
  | announce _ => simp [Shader.announce]
  | _ => exact Nat.le_refl _

theorem mem_declaredFunctions (growth : Growth source free before after) {id : FunctionId}
    (listed : id ∈ after.declaredFunctions) :
    id ∈ before.declaredFunctions ∨ before.functions.size ≤ id := by
  cases growth with
  | global _ _ _ => exact .inl listed
  | function unknown =>
      simp only [declareFunction, unknown, Shader.mem_declaredFunctions, List.mem_append,
        List.mem_singleton, Instruction.function.injEq] at listed
      rcases listed with old | new
      · exact .inl (Shader.mem_declaredFunctions.mpr old)
      · exact .inr (Nat.le_of_eq new.symm)
  | _ => exact .inl listed

end Growth

/-- A signature that is only announced, with parameters that are variables between two sizes of the
arena. -/
structure Announced (from_size to_size : Nat) (signature : Signature) : Prop where
  body : signature.body = []
  undefined : signature.isDefined = false
  parameters : ∀ id ∈ signature.parameters, from_size ≤ id ∧ id < to_size

theorem Announced.mono {from_size to_size lower upper : Nat} {signature : Signature}
    (announced : Announced from_size to_size signature) (below : lower ≤ from_size)
    (above : to_size ≤ upper) : Announced lower upper signature :=
  ⟨announced.body, announced.undefined, fun id listed =>
    ⟨Nat.le_trans below (announced.parameters id listed).1,
      Nat.lt_of_lt_of_le (announced.parameters id listed).2 above⟩⟩

theorem signaturesOf_eq_nil {shader : Shader} {id : FunctionId}
    (outside : shader.functions.size ≤ id) : shader.signaturesOf id = [] := by
  simp [signaturesOf, (shader.functions.get?_eq_none_iff id).mpr outside]

/-- The signatures that a function has gained are announced with new parameters, and in that case
there is no new global. -/
theorem Growth.signaturesOf {source before after : Shader} {free : VariableId → Prop}
    (growth : Growth source free before after) (id : FunctionId) :
    after.signaturesOf id = before.signaturesOf id ∨ after.globals = before.globals ∧
      ∃ signature, after.signaturesOf id = before.signaturesOf id ++ [signature] ∧
        Announced before.vars.size after.vars.size signature := by
  have unchanged : after.functions.get? id = before.functions.get? id →
      after.signaturesOf id = before.signaturesOf id := fun same => by
    simp [Shader.signaturesOf, same]
  cases growth with
  | copy _ => exact .inl rfl
  | global _ _ _ => exact .inl rfl
  | @function name unknown =>
      left
      simp only [Shader.signaturesOf, declareFunction, unknown, Arena.get?_push]
      split
      · next new => simp [(before.functions.get?_eq_none_iff id).mpr (Nat.le_of_eq new.symm)]
      · rfl
  | @announce other function signature parameters lacks =>
      by_cases here : other = id
      · subst here
        refine .inr ⟨rfl, { returnType := signature.returnType
                            parameters := List.range' before.vars.size parameters.length
                            isBuiltin := signature.isBuiltin }, ?_, rfl, rfl,
                              fun parameter inside => ?_⟩
        · simp [Shader.signaturesOf, Shader.announce, Arena.get?_modify, lacks.found]
        · obtain ⟨offset, below, rfl⟩ := List.mem_range'.mp inside
          exact ⟨by simp, by simpa [Shader.announce] using below⟩
      · refine .inl (unchanged ?_)
        rw [Shader.announce, Arena.get?_modify]
        cases before.functions.get? id <;> simp [here]

namespace Grows

variable {source before after : Shader} {free : VariableId → Prop}

theorem get?_of_get? (grows : Grows source free before after) {id : VariableId}
    {declared : Variable} (found : before.vars.get? id = some declared) :
    after.vars.get? id = some declared := by
  induction grows with
  | refl => exact found
  | tail _ growth ih => exact growth.get?_of_get? ih

theorem size_le (grows : Grows source free before after) : before.vars.size ≤ after.vars.size := by
  induction grows with
  | refl => exact Nat.le_refl _
  | tail _ growth ih => exact Nat.le_trans ih growth.size_le

theorem coherent (grows : Grows source free before after) (before_coherent : before.Coherent) :
    after.Coherent := by
  induction grows with
  | refl => exact before_coherent
  | tail _ growth ih => exact growth.coherent ih

theorem tidy (grows : Grows source free before after) (before_coherent : before.Coherent)
    (before_tidy : before.Tidy) : after.Tidy := by
  induction grows with
  | refl => exact before_tidy
  | tail so_far growth ih =>
      exact growth.tidy (coherent so_far before_coherent) ih

theorem uniformBlocks (grows : Grows source free before after) :
    after.uniformBlocks = before.uniformBlocks := by
  induction grows with
  | refl => rfl
  | tail _ growth ih => exact growth.uniformBlocks.trans ih

theorem stage (grows : Grows source free before after) : after.stage = before.stage := by
  induction grows with
  | refl => rfl
  | tail _ growth ih => exact growth.stage.trans ih

theorem all_vars {holds : Variable → Prop} (grows : Grows source free before after)
    (in_source : ∀ declared ∈ source.vars.entries, holds declared)
    (in_target : ∀ declared ∈ before.vars.entries, holds declared) :
    ∀ declared ∈ after.vars.entries, holds declared := by
  induction grows with
  | refl => exact in_target
  | tail _ growth ih => exact growth.all_vars in_source ih

/-- Globals stay, and the new ones are new variables. -/
theorem globals (grows : Grows source free before after) {id : VariableId} :
    (id ∈ before.globals → id ∈ after.globals) ∧
      (id ∈ after.globals → id ∈ before.globals ∨ before.vars.size ≤ id) := by
  induction grows with
  | refl => exact ⟨fun listed => listed, .inl⟩
  | @tail middle last so_far growth ih =>
      have larger := size_le so_far
      rcases growth.globals with same | ⟨_, extended, -⟩
      · rw [same]
        exact ih
      · rw [extended, List.mem_cons]
        refine ⟨fun listed => .inr (ih.1 listed), ?_⟩
        rintro (rfl | later)
        · exact .inr larger
        · exact ih.2 later

theorem declaredFunctions (grows : Grows source free before after) {id : FunctionId}
    (listed : id ∈ before.declaredFunctions) : id ∈ after.declaredFunctions := by
  induction grows with
  | refl => exact listed
  | tail _ growth ih => exact growth.declaredFunctions ih

theorem functions_size_le (grows : Grows source free before after) :
    before.functions.size ≤ after.functions.size := by
  induction grows with
  | refl => exact Nat.le_refl _
  | tail _ growth ih => exact Nat.le_trans ih growth.functions_size_le

theorem mem_declaredFunctions (grows : Grows source free before after) {id : FunctionId}
    (listed : id ∈ after.declaredFunctions) :
    id ∈ before.declaredFunctions ∨ before.functions.size ≤ id := by
  induction grows with
  | refl => exact .inl listed
  | @tail middle last so_far growth ih =>
      rcases growth.mem_declaredFunctions listed with old | new
      · exact ih old
      · exact .inr (Nat.le_trans (functions_size_le so_far) new)

/-- The signatures that a function has gained are announced with new parameters. -/
theorem signaturesOf (grows : Grows source free before after) (id : FunctionId) :
    ∃ more, after.signaturesOf id = before.signaturesOf id ++ more ∧
      ∀ signature ∈ more, Announced before.vars.size after.vars.size signature := by
  induction grows with
  | refl => exact ⟨[], by simp, by simp⟩
  | tail so_far growth ih =>
      obtain ⟨more, equal, announced⟩ := ih
      have early : ∀ signature ∈ more, Announced _ _ signature := fun signature listed =>
        (announced signature listed).mono (Nat.le_refl _) growth.size_le
      rcases growth.signaturesOf id with same | ⟨-, added, extended, announced_now⟩
      · exact ⟨more, by rw [same, equal], early⟩
      · refine ⟨more ++ [added], by rw [extended, equal, List.append_assoc], ?_⟩
        intro signature listed
        rcases List.mem_append.mp listed with before | now
        · exact early signature before
        · rw [List.mem_singleton.mp now]
          exact announced_now.mono (size_le so_far) (Nat.le_refl _)

end Grows

/-! ## Callees -/

theorem typesOf_append (shader : Shader) (parameters : List Variable) :
    { shader with vars := shader.vars.append parameters }.typesOf
      (List.range' shader.vars.size parameters.length) = .ok (parameters.map (·.ty)) := by
  refine typesOf_eq_ok.mpr (List.forall₂_iff_get.mpr ⟨by simp, fun offset inside _ => ?_⟩)
  rw [List.length_range'] at inside
  refine ⟨parameters[offset], ?_, by simp⟩
  have there := shader.vars.get?_append_size parameters offset
  rw [List.getElem?_eq_getElem inside] at there
  simpa using there

theorem Lacks.finds {source target : Shader} {id : FunctionId} {function : Function}
    {signature : Signature} {parameters : List Variable} {name : String}
    (lacks : Lacks source target id function signature parameters)
    (bound : target.symbols.functions.get? name = some id) :
    (target.announce id function signature.returnType signature.isBuiltin parameters).Finds name
      (parameters.map (·.ty)) ⟨id, function.signatures.length⟩ := by
  refine ⟨bound, ?_⟩
  have keeps : KeepsVariables target
      (target.announce id function signature.returnType signature.isBuiltin parameters) :=
    fun _ _ found => (Arena.get?_append_of_lt _ _ (Arena.lt_of_get? found)).trans found
  have nothing := lacks.lacking
  rw [findSignature_eq lacks.found] at nothing
  rw [findSignature_eq (by rw [announce, Arena.get?_modify, lacks.found]; rfl)]
  simp only [if_pos]
  rw [findSignatureFrom_append_of_none (findSignatureFrom_keeps keeps nothing),
    findSignatureFrom_cons, matchesTypes_iff.mpr (typesOf_append target parameters), Nat.zero_add]
  rfl

section Growing

variable {source before after : Shader} {free : VariableId → Prop} {callee : Callee} {name : String}
  {types : List Ty}

theorem Growth.keepsVariables (growth : Growth source free before after) :
    KeepsVariables before after := fun _ _ => growth.get?_of_get?

theorem HasKey.growth (has : before.HasKey callee name types)
    (growth : Growth source free before after) :
    after.HasKey callee name types := by
  obtain ⟨function, signature, found, named, there, typed⟩ := has
  obtain ⟨grown, found_grown, same, more, longer⟩ := growth.signatures found
  refine ⟨grown, signature, found_grown, same.trans named, ?_,
    typesOf_keeps growth.keepsVariables typed⟩
  rw [← longer, List.getElem?_append_left (List.getElem?_eq_some_iff.mp there).1]
  exact there

/-- What a name stands for does not change. -/
theorem Growth.functionNamed {id : FunctionId} (growth : Growth source free before after)
    (bound : before.symbols.functions.get? name = some id) :
    after.symbols.functions.get? name = some id := by
  cases growth with
  | @function other unknown =>
      simp only [declareFunction, unknown, SymbolTable.addFunction]
      have different : name ≠ other := by
        rintro rfl
        rw [unknown] at bound
        cases bound
      rw [NameTable.get?_insert_other _ _ different]
      exact bound
  | _ => exact bound

theorem Grows.functionNamed {id : FunctionId} (grows : Grows source free before after)
    (bound : before.symbols.functions.get? name = some id) :
    after.symbols.functions.get? name = some id := by
  induction grows with
  | refl => exact bound
  | tail _ growth ih => exact growth.functionNamed ih

theorem Finds.growth (finds : before.Finds name types callee)
    (growth : Growth source free before after) :
    after.Finds name types callee := by
  obtain ⟨bound, found⟩ := finds
  refine ⟨growth.functionNamed bound, ?_⟩
  obtain ⟨function, -, held, -⟩ := findSignature_eq_some found
  obtain ⟨grown, held_grown, -, more, longer⟩ := growth.signatures held
  rw [findSignature_eq held] at found
  rw [findSignature_eq held_grown, ← longer]
  exact findSignatureFrom_append (findSignatureFrom_keeps growth.keepsVariables found)

/-- A signature of the grown shader has been there, or has been announced. -/
theorem at_grows (grows : Grows source free before after) {signature : Signature} :
    (before.At callee signature → after.At callee signature) ∧
      (after.At callee signature → before.At callee signature ∨
        Announced before.vars.size after.vars.size signature) := by
  obtain ⟨more, extended, announced⟩ := grows.signaturesOf callee.function
  simp only [At, extended]
  constructor
  · intro there
    rw [List.getElem?_append_left (List.getElem?_eq_some_iff.mp there).1]
    exact there
  · intro there
    by_cases inside : callee.signature < (before.signaturesOf callee.function).length
    · rw [List.getElem?_append_left inside] at there
      exact .inl there
    · rw [List.getElem?_append_right (Nat.le_of_not_lt inside)] at there
      exact .inr (announced signature (List.mem_of_getElem? there))

theorem HasKey.grows (has : before.HasKey callee name types)
    (grows : Grows source free before after) :
    after.HasKey callee name types := by
  induction grows with
  | refl => exact has
  | tail _ growth ih => exact ih.growth growth

theorem Finds.grows (finds : before.Finds name types callee)
    (grows : Grows source free before after) :
    after.Finds name types callee := by
  induction grows with
  | refl => exact finds
  | tail _ growth ih => exact ih.growth growth

theorem Finds.hasKey {shader : Shader} (finds : shader.Finds name types callee)
    (coherent : shader.Coherent) : shader.HasKey callee name types := by
  obtain ⟨bound, found⟩ := finds
  obtain ⟨function, signature, held, there, typed⟩ := findSignature_eq_some found
  obtain ⟨-, named, held_named, same⟩ := coherent.function_of bound
  obtain rfl : function = named := Option.some.inj (held.symm.trans held_named)
  exact ⟨function, signature, held, same, there, typed⟩

end Growing

def HasCallee (shader : Shader) (callee : Callee) : Prop :=
  callee.function ∈ shader.declaredFunctions ∧
    ∃ function, shader.functions.get? callee.function = some function ∧
      callee.signature < function.signatures.length

theorem Finds.hasCallee {shader : Shader} {callee : Callee} {name : String} {types : List Ty}
    (finds : shader.Finds name types callee) (coherent : shader.Coherent) :
    shader.HasCallee callee := by
  obtain ⟨bound, found⟩ := finds
  obtain ⟨function, signature, held, there, -⟩ := findSignature_eq_some found
  exact ⟨(coherent.function_of bound).1, function, held, (List.getElem?_eq_some_iff.mp there).1⟩

end Shader
end StageLink
