import StageLink.Proofs.BodyNodes
import StageLink.Proofs.Gathering
import StageLink.Proofs.Lexical
import StageLink.Proofs.Libraries
import StageLink.Proofs.Problems
import StageLink.Proofs.Sharing

/-!
# Merging units with scopes

The units and libraries of a program have no problems and keep to their scopes.  What is cloned from
them then keeps to its scope in the executable, and what the main unit declares for its own
statements moves to `main` together with them, where it is shared with the other bodies of the unit.
-/

namespace StageLink
namespace Shader

/-- A unit or library that has no problems and dereferences variables where they are in scope: those
declared in a list only inside that list, and parameters only in the body of their signature. -/
structure WellScoped (shader : Shader) : Prop where
  sound : shader.problems = []
  parameters : ∀ id ∈ shader.declaredFunctions, ∀ signature ∈ shader.signaturesOf id,
    ∀ parameter ∈ signature.parameters, parameter < shader.vars.size
  on_top : shader.FunctionsOnTop
  called : ∀ callee ∈ callees shader.nodes, callee.function ∈ shader.declaredFunctions
  statements : shader.topLevel.loose = []
  bodies : ∀ id ∈ shader.declaredFunctions, ∀ signature ∈ shader.signaturesOf id,
    ∀ loose ∈ signature.body.loose, loose ∉ declaredIn signature.body.ownNodes ∧
      (loose ∈ shader.globals ∨ loose ∈ signature.parameters)
  populated : shader.Populated

variable {shader : Shader} {block : Block} {id : VariableId}

/-- Splitting a list in two splits what is declared in it. -/
theorem declaredIn_filter_perm (keeps : Instruction → Bool) (block : Block) :
    (declaredIn (Block.ownNodes (block.filter keeps)) ++
      declaredIn (Block.ownNodes (block.filter (!keeps ·)))).Perm (declaredIn block.ownNodes) := by
  have flattened : ∀ part : Block, declaredIn part.ownNodes =
      part.flatMap fun instruction => declaredIn (instruction.nodes fun _ => []) := by
    intro part
    induction part with
    | nil => rfl
    | cons instruction rest ih => rw [Block.ownNodes_cons, declaredIn_append, ih, List.flatMap_cons]
  rw [flattened, flattened, flattened, ← List.flatMap_append]
  exact (List.filter_append_perm keeps block).flatMap_right _

namespace WellScoped

theorem noProblems (proper : shader.WellScoped) : shader.NoProblems :=
  problems_eq_nil.mp proper.sound

theorem bound (proper : shader.WellScoped) (listed : id ∈ declaredIn shader.topLevel.ownNodes) :
    id < shader.vars.size :=
  proper.noProblems.bound id
    (mem_declaredIn.mpr (Block.nodes_of_own _ _ (mem_declaredIn.mp listed)))

theorem coherent (proper : shader.WellScoped) : shader.Coherent :=
  proper.populated.coherent fun _ global => proper.bound (Block.declared_subset _ global)

theorem main (proper : shader.WellScoped) :
    shader.symbols.functions.get? "main" = shader.lastNamed "main" := by
  rw [proper.populated.functions, populateSymbols_function]

theorem knowsMain (proper : shader.WellScoped) : shader.KnowsMain :=
  fun _ bound => proper.main.symm.trans bound

theorem declaresCalls (proper : shader.WellScoped) : shader.DeclaresCalls :=
  ⟨proper.on_top, proper.called⟩

theorem declaresOnce (proper : shader.WellScoped) : shader.DeclaresOnce :=
  declaresOnce_of_nodup proper.on_top proper.noProblems.distinct

theorem bound_of_body (proper : shader.WellScoped) {callee : Callee} {signature : Signature}
    (is_declared : callee.function ∈ shader.declaredFunctions) (there : shader.At callee signature)
    (listed : id ∈ declaredIn signature.body.ownNodes) : id < shader.vars.size :=
  proper.noProblems.bound id (mem_declaredIn.mpr
    (nodes_of_body is_declared (List.mem_of_getElem? there) _ (mem_declaredIn.mp listed)))

theorem global_of_loose (proper : shader.WellScoped)
    (listed : id ∈ Block.looseOfAll shader.topLevel) :
    id ∈ shader.globals := by
  by_contra outside
  have is_loose : id ∈ shader.topLevel.loose := Block.mem_loose.mpr ⟨listed, outside⟩
  rw [proper.statements] at is_loose
  cases is_loose

theorem adorn (proper : shader.WellScoped) (blocks : List UniformBlock) (layout : GeometryLayout) :
    WellScoped { shader with uniformBlocks := blocks, geometry := layout } where
  sound := problems_eq_nil.mpr (proper.noProblems.congr rfl rfl rfl)
  parameters := proper.parameters
  on_top := (proper.declaresCalls.adorn blocks layout).on_top
  called := (proper.declaresCalls.adorn blocks layout).calls
  statements := proper.statements
  bodies := proper.bodies
  populated := by
    let adorned : Shader := { shader with uniformBlocks := blocks, geometry := layout }
    have same : adorned.populateSymbols.symbols = shader.populateSymbols.symbols :=
      @enterSymbols_congr shader adorned rfl rfl shader.topLevel {}
    have populated := proper.populated
    exact ⟨fun name => (populated.vars name).trans (by rw [same]),
      fun name => (populated.functions name).trans (by rw [same])⟩

end WellScoped

/-- Whether the shader has no problems and keeps to its scopes, apart from its symbol table. -/
def isWellScoped (shader : Shader) : Bool :=
  shader.problems.isEmpty && isFunctionFree (shader.topLevel.filter CloneM.isNoFunction) &&
    (callees shader.nodes).all (shader.declaredFunctions.contains ·.function) &&
    shader.topLevel.loose.isEmpty &&
    shader.declaredFunctions.all fun id => (shader.signaturesOf id).all fun signature =>
      signature.parameters.all (· < shader.vars.size) && isFunctionFree signature.body &&
        signature.body.loose.all fun loose =>
          !(declaredIn signature.body.ownNodes).contains loose &&
          (shader.globals.contains loose || signature.parameters.contains loose)

theorem wellScoped_of_check (check : shader.isWellScoped = true) (populated : shader.Populated) :
    shader.WellScoped := by
  simp only [isWellScoped, Bool.and_eq_true, Bool.or_eq_true, List.isEmpty_iff, List.all_eq_true,
    List.contains_iff_mem, Bool.not_eq_true', decide_eq_true_eq] at check
  obtain ⟨⟨⟨⟨sound, statements⟩, called⟩, top_loose⟩, functions⟩ := check
  refine ⟨sound, fun id is_declared signature listed =>
    (functions id is_declared signature listed).1.1,
    ⟨functionFree_of_check statements, fun id is_declared signature listed =>
      functionFree_of_check (functions id is_declared signature listed).1.2⟩,
    called, top_loose, fun id is_declared signature listed loose is_loose => ?_, populated⟩
  obtain ⟨outside, known⟩ := (functions id is_declared signature listed).2 loose is_loose
  exact ⟨by simpa using outside, known⟩

end Shader

namespace Merge

open Shader

variable {unit target extended : Shader} {id : VariableId} {entry : Callee} {body : Block}
  {reserved shared : List VariableId}

/-! ## Statements at the top level -/

theorem declared_lasting_or_statement (global : id ∈ unit.globals) :
    id ∈ (lastingOf unit).declared ∨ id ∈ (statementsOf unit).declared := by
  have there := mem_globals.mp global
  simp only [Block.mem_declared, lastingOf, statementsOf, List.mem_filter, there, true_and]
  cases declaresGlobal unit (.declare id) <;> simp

theorem looseOfAll_statements (listed : id ∈ Block.looseOfAll (statementsOf unit)) :
    id ∈ Block.looseOfAll unit.topLevel := by
  obtain ⟨instruction, there, inside⟩ := Block.mem_looseOfAll.mp listed
  exact Block.mem_looseOfAll.mpr ⟨instruction, (List.mem_filter.mp there).1, inside⟩

theorem jumps_filter {inLoop : Bool} (keeps : Instruction → Bool) {block : Block}
    (none_before : Block.orphanedJumps inLoop block = []) :
    Block.orphanedJumps inLoop (block.filter keeps) = [] := by
  induction block with
  | nil => rfl
  | cons instruction rest ih =>
      rw [Block.orphanedJumps, List.append_eq_nil_iff] at none_before
      rw [List.filter_cons]
      split
      · rw [Block.orphanedJumps, none_before.1, ih none_before.2]
        rfl
      · exact ih none_before.2

/-- What is declared at the top level stays there or moves. -/
theorem statements_perm (unit : Shader) :
    ((lastingOf unit).declared ++ declaredIn (statementsOf unit).ownNodes).Perm
      (declaredIn unit.topLevel.ownNodes) := by
  have flat : (lastingOf unit).Flat := flat_declarations unit unit.topLevel
  rw [← Block.declaredIn_flat flat]
  exact declaredIn_filter_perm (declaresGlobal unit) unit.topLevel

theorem once_statements (proper : unit.WellScoped) :
    ((lastingOf unit).declared ++ declaredIn (statementsOf unit).ownNodes).Nodup :=
  (statements_perm unit).nodup_iff.mpr proper.declaresOnce.top

theorem free_statements (proper : unit.WellScoped) : (statementsOf unit).FunctionFree := by
  intro id listed
  obtain ⟨instruction, there, inner⟩ := Block.mem_ownNodes.mp listed
  obtain ⟨in_top, kept⟩ := List.mem_filter.mp there
  refine proper.on_top.statements id (Block.mem_ownNodes.mpr ⟨instruction, ?_, inner⟩)
  refine List.mem_filter.mpr ⟨in_top, ?_⟩
  cases instruction <;> first | rfl | cases kept

/-- What is loose in the statements is declared at the top level for good. -/
theorem loose_statements (proper : unit.WellScoped) (listed : id ∈ (statementsOf unit).loose) :
    id ∈ (lastingOf unit).declared ∧ id ∉ declaredIn (statementsOf unit).ownNodes := by
  obtain ⟨inside, outside⟩ := Block.mem_loose.mp listed
  have lasting := (declared_lasting_or_statement
    (proper.global_of_loose (looseOfAll_statements inside))).resolve_right outside
  refine ⟨lasting, fun declared_too => ?_⟩
  exact (List.nodup_append.mp (once_statements proper)).2.2 id lasting id declared_too rfl

theorem jumps_statements (proper : unit.WellScoped) :
    Block.orphanedJumps false (statementsOf unit) = [] :=
  jumps_filter _ proper.noProblems.jumps

/-! ## Cloning the statements -/

/-- The statements of a unit with scopes have their scopes in the executable, too. -/
theorem cloned_statements {part : Block} (coherent : target.Coherent) (proper : unit.WellScoped)
    (runs : (CloneM.block unit (statementsOf unit)).runOn target [] = .ok (part, extended)) :
    Grows unit (fun _ => True) target extended ∧ (declaredIn part.ownNodes).Nodup ∧
      (∀ id ∈ declaredIn part.ownNodes, target.vars.size ≤ id ∧ id < extended.vars.size ∧
        id ∉ extended.globals) ∧
      Block.orphanedJumps false part = [] ∧ ∀ id ∈ part.loose, id ∈ extended.globals := by
  obtain ⟨final, rfl, copied, alike⟩ :=
    CloneM.block_eq_ok coherent (declaredFirst_of_free (fun _ => .inr trivial) _) runs
  rw [Block.withoutFunctions_of_free _ (free_statements proper)] at alike
  obtain ⟨distinct, new⟩ := CloneM.new_of_copied copied
  have once := (List.nodup_append.mp (once_statements proper)).2.1
  refine ⟨copied.grows, distinct, new, alike.jumps.trans (jumps_statements proper),
    fun id listed => ?_⟩
  have known := CloneM.loose_of_copied copied alike once
    (fun _ is_loose => (loose_statements proper is_loose).2) (by simp) id listed
  simpa using known

/-- The statements of units with scopes have their scopes in the executable, too, and what they
declare there is reserved. -/
theorem cloneStatements_lexical {units : List Shader} :
    ∀ {target extended : Shader} {cloned : Block} {reserved : List VariableId}, target.Coherent →
      target.Lexical reserved shared → (∀ unit ∈ units, unit.WellScoped) →
      cloneStatements units target = .ok (cloned, extended) →
      extended.Coherent ∧ extended.Lexical (declaredIn cloned.ownNodes ++ reserved) shared ∧
        Block.orphanedJumps false cloned = [] ∧ (∀ id ∈ cloned.loose, id ∈ extended.globals) ∧
        (∀ id ∈ target.globals, id ∈ extended.globals) ∧
        ∀ {entry body}, Opens target entry body → Opens extended entry body := by
  induction units with
  | nil =>
      intro target extended cloned reserved coherent lexical _ runs
      obtain ⟨rfl, rfl⟩ : [] = cloned ∧ target = extended := by simpa [cloneStatements] using runs
      exact ⟨coherent, lexical, rfl, fun _ listed => (by cases listed), fun _ global => global, id⟩
  | cons unit units ih =>
      intro target extended cloned reserved coherent lexical proper runs
      obtain ⟨first, later, halfway, rfl, clones, clones_later⟩ := cloneStatements_cons_eq_ok runs
      have unit_proper := proper unit (List.mem_cons_self ..)
      obtain ⟨grows, distinct, new, jumps, loose⟩ := cloned_statements coherent unit_proper clones
      obtain ⟨reached_coherent, reached_lexical, later_jumps, later_loose, globals, opens⟩ :=
        ih (grows.coherent coherent) (lexical.reserve grows distinct new)
          (fun other listed => proper other (List.mem_cons_of_mem unit listed)) clones_later
      refine ⟨reached_coherent, reached_lexical.perm ?_, ?_, fun id listed => ?_,
        fun id global => globals id (grows.globals.1 global), fun was => opens (was.grows grows)⟩
      · rw [Block.ownNodes_append, declaredIn_append, ← List.append_assoc]
        exact List.perm_append_comm.append_right _
      · rw [Block.orphanedJumps_append, jumps, later_jumps]
        rfl
      · exact (Block.loose_append listed).elim (fun early => globals id (loose id early))
          (later_loose id)

/-! ## The main unit -/

/-- The main unit without its statements keeps to its scopes, and what the statements declare is
reserved for `main`. -/
theorem bare_lexical (proper : unit.WellScoped) (functions : unit.declaredFunctions.Nodup) :
    ({ unit with topLevel := lastingOf unit } : Shader).populateSymbols.Lexical
      (declaredIn (statementsOf unit).ownNodes) (statementsOf unit).declared := by
  have declared : ({ unit with topLevel := lastingOf unit } : Shader).declaredFunctions =
      unit.declaredFunctions := declaredFunctions_filter unit
  have split := statements_perm unit
  have among : ∀ {id}, id ∈ declaredIn (statementsOf unit).ownNodes ++ (lastingOf unit).declared ↔
      id ∈ declaredIn unit.topLevel.ownNodes :=
    (List.perm_append_comm.trans split).mem_iff
  have once := proper.declaresOnce
  refine ⟨?_, ?_, (List.perm_append_comm.trans split).nodup_iff.mpr once.top,
    fun id listed => proper.bound (among.mp listed), fun {callee signature} is_declared there => ?_,
    fun {one other _ _} is_declared other_declared there other_there => ?_⟩
  · exact declared ▸ functions
  · exact fun id is_declared => proper.noProblems.functions id (declared ▸ is_declared)
  · have was_declared : callee.function ∈ unit.declaredFunctions := declared ▸ is_declared
    have was : unit.At callee signature := there
    have listed := List.mem_of_getElem? was
    obtain ⟨distinct, apart⟩ := once.body was_declared was
    refine ⟨proper.parameters _ was_declared signature listed, distinct, fun id local_to => ?_,
      proper.noProblems.body_jumps _ was_declared signature listed, fun id is_loose => ?_⟩
    · exact ⟨proper.bound_of_body was_declared was local_to,
        fun known => apart id local_to (among.mp known)⟩
    · rcases (proper.bodies _ was_declared signature listed id is_loose).2 with global | parameter
      · exact (declared_lasting_or_statement global).imp_right .inr
      · exact .inr (.inl parameter)
  · exact once.apart (declared ▸ is_declared) (declared ▸ other_declared) there other_there

/-- Moving the statements of units with scopes to `main` gives an executable with scopes, in which
`main` shares what the statements of the main unit declare. -/
theorem moveStatements_lexical {main merged : Shader} {others : List Shader}
    (has_main : main.mainSignature? = some entry) (main_first : main.MainFirst)
    (proper : main.WellScoped) (functions : main.declaredFunctions.Nodup)
    (others_proper : ∀ unit ∈ others, unit.WellScoped)
    (runs : moveStatements main others = .ok merged) :
    merged.Coherent ∧ merged.Lexical [] (statementsOf main).declared ∧
      ∃ body, Opens merged entry body ∧ (statementsOf main).declared ⊆ body.declared := by
  obtain ⟨bound, cloned, extended, clones, rfl⟩ := moveStatements_of_main has_main runs
  have coherent :=
    (draft_of_declaresCalls has_main proper.declaresCalls proper.knowsMain bound).coherent
  obtain ⟨extended_coherent, lexical, cloned_jumps, cloned_loose, globals, opens⟩ :=
    cloneStatements_lexical coherent (bare_lexical proper functions) others_proper clones
  obtain ⟨signature, -, opens_bare⟩ := opens_of_main has_main main_first proper.main
  refine ⟨coherent_modifySignature extended_coherent _ _,
    lexical.modifySignature (fun _ => rfl) fun {own} is_declared there => ?_, _,
    (opens opens_bare).prepend (statementsOf main ++ cloned), ?_⟩
  · have houses := lexical.houses is_declared there
    obtain ⟨reserved_once, -, -⟩ := List.nodup_append.mp lexical.once
    refine ⟨?_, fun id listed => ?_, ?_, fun id listed => ?_⟩
    · rw [Block.ownNodes_append, Block.ownNodes_append, declaredIn_append, declaredIn_append,
        List.nodup_append]
      refine ⟨List.perm_append_comm.nodup_iff.mp reserved_once, houses.once, ?_⟩
      rintro id moved _ listed rfl
      exact (houses.new id listed).2
        (List.mem_append_left _ (List.perm_append_comm.mem_iff.mp moved))
    · rw [Block.ownNodes_append, Block.ownNodes_append, declaredIn_append, declaredIn_append,
        List.mem_append] at listed
      exact listed.imp_left List.perm_append_comm.mem_iff.mp
    · have own_jumps := houses.jumps
      have main_jumps := jumps_statements proper
      simp only [Block.orphanedJumps_append, cloned_jumps, own_jumps, List.append_nil]
      exact main_jumps
    · rcases Block.loose_append listed with moved | own_loose
      · rcases Block.loose_append moved with of_main | of_others
        · exact .inl (globals id (loose_statements proper of_main).1)
        · exact .inl (cloned_loose id of_others)
      · exact houses.loose id own_loose
  · rw [Block.declared_append, Block.declared_append, List.append_assoc]
    exact List.subset_append_left _ _

end Merge

/-! ## Definitions from libraries -/

namespace Resolution

open Shader

variable {shader library resolved : Shader} {target : Callee} {definition : Signature}
  {shared : List VariableId}

theorem define_lexical {name : String} {types : List Ty} (coherent : shader.Coherent)
    (lexical : shader.Lexical [] shared) (proper : library.WellScoped)
    (inside : definitionIn library name types = .ok (some definition))
    (runs : define shader target library definition = .ok resolved) :
    resolved.Lexical [] shared := by
  obtain ⟨function, bound, listed, -⟩ := definitionIn_eq_some inside
  obtain ⟨is_declared, -⟩ := proper.coherent.function_of bound
  obtain ⟨position, defined⟩ := List.mem_iff_getElem?.mp listed
  have definition_there : library.At ⟨function, position⟩ definition := defined
  obtain ⟨announced, body, final, there, copied, alike, rfl⟩ := define_eq_ok coherent runs
  rw [Block.withoutFunctions_of_free _
    (proper.on_top.bodies function is_declared definition listed)] at alike
  obtain ⟨distinct, new⟩ := CloneM.new_of_copied copied
  refine (lexical.reserve copied.grows distinct new).modifySignature (fun _ => rfl)
    fun {signature} target_declared target_there => ?_
  obtain rfl := target_there.unique ((at_grows copied.grows).1 there)
  -- The announcement has been there before, so its parameters come before all copies.
  have parameters : ∀ id ∈ signature.parameters, id < shader.vars.size := by
    rcases copied.grows.mem_declaredFunctions target_declared with was_declared | beyond
    · exact (lexical.houses was_declared there).parameters
    · rw [At, signaturesOf_eq_nil beyond] at there
      cases there
  refine ⟨distinct, fun id copy => .inl (List.mem_append_left _ copy), ?_, fun id is_loose => ?_⟩
  · exact alike.jumps.trans (proper.noProblems.body_jumps function is_declared definition listed)
  · have pairs : ∀ pair ∈ (definition.parameters.zip signature.parameters).reverse,
        pair.2 ∈ signature.parameters := fun pair paired =>
      (List.of_mem_zip (List.mem_reverse.mp paired)).2
    rcases CloneM.loose_of_copied copied alike
      (proper.declaresOnce.body is_declared definition_there).1
      (fun id loose => (proper.bodies function is_declared definition listed id loose).1)
      (fun pair paired => parameters _ (pairs pair paired)) id is_loose with global | given
    · exact .inl global
    · obtain ⟨pair, paired, rfl⟩ := List.mem_map.mp given
      exact .inr (.inl (pairs pair paired))

theorem resolveCalls_lexical {libraries : List Shader} (coherent : shader.Coherent)
    (lexical : shader.Lexical [] shared) (proper : ∀ library ∈ libraries, library.WellScoped)
    (grants : (resolveCalls libraries shader).Grants resolved) : resolved.Lexical [] shared := by
  refine (@resolveCalls_keeps libraries (fun now => now.Coherent ∧ now.Lexical [] shared) ?_ _ _
    ⟨coherent, lexical⟩ grants).2
  rintro now next ⟨now_coherent, now_lexical⟩ steps_once
  obtain ⟨_, _, _, library, _, -, -, listed, inside, defines⟩ := step_grants steps_once
  exact ⟨define_coherent now_coherent defines,
    define_lexical now_coherent now_lexical (proper library listed) inside defines⟩

end Resolution
end StageLink
