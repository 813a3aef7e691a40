import StageLink.Proofs.Drafts
import StageLink.Proofs.Lasting
import StageLink.Proofs.Slots
import StageLink.Proofs.Repeating

/-!
# Connected executables

The executables of a link that succeeds can run by themselves and have no recursion, and `main`
comes to call every signature in them: merging makes them self-contained, optimizing removes what
nothing calls where there is no recursion, and later phases and compaction change no calls.
-/

namespace StageLink
namespace Shader

variable {before after : Shader}

/-! ## Compaction -/

def Moves (before : Shader) (one other : Callee) : Prop :=
  one.function ∈ before.declaredFunctions ∧ before.compaction.calls one other

namespace Moves

variable {one two other : Callee}

theorem function (moves : before.Moves one other) :
    before.compaction.functions one.function other.function := moves.2.1

theorem injective (first : before.Moves one other) (second : before.Moves two other) :
    one = two := by
  obtain ⟨row, -⟩ := row_of_declared first.1 first.function
  obtain ⟨row_too, -⟩ := row_of_declared second.1 second.function
  have same_function : one.function = two.function :=
    @Arena.compact_injective _ _ before.functions _ _ _ row row_too
  have same_signature : one.signature = two.signature := first.2.2.symm.trans second.2.2
  cases one
  cases two
  simp_all

theorem unique (first : before.Moves other one) (second : before.Moves other two) : one = two := by
  have same_function : one.function = two.function :=
    Except.ok.inj (Eq.trans (Eq.symm first.function) second.function)
  have same_signature : one.signature = two.signature := first.2.2.trans second.2.2.symm
  cases one
  cases two
  simp_all

end Moves

namespace Compacted

variable {one other : Callee} {signature carried : Signature}

theorem signaturesOf (compacted : Compacted before after) {id moved : FunctionId}
    (is_declared : id ∈ before.declaredFunctions) (moves : before.compaction.functions id moved) :
    List.Forall₂ (SignatureMoved before.compaction) (before.signaturesOf id)
      (after.signaturesOf moved) := by
  obtain ⟨function, changed, found, found_now, related⟩ := compacted.function_of is_declared moves
  rw [signaturesOf_eq found, signaturesOf_eq found_now]
  exact related.signatures

theorem rel_at (compacted : Compacted before after) (moves : before.Moves one other) :
    Option.Rel (SignatureMoved before.compaction)
      (before.signaturesOf one.function)[one.signature]?
      (after.signaturesOf other.function)[other.signature]? := by
  rw [moves.2.2]
  exact rel_getElem? (compacted.signaturesOf moves.1 moves.function) one.signature

theorem at_moved (compacted : Compacted before after) (moves : before.Moves one other)
    (there : before.At one signature) :
    ∃ carried, after.At other carried ∧ SignatureMoved before.compaction signature carried :=
  exists_of_rel (there ▸ compacted.rel_at moves)

theorem at_origin (compacted : Compacted before after) (moves : before.Moves one other)
    (there : after.At other carried) :
    ∃ signature, before.At one signature ∧ SignatureMoved before.compaction signature carried :=
  exists_of_rel_some (there ▸ compacted.rel_at moves)

theorem exists_moves (compacted : Compacted before after)
    (is_declared : one.function ∈ before.declaredFunctions) :
    ∃ other, before.Moves one other ∧ other.function ∈ after.declaredFunctions := by
  obtain ⟨moved, listed, moves⟩ := exists_of_forall₂ compacted.declaredFunctions.flip is_declared
  exact ⟨⟨moved, one.signature⟩, ⟨is_declared, moves, rfl⟩, listed⟩

theorem moves_origin (compacted : Compacted before after)
    (is_declared : other.function ∈ after.declaredFunctions) : ∃ one, before.Moves one other := by
  obtain ⟨id, listed, moves⟩ := exists_of_forall₂ compacted.declaredFunctions is_declared
  exact ⟨⟨id, other.signature⟩, listed, moves, rfl⟩

theorem carries (compacted : Compacted before after) (contained : before.SelfContained) :
    Carries before.Moves before after where
  injective := Moves.injective
  there := by
    intro one other signature moves is_declared there
    obtain ⟨carried, now, related⟩ := compacted.at_moved moves there
    obtain ⟨other', moves', now_declared⟩ := compacted.exists_moves is_declared
    obtain rfl := moves.unique moves'
    exact ⟨now_declared, carried, now, by rw [related.same]⟩
  back := by
    intro other carried is_declared there
    obtain ⟨one, moves⟩ := compacted.moves_origin is_declared
    obtain ⟨signature, was, related⟩ := compacted.at_origin moves there
    refine ⟨one, signature, moves, moves.1, was, by rw [related.same],
      fun free => free.alike related.body, fun callee listed => ?_⟩
    obtain ⟨original, called, same⟩ := exists_of_forall₂ related.body.callees listed
    have invokes : before.Invokes one original := ⟨moves.1, signature, was, called⟩
    exact ⟨original, called, (contained.settled invokes).1, same⟩

theorem named (compacted : Compacted before after) {id other : FunctionId}
    (is_declared : id ∈ before.declaredFunctions) (moves : before.compaction.functions id other)
    (name : String) : after.isNamed name other = before.isNamed name id := by
  obtain ⟨function, changed, found, found_now, related⟩ := compacted.function_of is_declared moves
  simp [isNamed, found, found_now, related.name]

theorem lastNamed (compacted : Compacted before after) {name : String} {id : FunctionId}
    (last : before.lastNamed name = some id) : ∃ other, after.lastNamed name = some other ∧
      id ∈ before.declaredFunctions ∧ before.compaction.functions id other := by
  have declared : List.Forall₂ (fun id other => id ∈ before.declaredFunctions ∧
      before.compaction.functions id other) before.declaredFunctions after.declaredFunctions :=
    (List.forall₂_and_left _ _).mpr ⟨fun _ listed => listed, compacted.declaredFunctions⟩
  have filtered := List.rel_filter (p := before.isNamed name) (q := after.isNamed name)
    (fun id other moves => by simp only [compacted.named moves.1 moves.2]) declared
  have related :=
    rel_getElem? filtered ((before.declaredFunctions.filter (before.isNamed name)).length - 1)
  rw [← List.getLast?_eq_getElem?] at related
  rw [Shader.lastNamed] at last
  rw [last, filtered.length_eq, ← List.getLast?_eq_getElem?] at related
  exact exists_of_rel related

theorem hasMain (compacted : Compacted before after) {main : Callee} (has : before.HasMain main) :
    ∃ moved, before.Moves main moved ∧ after.HasMain moved := by
  obtain ⟨other, last, is_declared, moves⟩ := compacted.lastNamed has.last
  refine ⟨⟨other, main.signature⟩, ⟨is_declared, moves, rfl⟩, ?_, last, ?_⟩
  · obtain ⟨renumbered, rfl⟩ := compacted.rebuilt
    exact (populateSymbols_function "main").trans last
  · refine (findIdx?_of_forall₂ (fun one other related => ?_)
      (compacted.signaturesOf is_declared moves)).trans has.entry
    have as_many := related.parameters.length_eq
    rw [isEntry, isEntry, related.same, Bool.eq_iff_iff]
    simp [← List.length_eq_zero_iff, as_many]

theorem selfContained (compacted : Compacted before after) (contained : before.SelfContained) :
    after.SelfContained := by
  obtain ⟨main, has⟩ := contained.main
  obtain ⟨moved, -, has_moved⟩ := compacted.hasMain has
  exact (compacted.carries contained).selfContained contained
    (flat_alike compacted.topLevel contained.flat) ⟨moved, has_moved⟩

theorem live (compacted : Compacted before after) {main moved : Callee}
    (moves : before.Moves main moved) (live : before.Live main) : after.Live moved := by
  intro callee carried is_declared there
  obtain ⟨one, moves_here⟩ := compacted.moves_origin is_declared
  obtain ⟨signature, was, -⟩ := compacted.at_origin moves_here there
  rcases live moves_here.1 was with rfl | ⟨caller, caller_declared, calling, caller_there, called⟩
  · exact .inl (moves_here.unique moves)
  · obtain ⟨caller_moved, caller_moves, now_declared⟩ := compacted.exists_moves caller_declared
    obtain ⟨carried_caller, caller_now, related⟩ := compacted.at_moved caller_moves caller_there
    obtain ⟨target, called_now, same⟩ := exists_of_forall₂ related.body.callees.flip called
    obtain rfl := moves_here.unique ⟨moves_here.1, same⟩
    exact .inr ⟨caller_moved, now_declared, carried_caller, caller_now, called_now⟩

/-- Compacting keeps a shader connected. -/
theorem connected (compacted : Compacted before after) (connected : before.Connected) :
    after.Connected := by
  obtain ⟨main, has, live⟩ := connected.live
  obtain ⟨moved, moves, has_moved⟩ := compacted.hasMain has
  exact ⟨compacted.selfContained connected.contained,
    (compacted.carries connected.contained).acyclic connected.acyclic,
    moved, has_moved, compacted.live moves live⟩

/-- Every function that is left is declared. -/
theorem declared (compacted : Compacted before after) {id : FunctionId}
    (inside : id < after.functions.size) : id ∈ after.declaredFunctions := by
  obtain ⟨function, found⟩ := Arena.exists_get? inside
  obtain ⟨origin, was_declared, moves⟩ := compacted.function_origin found
  obtain ⟨other, listed, moves_too⟩ :=
    exists_of_forall₂ compacted.declaredFunctions.flip was_declared
  obtain rfl : other = id := Except.ok.inj (Eq.trans (Eq.symm moves_too) moves)
  exact listed

end Compacted

/-! ## Calls between all signatures -/

def Calls (shader : Shader) (caller callee : Callee) : Prop :=
  ∃ signature, shader.At caller signature ∧ callee ∈ callees signature.body.ownNodes

/-- The calls of a shader are sound: what is called is defined, there is no recursion, and there is
a defined `main` that comes to call every signature. -/
structure SoundCalls (shader : Shader) : Prop where
  defined : ∀ body ∈ shader.bodies, ∀ callee ∈ callees (Block.ownNodes body),
    ∃ signature, shader.At callee signature ∧ signature.isDefined = true
  acyclic : ∀ callee, ¬ Relation.TransGen shader.Calls callee callee
  main : ∃ main signature, shader.mainSignature? = some main ∧
    shader.isNamed "main" main.function = true ∧ shader.At main signature ∧
    signature.isDefined = true ∧ ∀ callee other, shader.At callee other →
      Relation.ReflTransGen shader.Calls main callee

theorem Connected.soundCalls {shader : Shader} (connected : shader.Connected)
    (declared : ∀ {id}, id < shader.functions.size → id ∈ shader.declaredFunctions) :
    shader.SoundCalls := by
  have declared_at : ∀ {callee signature}, shader.At callee signature →
      callee.function ∈ shader.declaredFunctions := by
    intro callee signature there
    obtain ⟨function, found, -⟩ := there.function
    exact declared (Arena.lt_of_get? found)
  have same : shader.Calls = shader.Invokes := by
    funext caller callee
    exact propext ⟨fun ⟨signature, there, called⟩ => ⟨declared_at there, signature, there, called⟩,
      And.right⟩
  obtain ⟨main, has, live⟩ := connected.live
  obtain ⟨signature, there, is_entry⟩ := has.exists_at
  refine ⟨fun body listed callee called => ?_, fun callee cycle => ?_, main, signature,
    has.mainSignature?, has.named.2, there, (Bool.and_eq_true_iff.mp is_entry).2,
    fun callee other there => ?_⟩
  · rcases mem_bodies.mp listed with rfl | ⟨id, caller, in_signatures, rfl⟩
    · rw [callees_flat connected.contained.flat] at called
      cases called
    · obtain ⟨position, held⟩ := List.mem_iff_getElem?.mp in_signatures
      have at_caller : shader.At ⟨id, position⟩ caller := held
      have invokes : shader.Invokes ⟨id, position⟩ callee := same ▸ ⟨caller, at_caller, called⟩
      exact (connected.contained.settled invokes).2
  · rw [same] at cycle
    exact connected.acyclic callee cycle
  · rw [same]
    exact reachable_of_live connected.acyclic live ⟨declared_at there, other, there⟩

theorem Recast.connected (recast : Recast Eq before after) (connected : before.Connected) :
    after.Connected := by
  obtain ⟨main, has, live⟩ := connected.live
  exact ⟨recast.noNewCalls.selfContained connected.contained,
    recast.noNewCalls.carries.acyclic connected.acyclic, main, recast.hasMain has, recast.live live⟩

end Shader

/-! ## Linking -/

namespace Linking

open Shader

/-- Every stage is merged into an executable that can run by itself. -/
theorem merges_selfContained {program : Program} (limits : Limits)
    (called : ∀ unit ∈ program.units, unit.shader.DeclaresCalls)
    (known : ∀ unit ∈ program.units, unit.shader.KnowsMain) (stage : Stage) (version : Nat)
    (shader : Shader) (grants : (Merge.link stage version limits
      (program.units.filter (·.shader.stage = stage))).Grants shader) : shader.SelfContained :=
  Merge.link_selfContained (fun unit listed => called unit (List.mem_filter.mp listed).1)
    (fun unit listed => known unit (List.mem_filter.mp listed).1) grants

theorem lasting_selfContained : Lasting Failed fun _ => SelfContained where
  stops _ _ failed := failed
  revised contained revised := contained.revised revised
  cleaned contained :=
    (recast_removeDeadCode false contained.flat).noNewCalls.selfContained contained
  resized everywhere found runs :=
    (recast_resizeArrays (everywhere _ _ found).flat runs).noNewCalls.selfContained
      (everywhere _ _ found)

theorem lasting_connected : Lasting Failed fun _ => Connected where
  stops _ _ failed := failed
  revised connected revised :=
    (recast_of_revised connected.contained.flat revised).connected connected
  cleaned connected := (recast_removeDeadCode false connected.contained.flat).connected connected
  resized everywhere found runs :=
    (recast_resizeArrays (everywhere _ _ found).contained.flat runs).connected
    (everywhere _ _ found)

/-- Optimizing connects executables, unless some of them have recursion. -/
theorem connects_optimize : Meets Failed (Everywhere fun _ => SelfContained) optimize
    fun _ => Everywhere fun _ => Connected :=
  establishes_optimize fun _ _ contained grants =>
    connected_optimizeFully contained (Recursion.check_grants contained grants)

end Linking

namespace Program

open Shader

/-- In the executables of a link that succeeds all calls are sound, if the units declare functions
only at their top level, call only declared ones, and know what `main` is. -/
theorem link_connects {options : Options} {program result : Program}
    (called : ∀ unit ∈ program.units, unit.shader.WellCalled)
    (known : ∀ unit ∈ program.units, unit.shader.KnowsMain)
    (runs : program.link options = .ok result) (succeeds : result.linked = true)
    {stage : Stage} {shader : Shader} (found : result.outcome.executables.get stage = some shader) :
    shader.SoundCalls := by
  have merges := Linking.merges_selfContained options.limits
    (fun unit listed => (called unit listed).declaresCalls) known
  obtain ⟨before, connected, compacted⟩ := link_succeeds
    (Linking.lasting_selfContained.phases Linking.lasting_connected merges
      Linking.connects_optimize)
    runs succeeds found
  exact (compacted.connected connected).soundCalls compacted.declared

/-- The main function calls a helper that is only announced, and so does a function that nothing
calls. -/
def delegating : Shader :=
  Resolution.ofFunctions [
    { name := "main", signatures := [.define .void [] [.call ⟨1, 0⟩ [] none]] },
    { name := "helper", signatures := [.announce .void []] },
    { name := "idle", signatures := [.define .void [] [.call ⟨1, 0⟩ [] none]] }]

/-- The helper comes from a library, and calls what comes from another. -/
def delegated : Program where
  units := [⟨delegating, [Resolution.helping, Resolution.digging]⟩]

theorem delegated_connects : (∀ unit ∈ delegated.units, unit.shader.WellCalled) ∧
    (∀ unit ∈ delegated.units, unit.shader.KnowsMain) ∧ ∃ result shader,
    delegated.link {} = .ok result ∧ result.linked = true ∧
      result.outcome.executables.get .fragment = some shader ∧
      shader.functions.entries.map (·.name) = ["main", "helper", "deeper"] ∧ shader.SoundCalls := by
  have called : ∀ unit ∈ delegated.units, unit.shader.WellCalled := by
    intro unit listed
    obtain rfl := List.mem_singleton.mp listed
    exact wellCalled_of_check (by decide +kernel)
  have known : ∀ unit ∈ delegated.units, unit.shader.KnowsMain := by decide +kernel
  have links : delegated.linksTo {} (fun result => decide (
      (result.outcome.executables.get .fragment).map (fun shader =>
        shader.functions.entries.map (·.name)) = some ["main", "helper", "deeper"])) = true := by
    decide +kernel
  obtain ⟨result, runs, succeeds, found⟩ := exists_of_linksTo links
  obtain ⟨shader, here, names⟩ := Option.map_eq_some_iff.mp (of_decide_eq_true found)
  exact ⟨called, known, result, shader, runs, succeeds, here, names,
    link_connects called known runs succeeds here⟩

/-- Units whose symbol tables do not have the last function that is declared as `main`: one has a
function of another name, the other a function that is declared before one that is only
announced. -/
def mislaid : List Shader := [
  { Resolution.ofFunctions [.ofBody "start" []] with
    symbols := ({} : SymbolTable).addFunction "main" 0 },
  { Resolution.ofFunctions [
      { name := "main", signatures := [.announce .void []] }, .ofBody "helper" [],
      .ofBody "main" [.call ⟨1, 0⟩ [] none]] with
    topLevel := [.function 0, .function 1, .function 2, .function 0]
    symbols := (({} : SymbolTable).addFunction "helper" 1).addFunction "main" 2 }]

/-- It is not enough that functions are declared at the top level and that calls lead to declared
ones: linking rebuilds the symbol table, and then the executable has no `main`. -/
theorem mislaid_lose_main : mislaid.length = 2 ∧ ∀ shader ∈ mislaid, shader.problems = [] ∧
    shader.WellCalled ∧ ∃ result executable,
      ({ units := [⟨shader, []⟩] } : Program).link {} = .ok result ∧
      result.linked = true ∧ result.outcome.executables.get .fragment = some executable ∧
      ¬ executable.SoundCalls := by
  refine ⟨rfl, fun shader listed => ?_⟩
  have sound : shader.problems = [] := by
    revert shader
    decide +kernel
  have check : shader.isWellFormed = true := by
    revert shader
    decide +kernel
  have links : ({ units := [⟨shader, []⟩] } : Program).linksTo {} (fun result => decide (
      ∃ executable ∈ result.outcome.executables.get .fragment,
        executable.mainSignature? = none)) = true := by
    revert shader
    decide +kernel
  obtain ⟨result, runs, succeeds, found⟩ := exists_of_linksTo links
  obtain ⟨executable, here, no_main⟩ := of_decide_eq_true found
  refine ⟨sound, wellCalled_of_check check, result, executable, runs, succeeds, here,
    fun calls => ?_⟩
  obtain ⟨main, -, is_main, -⟩ := calls.main
  rw [no_main] at is_main
  cases is_main

end Program
end StageLink
