import StageLink.Call.Recursion
import StageLink.Proofs.Calls
import Mathlib.Order.WellFoundedSet

/-!
# Graphs of calls

The declared functions of a shader call one another.  The graph of their calls has no cycle if the
check for recursion is passed, and moving signatures to other places does not make one.  Where there
is no cycle and every signature but `main` is called, `main` comes to call them all.
-/

namespace StageLink
namespace Shader

/-! ## The main function -/

def isNamed (shader : Shader) (name : String) (id : FunctionId) : Bool :=
  (shader.functions.get? id).any (·.name = name)

theorem isNamed_iff {shader : Shader} {name : String} {id : FunctionId} :
    shader.isNamed name id = true ↔ (shader.functions.get? id).map (·.name) = some name := by
  cases found : shader.functions.get? id <;> simp [isNamed, found]

def lastNamed (shader : Shader) (name : String) : Option FunctionId :=
  (shader.declaredFunctions.filter (shader.isNamed name)).getLast?

theorem enterSymbols_lastNamed {shader : Shader} {name : String} {block : Block} :
    ∀ {symbols : SymbolTable} {seen : List FunctionId},
      symbols.functions.get? name = (seen.filter (shader.isNamed name)).getLast? →
      (shader.enterSymbols symbols block).functions.get? name =
        ((seen ++ block.filterMap fun | .function id => some id | _ => none).filter
          (shader.isNamed name)).getLast? := by
  induction block with
  | nil =>
      intro symbols seen known
      simpa [enterSymbols] using known
  | cons instruction rest ih =>
      intro symbols seen known
      cases instruction with
      | function id =>
          have together : ∀ next : SymbolTable,
              next.functions.get? name = ((seen ++ [id]).filter (shader.isNamed name)).getLast? →
              (shader.enterSymbols next rest).functions.get? name =
                ((seen ++ id :: rest.filterMap fun | .function id => some id | _ => none).filter
                  (shader.isNamed name)).getLast? := by
            intro next knows
            have later := ih knows
            rwa [List.append_assoc] at later
          rw [enterSymbols]
          split
          · next function found =>
              refine together _ ?_
              simp only [SymbolTable.addFunction, NameTable.get?_insert, List.filter_append]
              by_cases same : name = function.name
              · have named : shader.isNamed name id = true := by simp [isNamed, found, same]
                rw [if_pos same, List.filter_cons_of_pos named, List.filter_nil,
                  List.getLast?_append]
                rfl
              · have unnamed : shader.isNamed name id = false := by
                  simpa [isNamed, found] using fun equal : function.name = name => same equal.symm
                rw [if_neg same, List.filter_cons_of_neg (by simp [unnamed]), List.filter_nil,
                  List.append_nil]
                exact known
          · next missing =>
              refine together _ ?_
              have unnamed : shader.isNamed name id = false := by simp [isNamed, missing]
              rw [List.filter_append, List.filter_cons_of_neg (by simp [unnamed]), List.filter_nil,
                List.append_nil]
              exact known
      | declare id =>
          rw [enterSymbols]
          split
          · exact ih known
          · exact ih known
      | _ => exact ih known

theorem populateSymbols_function {shader : Shader} (name : String) :
    shader.populateSymbols.symbols.functions.get? name = shader.lastNamed name := by
  have nothing : ({} : SymbolTable).functions.get? name =
      (([] : List FunctionId).filter (shader.isNamed name)).getLast? := rfl
  exact enterSymbols_lastNamed nothing

/-- Whether a signature of `main` is where the shader begins. -/
def isEntry (signature : Signature) : Bool := signature.parameters.isEmpty && signature.isDefined

theorem mainSignature?_eq_some {shader : Shader} {main : Callee} :
    shader.mainSignature? = some main ↔ shader.symbols.functions.get? "main" = some main.function ∧
      (shader.signaturesOf main.function).findIdx? isEntry = some main.signature := by
  constructor
  · intro found
    obtain ⟨id, bound, following⟩ := Option.bind_eq_some_iff.mp found
    obtain ⟨position, entry, same⟩ := Option.bind_eq_some_iff.mp following
    obtain rfl := Option.some.inj same
    exact ⟨bound, entry⟩
  · rintro ⟨bound, entry⟩
    exact Option.bind_eq_some_iff.mpr ⟨main.function, bound,
      Option.bind_eq_some_iff.mpr ⟨main.signature, entry, rfl⟩⟩

/-- The symbol table knows the last function that is declared as `main`, and that has a signature to
begin with. -/
structure HasMain (shader : Shader) (main : Callee) : Prop where
  bound : shader.symbols.functions.get? "main" = some main.function
  last : shader.lastNamed "main" = some main.function
  entry : (shader.signaturesOf main.function).findIdx? isEntry = some main.signature

namespace HasMain

variable {shader : Shader} {main : Callee}

theorem mainSignature? (has : shader.HasMain main) : shader.mainSignature? = some main :=
  mainSignature?_eq_some.mpr ⟨has.bound, has.entry⟩

theorem named (has : shader.HasMain main) :
    main.function ∈ shader.declaredFunctions ∧ shader.isNamed "main" main.function = true :=
  List.mem_filter.mp (List.mem_of_getLast? has.last)

theorem exists_at (has : shader.HasMain main) :
    ∃ signature, shader.At main signature ∧ isEntry signature = true := by
  obtain ⟨inside, is_entry, -⟩ := List.findIdx?_eq_some_iff_getElem.mp has.entry
  exact ⟨_, List.getElem?_eq_getElem inside, is_entry⟩

/-- A signature to begin with is enough. -/
theorem of_entry {id : FunctionId} (bound : shader.symbols.functions.get? "main" = some id)
    (last : shader.lastNamed "main" = some id)
    (entry : ∃ signature ∈ shader.signaturesOf id, isEntry signature = true) :
    ∃ main, shader.HasMain main ∧ main.function = id := by
  have some_entry : ((shader.signaturesOf id).findIdx? isEntry).isSome = true := by
    rw [List.findIdx?_isSome]
    exact List.any_eq_true.mpr entry
  obtain ⟨position, found⟩ := Option.isSome_iff_exists.mp some_entry
  exact ⟨⟨id, position⟩, ⟨bound, last, found⟩, rfl⟩

end HasMain

/-! ## Calls between signatures -/

def Invokes (shader : Shader) (caller callee : Callee) : Prop :=
  caller.function ∈ shader.declaredFunctions ∧
    ∃ signature, shader.At caller signature ∧ callee ∈ callees signature.body.ownNodes

/-- No signature comes to call itself. -/
def Acyclic (shader : Shader) : Prop :=
  ∀ callee, ¬ Relation.TransGen shader.Invokes callee callee

/-- Every signature of a declared function is the main one or is called. -/
def Live (shader : Shader) (main : Callee) : Prop :=
  ∀ {callee signature}, callee.function ∈ shader.declaredFunctions → shader.At callee signature →
    callee = main ∨ ∃ caller, shader.Invokes caller callee

/-- A shader that can run by itself: it has only declarations at its top level, functions are
declared nowhere else, its calls have definitions, and there is a place to begin. -/
structure SelfContained (shader : Shader) : Prop where
  flat : shader.topLevel.Flat
  free : ∀ {callee signature}, callee.function ∈ shader.declaredFunctions →
    shader.At callee signature → signature.body.FunctionFree
  settled : ∀ {caller callee}, shader.Invokes caller callee →
    callee.function ∈ shader.declaredFunctions ∧
      ∃ signature, shader.At callee signature ∧ signature.isDefined = true
  main : ∃ main, shader.HasMain main

variable {shader before after : Shader}

theorem callees_flat {block : Block} (flat : block.Flat) : callees block.ownNodes = [] := by
  refine List.eq_nil_iff_forall_not_mem.mpr fun callee listed => ?_
  obtain ⟨arguments, result, there⟩ := mem_callees_iff.mp listed
  obtain ⟨instruction, in_block, inner⟩ := Block.mem_ownNodes.mp there
  have declares := flat instruction in_block
  rw [Instruction.nodes_of_isDeclaration declares, List.mem_singleton] at inner
  cases inner
  cases declares

theorem SelfContained.on_top (contained : shader.SelfContained) : shader.FunctionsOnTop where
  statements := by
    intro id listed
    obtain ⟨instruction, there, inner⟩ := Block.mem_ownNodes.mp listed
    obtain ⟨in_top, kept⟩ := List.mem_filter.mp there
    rw [Instruction.nodes_of_isDeclaration (contained.flat _ in_top), List.mem_singleton] at inner
    cases inner
    cases kept
  bodies id is_declared signature listed := by
    obtain ⟨position, there⟩ := List.mem_iff_getElem?.mp listed
    exact @SelfContained.free _ contained ⟨id, position⟩ _ is_declared there

theorem SelfContained.mem_callees (contained : shader.SelfContained) {callee : Callee} :
    callee ∈ callees shader.nodes ↔ ∃ caller, shader.Invokes caller callee := by
  rw [mem_callees_nodes contained.on_top, callees_flat contained.flat]
  constructor
  · rintro (none | ⟨id, is_declared, signature, listed, inner⟩)
    · cases none
    · obtain ⟨position, there⟩ := List.mem_iff_getElem?.mp listed
      exact ⟨⟨id, position⟩, is_declared, signature, there, inner⟩
  · rintro ⟨caller, is_declared, signature, there, inner⟩
    exact .inr ⟨caller.function, is_declared, signature, List.mem_of_getElem? there, inner⟩

/-! ## Reachability -/

def Present (shader : Shader) (callee : Callee) : Prop :=
  callee.function ∈ shader.declaredFunctions ∧ ∃ signature, shader.At callee signature

theorem finite_present (shader : Shader) : {callee | shader.Present callee}.Finite := by
  refine (List.finite_toSet (shader.declaredFunctions.flatMap fun id =>
    (List.range (shader.signaturesOf id).length).map (Callee.mk id))).subset ?_
  rintro callee ⟨is_declared, signature, there⟩
  refine List.mem_flatMap.mpr ⟨callee.function, is_declared,
    List.mem_map.mpr ⟨callee.signature, ?_, rfl⟩⟩
  exact List.mem_range.mpr (List.getElem?_eq_some_iff.mp there).1

/-- Where there is no cycle and every other signature is called, the main one comes to call all. -/
theorem reachable_of_live {main : Callee} (acyclic : shader.Acyclic) (live : shader.Live main)
    {callee : Callee} (present : shader.Present callee) :
    Relation.ReflTransGen shader.Invokes main callee := by
  have order : IsStrictOrder Callee (Relation.TransGen shader.Invokes) :=
    { irrefl := acyclic, trans := fun _ _ _ => Relation.TransGen.trans }
  have founded := shader.finite_present.wellFoundedOn (r := Relation.TransGen shader.Invokes)
  refine founded.induction present fun callee present ih => ?_
  obtain ⟨is_declared, signature, there⟩ := present
  rcases live is_declared there with rfl | ⟨caller, invokes⟩
  · exact .refl
  · have caller_present : shader.Present caller :=
      ⟨invokes.1, invokes.2.imp fun _ => And.left⟩
    exact (ih caller caller_present (.single invokes)).tail invokes

/-! ## Moving signatures -/

/-- What has become of a signature whose calls have moved. -/
structure SignatureCarried (moves : Callee → Callee → Prop) (before after : Signature) : Prop where
  isDefined : after.isDefined = before.isDefined
  free : before.body.FunctionFree → after.body.FunctionFree
  calls : ∀ callee ∈ callees after.body.ownNodes, ∃ original ∈ callees before.body.ownNodes,
    moves original callee

/-- Signatures move to other places, and those of declared functions that are there afterwards have
come from such ones. -/
structure Carries (moves : Callee → Callee → Prop) (before after : Shader) : Prop where
  injective : ∀ {one two other}, moves one other → moves two other → one = two
  there : ∀ {one other signature}, moves one other → one.function ∈ before.declaredFunctions →
    before.At one signature → other.function ∈ after.declaredFunctions ∧
      ∃ carried, after.At other carried ∧ carried.isDefined = signature.isDefined
  back : ∀ {other carried}, other.function ∈ after.declaredFunctions → after.At other carried →
    ∃ one signature, moves one other ∧ one.function ∈ before.declaredFunctions ∧
      before.At one signature ∧ SignatureCarried moves signature carried

namespace Carries

variable {moves : Callee → Callee → Prop}

theorem invokes (carries : Carries moves before after) {caller callee : Callee}
    (invokes : after.Invokes caller callee) :
    ∃ one other, before.Invokes one other ∧ moves one caller ∧ moves other callee := by
  obtain ⟨is_declared, carried, there, called⟩ := invokes
  obtain ⟨one, signature, moved, was_declared, was, carried⟩ := carries.back is_declared there
  obtain ⟨other, called_before, moved_callee⟩ := carried.calls callee called
  exact ⟨one, other, ⟨was_declared, signature, was, called_before⟩, moved, moved_callee⟩

/-- Moving signatures makes no cycle. -/
theorem acyclic (carries : Carries moves before after) (acyclic : before.Acyclic) :
    after.Acyclic := by
  have path : ∀ {caller callee}, Relation.TransGen after.Invokes caller callee →
      ∃ one other, Relation.TransGen before.Invokes one other ∧ moves one caller ∧
        moves other callee := by
    intro caller callee leads
    induction leads with
    | single invokes =>
        obtain ⟨one, other, was, moved, moved_callee⟩ := carries.invokes invokes
        exact ⟨one, other, .single was, moved, moved_callee⟩
    | tail _ invokes ih =>
        obtain ⟨one, halfway, so_far, moved, moved_halfway⟩ := ih
        obtain ⟨halfway', other, was, moved_halfway', moved_callee⟩ := carries.invokes invokes
        obtain rfl := carries.injective moved_halfway moved_halfway'
        exact ⟨one, other, so_far.tail was, moved, moved_callee⟩
  intro callee leads
  obtain ⟨one, other, was, moved, moved_callee⟩ := path leads
  obtain rfl := carries.injective moved moved_callee
  exact acyclic one was

theorem selfContained (carries : Carries moves before after) (contained : before.SelfContained)
    (flat : after.topLevel.Flat) (main : ∃ main, after.HasMain main) : after.SelfContained where
  flat := flat
  free is_declared there := by
    obtain ⟨one, signature, -, was_declared, was, carried⟩ := carries.back is_declared there
    exact carried.free (contained.free was_declared was)
  settled invokes := by
    obtain ⟨one, other, was, -, moved⟩ := carries.invokes invokes
    obtain ⟨is_declared, signature, there, defined⟩ := contained.settled was
    obtain ⟨now_declared, carried, now_there, same⟩ := carries.there moved is_declared there
    exact ⟨now_declared, carried, now_there, same.trans defined⟩
  main := main

end Carries
end Shader

/-! ## The check for recursion -/

namespace Recursion

open Shader

variable {shader : Shader} {edges : List (Callee × Callee)}

theorem mem_definedSignatures {ids : List FunctionId} : ∀ {signatures : List Callee},
    definedSignatures shader ids = .ok signatures → ∀ {callee}, callee ∈ signatures ↔
      callee.function ∈ ids ∧ ∃ signature, shader.At callee signature ∧
        signature.isDefined = true := by
  induction ids with
  | nil =>
      intro signatures runs callee
      obtain rfl := Checked.pure_eq_ok.mp runs
      simp
  | cons id ids ih =>
      intro signatures runs callee
      obtain ⟨function, fetched, following⟩ := Checked.bind_eq_ok.mp runs
      obtain ⟨later, runs_later, finish⟩ := Checked.bind_eq_ok.mp following
      obtain rfl := Checked.pure_eq_ok.mp finish
      have found := fetchFunction_eq_ok.mp fetched
      have here : callee ∈ (function.signatures.zipIdx.filter (·.1.isDefined)).map
            (fun pair => Callee.mk id pair.2) ↔ callee.function = id ∧
            ∃ signature, shader.At callee signature ∧ signature.isDefined = true := by
        obtain ⟨owner, position⟩ := callee
        simp only [List.mem_map, List.mem_filter, Prod.exists, List.mem_zipIdx_iff_getElem?,
          Callee.mk.injEq]
        constructor
        · rintro ⟨signature, place, ⟨there, defined⟩, rfl, rfl⟩
          refine ⟨rfl, signature, ?_, defined⟩
          rw [At, signaturesOf_eq found]
          exact there
        · rintro ⟨rfl, signature, there, defined⟩
          rw [At, signaturesOf_eq found] at there
          exact ⟨signature, position, ⟨there, defined⟩, rfl, rfl⟩
      rw [List.mem_append, here, ih runs_later, List.mem_cons, or_and_right]

theorem mem_calls {callers : List Callee} : ∀ {edges : List (Callee × Callee)},
    calls shader callers = .ok edges → ∀ {caller callee signature}, caller ∈ callers →
      shader.At caller signature → callee ∈ callees signature.body.ownNodes →
      (caller, callee) ∈ edges := by
  induction callers with
  | nil =>
      intro edges _ caller callee signature listed
      cases listed
  | cons first callers ih =>
      intro edges runs caller callee signature listed there called
      obtain ⟨signature', fetched, following⟩ := Checked.bind_eq_ok.mp runs
      obtain ⟨later, runs_later, finish⟩ := Checked.bind_eq_ok.mp following
      obtain rfl := Checked.pure_eq_ok.mp finish
      rcases List.mem_cons.mp listed with rfl | in_later
      · obtain rfl := there.unique (fetchSignature_eq_ok.mp fetched)
        exact List.mem_append_left _ (List.mem_map.mpr ⟨callee, called, rfl⟩)
      · exact List.mem_append_right _ (ih runs_later in_later there called)

theorem mem_prune {stays : Callee → Prop}
    (caller : ∀ one, stays one → ∃ other, stays other ∧ (one, other) ∈ edges)
    (callee : ∀ one, stays one → ∃ other, stays other ∧ (other, one) ∈ edges)
    (alive : List Callee) : (∀ one, stays one → one ∈ alive) → ∀ one, stays one →
    one ∈ prune edges alive := by
  induction alive using prune.induct edges with
  | case1 alive shrinks ih =>
      intro listed
      rw [prune, dif_pos shrinks]
      refine ih fun one holds => List.mem_filter.mpr ⟨listed one holds, ?_⟩
      obtain ⟨other, other_holds, calls⟩ := caller one holds
      obtain ⟨another, another_holds, called⟩ := callee one holds
      rw [isEntangled, Bool.and_eq_true, List.any_eq_true, List.any_eq_true]
      exact ⟨⟨_, calls, by simp [listed other other_holds]⟩,
        ⟨_, called, by simp [listed another another_holds]⟩⟩
  | case2 alive finished =>
      intro listed
      rwa [prune, dif_neg finished]

theorem distinct_ne_nil {names : List String} (some_name : names ≠ []) :
    distinct [] names ≠ [] := by
  cases names with
  | nil => exact absurd rfl some_name
  | cons name names => simp [distinct]

theorem check_grants (contained : shader.SelfContained) (grants : (check shader).Grants ()) :
    shader.Acyclic := by
  obtain ⟨signatures, runs_signatures, following⟩ := Judged.grants_bind.mp grants
  obtain ⟨edges, runs_edges, following⟩ := Judged.grants_bind.mp following
  obtain ⟨names, runs_names, finish⟩ := Judged.grants_bind.mp following
  have all_signatures := fun {callee : Callee} =>
    @mem_definedSignatures _ _ _ (Judged.grants_monadLift.mp runs_signatures) callee
  have all_edges := @mem_calls _ _ _ (Judged.grants_monadLift.mp runs_edges)
  intro start cycle
  -- the signatures on cycles are defined, and pruning leaves them
  let cyclic (one : Callee) : Prop := Relation.TransGen shader.Invokes one one
  have defined : ∀ one, cyclic one → one ∈ signatures := by
    intro one around
    obtain ⟨caller, -, invokes⟩ := Relation.TransGen.tail'_iff.mp around
    exact all_signatures.mpr (contained.settled invokes)
  have edge : ∀ {one other}, cyclic one → shader.Invokes one other → (one, other) ∈ edges := by
    rintro one other around ⟨-, signature, there, called⟩
    exact all_edges (defined one around) there called
  have caller : ∀ one, cyclic one → ∃ other, cyclic other ∧ (one, other) ∈ edges := by
    intro one around
    obtain ⟨other, invokes, rest⟩ := Relation.TransGen.head'_iff.mp around
    exact ⟨other, Relation.TransGen.tail' rest invokes, edge around invokes⟩
  have callee : ∀ one, cyclic one → ∃ other, cyclic other ∧ (other, one) ∈ edges := by
    intro one around
    obtain ⟨other, rest, invokes⟩ := Relation.TransGen.tail'_iff.mp around
    have other_around : cyclic other := Relation.TransGen.head' invokes rest
    exact ⟨other, other_around, edge other_around invokes⟩
  have left := mem_prune caller callee signatures defined start cycle
  have listed : start ∈ signatures.filter (prune edges signatures).contains :=
    List.mem_filter.mpr ⟨defined start cycle, by simpa using left⟩
  have some_name : names ≠ [] := by
    intro no_names
    have all_named := Judged.grants_mapM.mp runs_names
    rw [no_names] at all_named
    rw [List.forall₂_nil_right_iff.mp all_named] at listed
    cases listed
  have none_rejected := Judged.grants_rejectAll.mp finish
  exact distinct_ne_nil some_name (List.map_eq_nil_iff.mp none_rejected)

end Recursion
end StageLink
