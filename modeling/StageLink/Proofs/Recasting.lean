import StageLink.Proofs.CallGraph
import StageLink.Uniform.Shrink

/-!
# Shaders whose calls stay

Folding constants, removing dead code and retyping places change bodies one by one.  The signatures
stay where they are, and so do their calls, or some of them.
-/

namespace StageLink
namespace Shader

/-- What has become of a signature whose body has been changed. -/
structure SignatureRecast (keeps : List Callee → List Callee → Prop) (before after : Signature) :
    Prop where
  parameters : after.parameters = before.parameters
  isDefined : after.isDefined = before.isDefined
  free : before.body.FunctionFree → after.body.FunctionFree
  calls : keeps (callees before.body.ownNodes) (callees after.body.ownNodes)

/-- Bodies have been changed one by one. -/
structure Recast (keeps : List Callee → List Callee → Prop) (before after : Shader) : Prop where
  flat : after.topLevel.Flat
  declared : after.declaredFunctions = before.declaredFunctions
  bound : after.symbols.functions = before.symbols.functions
  named : ∀ name, after.isNamed name = before.isNamed name
  signatures : ∀ id,
    List.Forall₂ (SignatureRecast keeps) (before.signaturesOf id) (after.signaturesOf id)

def NoNewCalls (before after : List Callee) : Prop := after ⊆ before

variable {shader before after : Shader} {keeps : List Callee → List Callee → Prop}

theorem isNamed_of_names
    (same : ∀ id, (after.functions.get? id).map (·.name) = (before.functions.get? id).map (·.name))
    (name : String) : after.isNamed name = before.isNamed name := by
  funext id
  have here := same id
  unfold isNamed
  cases was : before.functions.get? id <;> cases now : after.functions.get? id <;> simp_all

theorem findIdx?_of_forall₂ {Item : Type} {related : Item → Item → Prop} {test : Item → Bool}
    (same : ∀ one other, related one other → test other = test one) {items others : List Item}
    (each : List.Forall₂ related items others) : others.findIdx? test = items.findIdx? test := by
  induction each with
  | nil => rfl
  | cons first _ ih => rw [List.findIdx?_cons, List.findIdx?_cons, same _ _ first, ih]

namespace Recast

theorem imp {weaker : List Callee → List Callee → Prop}
    (implies : ∀ callees others, keeps callees others → weaker callees others)
    (recast : Recast keeps before after) : Recast weaker before after where
  flat := recast.flat
  declared := recast.declared
  bound := recast.bound
  named := recast.named
  signatures id := (recast.signatures id).imp fun _ _ one =>
    ⟨one.parameters, one.isDefined, one.free, implies _ _ one.calls⟩

theorem noNewCalls (recast : Recast Eq before after) : Recast NoNewCalls before after := by
  refine recast.imp fun callees others same => ?_
  subst same
  exact List.Subset.refl callees

theorem at_after (recast : Recast keeps before after) {callee : Callee} {signature : Signature}
    (there : before.At callee signature) :
    ∃ carried, after.At callee carried ∧ SignatureRecast keeps signature carried :=
  exists_getElem?_of_forall₂ (recast.signatures callee.function) there

theorem at_before (recast : Recast keeps before after) {callee : Callee} {carried : Signature}
    (there : after.At callee carried) :
    ∃ signature, before.At callee signature ∧ SignatureRecast keeps signature carried :=
  exists_getElem?_of_forall₂ (recast.signatures callee.function).flip there

theorem carries (recast : Recast NoNewCalls before after) : Carries Eq before after where
  injective one two := one.trans two.symm
  there := by
    rintro one _ signature rfl is_declared there
    obtain ⟨carried, now, same⟩ := recast.at_after there
    exact ⟨recast.declared ▸ is_declared, carried, now, same.isDefined⟩
  back := by
    intro other carried is_declared there
    obtain ⟨signature, was, same⟩ := recast.at_before there
    exact ⟨other, signature, rfl, recast.declared ▸ is_declared, was, same.isDefined, same.free,
      fun callee listed => ⟨callee, same.calls listed, rfl⟩⟩

theorem hasMain (recast : Recast keeps before after) {main : Callee} (has : before.HasMain main) :
    after.HasMain main where
  bound := by rw [recast.bound, has.bound]
  last := by rw [lastNamed, recast.declared, recast.named, ← lastNamed, has.last]
  entry := by
    rw [findIdx?_of_forall₂ (fun one other same => ?_) (recast.signatures main.function), has.entry]
    simp only [isEntry, same.parameters, same.isDefined]

theorem selfContained (recast : Recast NoNewCalls before after) (contained : before.SelfContained) :
    after.SelfContained :=
  recast.carries.selfContained contained recast.flat (contained.main.imp fun _ => recast.hasMain)

theorem live (recast : Recast Eq before after) {main : Callee} (live : before.Live main) :
    after.Live main := by
  intro callee signature is_declared there
  obtain ⟨original, was, -⟩ := recast.at_before there
  rcases live (recast.declared ▸ is_declared) was with is_main | ⟨caller, was_declared,
    caller_signature,
    caller_there, called⟩
  · exact .inl is_main
  · obtain ⟨carried, now, same⟩ := recast.at_after caller_there
    exact .inr ⟨caller, recast.declared ▸ was_declared, carried, now, same.calls ▸ called⟩

end Recast
/-! ## Passes -/

theorem recast_updateBodies {change : Block → Block} {symbols : SymbolTable}
    (flat : (change shader.topLevel).Flat)
    (declared : ({ shader with topLevel := change shader.topLevel } : Shader).declaredFunctions =
      shader.declaredFunctions)
    (same : symbols.functions = shader.symbols.functions)
    (free : ∀ block : Block, block.FunctionFree → Block.FunctionFree (change block))
    (calls : ∀ block : Block,
      keeps (callees block.ownNodes) (callees (Block.ownNodes (change block)))) :
    Recast keeps shader ({ shader with symbols := symbols }.updateBodies change) where
  flat := flat
  declared := declared
  bound := same
  named := by
    refine isNamed_of_names fun id => ?_
    rw [updateBodies, Arena.get?_map]
    cases shader.functions.get? id <;> rfl
  signatures id := by
    rw [signaturesOf_updateBodies]
    refine List.forall₂_map_right_iff.mpr (List.forall₂_same.mpr fun signature _ => ?_)
    exact ⟨rfl, rfl, free signature.body, calls signature.body⟩

theorem unbindVariables_functions (shader : Shader) (ids : List VariableId) :
    ∀ symbols : SymbolTable, (shader.unbindVariables symbols ids).functions =
      symbols.functions := by
  induction ids with
  | nil => exact fun _ => rfl
  | cons id ids ih =>
      intro symbols
      rw [unbindVariables]
      split
      · split
        · exact ih _
        · exact ih _
      · exact ih _

theorem noNewCalls_of_shrinks {may : Simplification}
    (self : ∀ one other, may.calls one other → one = other) {block left : Block}
    (shrinks : Block.Shrinks may block left) :
    NoNewCalls (callees block.ownNodes) (callees left.ownNodes) := by
  intro callee listed
  obtain ⟨original, was, same⟩ := shrinks.tracesBack.calls callee listed
  exact self _ _ same ▸ was

theorem shrinks_fold (block : Block) : ∃ halfway, Block.Shrinks folding block halfway ∧
    Block.Shrinks folding halfway block.fold :=
  ⟨_, Block.shrinks_updateInstructions Instruction.shrinks_fold block,
    Block.shrinks_updateBlocks (fun _ => rfl) Instruction.resolves_resolve _⟩

theorem recast_foldConstants (flat : shader.topLevel.Flat) :
    Recast NoNewCalls shader shader.foldConstants := by
  have same : Block.fold shader.topLevel = shader.topLevel := Block.fold_flat flat
  refine recast_updateBodies (same.symm ▸ flat) (by rw [same]) rfl (fun block free => ?_)
    fun block => ?_
  · obtain ⟨halfway, first, second⟩ := shrinks_fold block
    exact second.functionFree (first.functionFree free)
  · obtain ⟨halfway, first, second⟩ := shrinks_fold block
    exact List.Subset.trans (noNewCalls_of_shrinks (fun _ _ same => same) second)
      (noNewCalls_of_shrinks (fun _ _ same => same) first)

theorem recast_removeDeadCode (keepUniforms : Bool) (flat : shader.topLevel.Flat) :
    Recast Eq shader (shader.removeDeadCode keepUniforms) := by
  have same : Block.updateBlocks (List.filter (survives shader.deadTargets
      (shader.deadDeclarations keepUniforms))) shader.topLevel = _ := Block.updateBlocks_flat _ flat
  refine recast_updateBodies (same.symm ▸ flat.sublist List.filter_sublist) ?_
    (unbindVariables_functions _ _ _) (fun block free => ?_) fun block => ?_
  · rw [same]
    simp only [declaredFunctions, List.filterMap_filter]
    refine List.filterMap_congr fun instruction _ => ?_
    cases instruction <;> simp [survives]
  · exact (Block.shrinks_survives _ _ block).functionFree free
  · exact (Block.callees_prune block).symm

/-! ## Retyping -/

theorem Recast.trans
    (transitive : ∀ one other last, keeps one other → keeps other last → keeps one last)
    {last : Shader} (first : Recast keeps shader after) (second : Recast keeps after last) :
    Recast keeps shader last where
  flat := second.flat
  declared := second.declared.trans first.declared
  bound := second.bound.trans first.bound
  named name := (second.named name).trans (first.named name)
  signatures id := by
    refine forall₂_of_comp (fun one other last before after => ?_) (first.signatures id)
      (second.signatures id)
    exact ⟨after.parameters.trans before.parameters, after.isDefined.trans before.isDefined,
      fun free => after.free (before.free free), transitive _ _ _ before.calls after.calls⟩

/-- Revising variables leaves all bodies as they are. -/
theorem recast_of_revised {relation : Variable → Variable → Prop} (flat : before.topLevel.Flat)
    (revised : Revised relation before after) : Recast Eq before after := by
  rw [revised.same]
  exact ⟨flat, rfl, rfl, fun _ => rfl, fun id => List.forall₂_same.mpr fun _ _ =>
    ⟨rfl, rfl, fun free => free, rfl⟩⟩

theorem signaturesOf_retypeElements {result : Shader}
    (runs : ArraySize.retypeElements shader = .ok result) (id : FunctionId) :
    List.Forall₂ (fun before after => after = { before with body := after.body } ∧
      Block.Alike unchanged before.body after.body)
      (shader.signaturesOf id) (result.signaturesOf id) := by
  obtain ⟨-, -, functions⟩ := mapBodies_eq_ok runs
  have here := rel_getElem? functions id
  unfold signaturesOf Arena.get?
  revert here
  generalize shader.functions.entries[id]? = one
  generalize result.functions.entries[id]? = other
  rintro (changes | _)
  · exact changes.2.imp fun signature changed same => ⟨same.1, retypeBlock_alike same.2⟩
  · exact .nil

theorem recast_retypeElements {result : Shader} (flat : shader.topLevel.Flat)
    (runs : ArraySize.retypeElements shader = .ok result) : Recast Eq shader result := by
  have same := retypeElements_eq_ok flat runs
  refine ⟨by rw [same]; exact flat, by rw [same]; rfl, by rw [same],
    isNamed_of_names (names_of_mapBodies runs), fun id => ?_⟩
  refine (signaturesOf_retypeElements runs id).imp fun signature changed ⟨same, alike⟩ => ?_
  rw [same]
  exact ⟨rfl, rfl, fun free => free.alike alike, List.forall₂_eq_eq_eq ▸ alike.callees⟩

/-- Giving uniform arrays other lengths keeps all calls. -/
theorem recast_resizeArrays {highest : String → Nat} {result : Shader} (flat : shader.topLevel.Flat)
    (runs : Uniform.resizeArrays highest shader = .ok result) : Recast Eq shader result := by
  obtain ⟨declared, -, following⟩ := Checked.bind_eq_ok.mp runs
  dsimp only at following
  split at following
  · obtain rfl := Checked.pure_eq_ok.mp following
    have trivially : Revised (fun _ _ => True) shader shader := .refl (fun _ => trivial) _
    exact recast_of_revised flat trivially
  · obtain ⟨changed, changes, retypes⟩ := Checked.bind_eq_ok.mp following
    have first := recast_of_revised flat (modifyVariables_revises changes)
    exact @Recast.trans _ _ Eq (fun _ _ _ => Eq.trans) _ first
      (recast_retypeElements first.flat retypes)

end Shader
end StageLink
