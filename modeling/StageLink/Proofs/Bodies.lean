import StageLink.ArraySize
import StageLink.Proofs.Alike
import StageLink.Proofs.Globals

/-!
# Bodies

A pass over all bodies of a shader works on the top-level list and on the body of every signature,
and leaves everything else alone.  Retyping element places is such a pass, and what it gives is
alike.
-/

namespace StageLink
namespace Shader

variable {change : Block → Checked Block}

/-- What a pass over all bodies makes of a signature. -/
def SignatureChanges (change : Block → Checked Block) (before after : Signature) : Prop :=
  after = { before with body := after.body } ∧ change before.body = .ok after.body

/-- What a pass over all bodies makes of a function. -/
def FunctionChanges (change : Block → Checked Block) (before after : Function) : Prop :=
  after.name = before.name ∧
    List.Forall₂ (SignatureChanges change) before.signatures after.signatures

theorem mapBodies_eq_ok {shader result : Shader} (runs : shader.mapBodies change = .ok result) :
    result = { shader with topLevel := result.topLevel, functions := result.functions } ∧
      change shader.topLevel = .ok result.topLevel ∧
      List.Forall₂ (FunctionChanges change) shader.functions.entries result.functions.entries := by
  obtain ⟨topLevel, changes, following⟩ := Checked.bind_eq_ok.mp runs
  obtain ⟨functions, maps, equal⟩ := Checked.bind_eq_ok.mp following
  obtain rfl := Checked.pure_eq_ok.mp equal
  refine ⟨rfl, changes, (Checked.mapM_eq_ok.mp maps).imp fun before after step => ?_⟩
  obtain ⟨signatures, maps_signatures, same⟩ := Checked.bind_eq_ok.mp step
  obtain rfl := Checked.pure_eq_ok.mp same
  refine ⟨rfl, (Checked.mapM_eq_ok.mp maps_signatures).imp fun signature renewed step => ?_⟩
  obtain ⟨body, changes_body, same⟩ := Checked.bind_eq_ok.mp step
  obtain rfl := Checked.pure_eq_ok.mp same
  exact ⟨rfl, changes_body⟩

/-- Changing bodies keeps the name under each function identifier. -/
theorem names_of_mapBodies {shader result : Shader} (runs : shader.mapBodies change = .ok result)
    (id : FunctionId) :
    (result.functions.get? id).map (·.name) = (shader.functions.get? id).map (·.name) := by
  obtain ⟨-, -, functions⟩ := mapBodies_eq_ok runs
  have here := rel_getElem? functions id
  unfold Arena.get?
  revert here
  generalize shader.functions.entries[id]? = one
  generalize result.functions.entries[id]? = other
  rintro (changes | _)
  · exact congrArg some changes.1
  · rfl

/-- A simplification of lists is applied to each body of a shader. -/
theorem bodies_updateBodies (shader : Shader) (change : Block → Block) :
    (shader.updateBodies change).bodies = shader.bodies.map change := by
  simp [bodies, updateBodies, Arena.map, List.flatMap_map, List.map_flatMap, Function.comp_def]

/-- A pass that keeps each body keeps the shader. -/
theorem updateBodies_self {shader : Shader} {change : Block → Block}
    (same : ∀ body ∈ shader.bodies, change body = body) : shader.updateBodies change = shader := by
  have functions : (shader.functions.map fun function =>
      { function with
        signatures := function.signatures.map fun signature =>
          { signature with body := change signature.body } }) = shader.functions := by
    refine congrArg Arena.mk ((List.map_congr_left fun function in_arena => ?_).trans
      (List.map_id _))
    have signatures : (function.signatures.map fun signature =>
        { signature with body := change signature.body }) = function.signatures := by
      refine (List.map_congr_left fun signature listed => ?_).trans (List.map_id _)
      have in_bodies : signature.body ∈ shader.bodies := List.mem_cons_of_mem _
        (List.mem_flatMap.mpr ⟨function, in_arena, List.mem_map_of_mem listed⟩)
      rw [same _ in_bodies]
      rfl
    rw [signatures]
    rfl
  rw [updateBodies, functions, same _ (List.mem_cons_self ..)]

/-! ## Retyping -/

/-- Nothing is renamed. -/
def unchanged : Renaming where
  declares := Eq
  mentions := Eq
  functions := Eq
  calls := Eq

theorem unchanged_reflexive : unchanged.Reflexive :=
  ⟨fun _ => rfl, fun _ => rfl, fun _ => rfl, fun _ => rfl⟩

/-- What is alike to something alike is alike, if nothing is renamed. -/
theorem unchanged_trans {block other last : Block} (alike : Block.Alike unchanged block other)
    (alike_on : Block.Alike unchanged other last) : Block.Alike unchanged block last := by
  have implies : (unchanged.before unchanged).Implies unchanged := by
    constructor
    all_goals
      rintro _ _ ⟨_, rfl, rfl⟩
      rfl
  exact (alike.trans alike_on).mono implies

/-- Retyping exchanges no variables. -/
theorem faithful_retypePlace {vars : Arena Variable} {same : VariableId → VariableId → Prop}
    (reflexive : ∀ id, same id id) (nodes : List Node) :
    Faithful Checked.ensuring (ArraySize.retypePlace vars) same nodes := by
  refine ⟨fun id _ => Checked.ensuring.pure (.whole (reflexive id)), fun place part => ?_⟩
  cases place with
  | whole id => cases part
  | element array index ty =>
      refine Checked.ensuring.bind (fun _ _ => trivial) fun found => ?_
      refine Checked.ensuring.pure fun _ before alike => ?_
      cases alike with
      | element array_alike index_alike => exact .element array_alike index_alike
  | field record name ty => exact Checked.ensuring.pure fun _ alike => alike

theorem retypeBlock_alike {vars : Arena Variable} {block result : Block}
    (runs : Block.mapPlaces (ArraySize.retypePlace vars) block = .ok result) :
    Block.Alike unchanged block result :=
  Block.mapInstructions_alike Checked.ensuring block
    (fun inner _ => Instruction.mapPlaces_alike Checked.ensuring inner
      (faithful_retypePlace (fun _ => rfl) _) (fun _ _ => rfl) (fun _ _ => rfl) fun _ _ _ _ => rfl)
    result runs

/-- A flat list is alike only to itself if nothing is renamed. -/
theorem eq_of_alike_flat {block other : Block} (alike : Block.Alike unchanged block other)
    (flat : block.Flat) : other = block := by
  induction flat using Block.Flat.induction generalizing other with
  | nil =>
      cases alike
      rfl
  | declare id rest _ _ ih | function id rest _ _ ih =>
      cases alike with
      | cons head tail =>
          cases head
          next same => rw [ih tail, same]

/-- Retyping leaves a flat top level and all variables alone. -/
theorem retypeElements_eq_ok {shader result : Shader} (flat : shader.topLevel.Flat)
    (runs : ArraySize.retypeElements shader = .ok result) :
    result = { shader with functions := result.functions } := by
  obtain ⟨same, changes, -⟩ := mapBodies_eq_ok runs
  rw [eq_of_alike_flat (retypeBlock_alike changes) flat] at same
  exact same

end Shader
end StageLink
