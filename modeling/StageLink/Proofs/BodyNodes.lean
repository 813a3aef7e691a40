import StageLink.Proofs.Layout
import Mathlib.Data.List.Nodup
import Mathlib.Data.List.Pairwise

/-!
# Nodes body by body

Where functions are declared only at the top level, the nodes of a shader are those of its top-level
list followed by those of one body after the other.  So the declarations of a shader are all
different exactly if those in each body are and no two bodies share one.
-/

namespace StageLink

section Lists

variable {Item Part : Type} {items : List Item} {parts : Item → List Part}

/-- Where nothing occurs twice, a part comes from one item only. -/
theorem eq_of_mem_flatMap (once : (items.flatMap parts).Nodup) {one other : Item} {part : Part}
    (listed : one ∈ items) (other_listed : other ∈ items) (inside : part ∈ parts one)
    (other_inside : part ∈ parts other) : one = other := by
  by_contra different
  have : Std.Symm (Function.onFun List.Disjoint parts) :=
    ⟨fun _ _ apart _ first second => apart second first⟩
  have apart := (List.nodup_flatMap.mp once).2.forall listed other_listed different
  exact apart inside other_inside

theorem nodup_flatMap_of_apart (distinct : items.Nodup) (each : ∀ item ∈ items, (parts item).Nodup)
    (apart : ∀ one ∈ items, ∀ other ∈ items, ∀ part ∈ parts one, part ∈ parts other → one = other) :
    (items.flatMap parts).Nodup := by
  refine List.nodup_flatMap.mpr ⟨each, distinct.pairwise_of_forall_ne ?_⟩
  intro one listed other other_listed different part inside other_inside
  exact different (apart one listed other other_listed part inside other_inside)

theorem flatMap_zipIdx (items : List Item) (parts : Item → List Part) :
    (items.zipIdx.flatMap fun pair => parts pair.1) = items.flatMap parts := by
  rw [← List.flatMap_map, List.zipIdx_map_fst]

theorem nodup_zipIdx (items : List Item) : items.zipIdx.Nodup := by
  refine List.Nodup.of_map Prod.snd ?_
  rw [List.zipIdx_map_snd]
  exact List.nodup_range'

end Lists

namespace Shader

def bodyNodes (shader : Shader) (id : FunctionId) : List Node :=
  (shader.signaturesOf id).flatMap fun signature => signature.body.ownNodes

/-- The nodes of the top-level list, and then those of all bodies of declared functions. -/
def listedNodes (shader : Shader) : List Node :=
  shader.topLevel.ownNodes ++ shader.declaredFunctions.flatMap shader.bodyNodes

/-- Where functions are declared only at the top level, inside each of them are the nodes of its
bodies. -/
theorem insideFunction_of_declared {shader : Shader} (on_top : shader.FunctionsOnTop)
    {id : FunctionId} (is_declared : id ∈ shader.declaredFunctions) :
    shader.insideFunction shader.functions.size id = shader.bodyNodes id := by
  cases size : shader.functions.size with
  | zero =>
      have none_there : shader.signaturesOf id = [] := signaturesOf_eq_nil (size ▸ Nat.zero_le id)
      rw [insideFunction, bodyNodes, none_there]
      rfl
  | succ depth =>
      rw [insideFunction, bodyNodes]
      exact List.flatMap_congr fun signature listed =>
        Block.nodes_of_free signature.body (on_top.bodies id is_declared signature listed)

/-- Where functions are declared only at the top level, the nodes of a shader are those of its
top-level list and of its bodies, up to their order. -/
theorem nodes_perm {shader : Shader} (on_top : shader.FunctionsOnTop) :
    shader.nodes.Perm shader.listedNodes := by
  have listed := nodes_topLevel_perm (shader.insideFunction shader.functions.size) shader.topLevel
    on_top.statements
  rw [listedNodes, ← List.flatMap_congr fun _ => insideFunction_of_declared on_top]
  exact listed

/-! ## Declared once -/

@[simp]
theorem declaredIn_flatMap {Part : Type} (parts : List Part) (nodes : Part → List Node) :
    declaredIn (parts.flatMap nodes) = parts.flatMap fun part => declaredIn (nodes part) :=
  List.filterMap_flatMap

/-- No two declarations of a shader are of the same variable. -/
structure DeclaresOnce (shader : Shader) : Prop where
  top : (declaredIn shader.topLevel.ownNodes).Nodup
  body : ∀ {callee signature}, callee.function ∈ shader.declaredFunctions →
    shader.At callee signature → (declaredIn signature.body.ownNodes).Nodup ∧
      ∀ id ∈ declaredIn signature.body.ownNodes, id ∉ declaredIn shader.topLevel.ownNodes
  apart : ∀ {one other first second}, one.function ∈ shader.declaredFunctions →
    other.function ∈ shader.declaredFunctions → shader.At one first → shader.At other second →
    ∀ id ∈ declaredIn first.body.ownNodes, id ∈ declaredIn second.body.ownNodes → one = other

variable {shader : Shader}

theorem mem_declaredIn_bodyNodes {id : VariableId} {function : FunctionId} :
    id ∈ declaredIn (shader.bodyNodes function) ↔ ∃ position signature,
      shader.At ⟨function, position⟩ signature ∧ id ∈ declaredIn signature.body.ownNodes := by
  rw [bodyNodes, declaredIn_flatMap, List.mem_flatMap]
  constructor
  · rintro ⟨signature, listed, inside⟩
    obtain ⟨position, there⟩ := List.mem_iff_getElem?.mp listed
    exact ⟨position, signature, there, inside⟩
  · rintro ⟨position, signature, there, inside⟩
    exact ⟨signature, List.mem_of_getElem? there, inside⟩

theorem declaredIn_bodyNodes (function : FunctionId) : declaredIn (shader.bodyNodes function) =
    (shader.signaturesOf function).zipIdx.flatMap fun pair => declaredIn pair.1.body.ownNodes := by
  rw [flatMap_zipIdx _ fun signature : Signature => declaredIn signature.body.ownNodes, bodyNodes,
    declaredIn_flatMap]

theorem declaresOnce_of_nodup (on_top : shader.FunctionsOnTop)
    (once : (declaredIn shader.nodes).Nodup) : shader.DeclaresOnce := by
  have listed_once := ((nodes_perm on_top).filterMap _).nodup_iff.mp once
  change (declaredIn shader.listedNodes).Nodup at listed_once
  rw [listedNodes, declaredIn_append, declaredIn_flatMap] at listed_once
  obtain ⟨top, bodies, apart⟩ := List.nodup_append.mp listed_once
  refine ⟨top, fun {callee signature} is_declared there => ⟨?_, fun id listed global => ?_⟩,
    fun {one other first second} is_declared other_declared there other_there id listed
      listed_too => ?_⟩
  · have inner := (List.nodup_flatMap.mp bodies).1 _ is_declared
    rw [bodyNodes, declaredIn_flatMap] at inner
    exact (List.nodup_flatMap.mp inner).1 signature (List.mem_of_getElem? there)
  · refine apart id global id (List.mem_flatMap.mpr ⟨_, is_declared, ?_⟩) rfl
    exact mem_declaredIn_bodyNodes.mpr ⟨_, _, there, listed⟩
  · have same : one.function = other.function :=
      eq_of_mem_flatMap bodies is_declared other_declared
        (mem_declaredIn_bodyNodes.mpr ⟨_, _, there, listed⟩)
        (mem_declaredIn_bodyNodes.mpr ⟨_, _, other_there, listed_too⟩)
    have inner := (List.nodup_flatMap.mp bodies).1 _ is_declared
    rw [declaredIn_bodyNodes] at inner
    have pairs : (first, one.signature) = (second, other.signature) :=
      eq_of_mem_flatMap inner (List.mem_zipIdx_iff_getElem?.mpr there)
        (List.mem_zipIdx_iff_getElem?.mpr (same ▸ other_there)) listed listed_too
    cases one
    cases other
    cases same
    cases pairs
    rfl

theorem DeclaresOnce.nodup (declares : shader.DeclaresOnce) (on_top : shader.FunctionsOnTop)
    (functions : shader.declaredFunctions.Nodup) : (declaredIn shader.nodes).Nodup := by
  refine ((nodes_perm on_top).filterMap _).nodup_iff.mpr ?_
  change (declaredIn shader.listedNodes).Nodup
  rw [listedNodes, declaredIn_append, declaredIn_flatMap, List.nodup_append]
  refine ⟨declares.top, nodup_flatMap_of_apart functions (fun function is_declared => ?_) ?_, ?_⟩
  · rw [declaredIn_bodyNodes]
    refine nodup_flatMap_of_apart (nodup_zipIdx _) (fun pair listed => ?_) ?_
    · exact (@DeclaresOnce.body _ declares ⟨function, pair.2⟩ pair.1 is_declared
        (List.mem_zipIdx_iff_getElem?.mp listed)).1
    · intro one listed other other_listed id inside other_inside
      have there : shader.At ⟨function, one.2⟩ one.1 := List.mem_zipIdx_iff_getElem?.mp listed
      have other_there : shader.At ⟨function, other.2⟩ other.1 :=
        List.mem_zipIdx_iff_getElem?.mp other_listed
      have same := declares.apart is_declared is_declared there other_there id inside other_inside
      have positions : one.2 = other.2 := congrArg Callee.signature same
      exact Prod.ext (there.unique (positions ▸ other_there)) positions
  · intro one is_declared other other_declared id inside other_inside
    obtain ⟨_, _, there, listed⟩ := mem_declaredIn_bodyNodes.mp inside
    obtain ⟨_, _, other_there, listed_too⟩ := mem_declaredIn_bodyNodes.mp other_inside
    exact congrArg Callee.function
      (declares.apart is_declared other_declared there other_there id listed listed_too)
  · rintro id global _ local_to rfl
    obtain ⟨function, is_declared, inside⟩ := List.mem_flatMap.mp local_to
    obtain ⟨_, _, there, listed⟩ := mem_declaredIn_bodyNodes.mp inside
    exact (declares.body is_declared there).2 id listed global

end Shader
end StageLink
