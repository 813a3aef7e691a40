import StageLink.Proofs.Addresses
import StageLink.Proofs.BodyNodes

/-!
# Whereabouts

The address of a part of a shader begins with the position of the list that it is in: the top-level
list comes first, and then the bodies of the functions declared there, once for each declaration.
Where functions are declared only at the top level, these are the nodes of the shader:
`visits_instruction` and `visits_place`.
-/

namespace StageLink
namespace Shader

/-- The top-level list, and the bodies of a function for each of its declarations there. -/
def visitedBodies (shader : Shader) : List Block :=
  shader.topLevel :: shader.declaredFunctions.flatMap fun id =>
    (shader.signaturesOf id).map (·.body)

/-- The part at an address, whose first position chooses the list. -/
def partAt? (shader : Shader) : Address → Option TreePart
  | [] => none
  | position :: rest =>
      shader.visitedBodies[position]?.bind fun body => (TreePart.block body).at? rest

def Visits (shader : Shader) (part : TreePart) : Prop :=
  ∃ address, shader.partAt? address = some part

variable {shader : Shader}

theorem mem_visitedBodies {body : Block} : body ∈ shader.visitedBodies ↔
    body = shader.topLevel ∨ ∃ id ∈ shader.declaredFunctions,
      ∃ signature ∈ shader.signaturesOf id, signature.body = body := by
  simp [visitedBodies]

/-- Whatever is in a shader is in one of its lists. -/
theorem partAt?_eq_some {address : Address} {part : TreePart} : shader.partAt? address = some part ↔
    ∃ position rest body, address = position :: rest ∧ shader.visitedBodies[position]? = some body ∧
      (TreePart.block body).at? rest = some part := by
  cases address with
  | nil => simp [partAt?]
  | cons position rest =>
      rw [partAt?, Option.bind_eq_some_iff]
      constructor
      · rintro ⟨body, listed, there⟩
        exact ⟨position, rest, body, rfl, listed, there⟩
      · rintro ⟨_, _, body, same, listed, there⟩
        cases same
        exact ⟨body, listed, there⟩

theorem tour_listedNodes (shader : Shader) :
    Tour OutsideFirst (fun address => (shader.partAt? address).bind TreePart.node?)
      shader.listedNodes := by
  have each : List.Forall₂ (fun view nodes => Tour OutsideFirst view nodes)
      (shader.visitedBodies.map fun body => (TreePart.block body).view TreePart.node?)
      (shader.visitedBodies.map Block.ownNodes) := by
    rw [List.forall₂_map_left_iff, List.forall₂_map_right_iff]
    exact List.forall₂_same.mpr fun body _ => body.hasNodes
  have nodes : (shader.visitedBodies.map Block.ownNodes).flatten = shader.listedNodes := by
    rw [visitedBodies, List.map_cons, List.flatten_cons, ← List.flatMap_def,
      List.flatMap_assoc, listedNodes]
    simp only [List.flatMap_map]
    rfl
  have views : (fun address => (shader.partAt? address).bind TreePart.node?) =
      sideBySide (shader.visitedBodies.map fun body =>
        (TreePart.block body).view TreePart.node?) := by
    funext address
    cases address with
    | nil => rfl
    | cons position rest =>
        rw [partAt?, sideBySide, List.getElem?_map, Option.bind_assoc, Option.bind_map]
        rfl
  rw [← nodes, views]
  exact Tour.beside partByPart_outsideFirst each

theorem mem_nodes_iff (on_top : shader.FunctionsOnTop) {node : Node} :
    node ∈ shader.nodes ↔ ∃ address, (shader.partAt? address).bind TreePart.node? = some node := by
  rw [(nodes_perm on_top).mem_iff, shader.tour_listedNodes.mem_iff]

theorem visits_instruction (on_top : shader.FunctionsOnTop) {instruction : Instruction} :
    shader.Visits (.instruction instruction) ↔ Node.instruction instruction ∈ shader.nodes := by
  simp [mem_nodes_iff on_top, Visits, Option.bind_eq_some_iff]

theorem visits_place (on_top : shader.FunctionsOnTop) {place : Place} :
    shader.Visits (.place place) ↔ Node.place place ∈ shader.nodes := by
  simp [mem_nodes_iff on_top, Visits, Option.bind_eq_some_iff]

end Shader
end StageLink
