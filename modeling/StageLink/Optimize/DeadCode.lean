import StageLink.Shader

/-!
# Dead code

A declared variable all of whose occurrences are targets of assignments is never read.  Assignments
to it are removed, unless they are visible outside the function or shader, and once nothing refers
to it any more its declaration is removed.
-/

namespace StageLink

namespace Variable

/-- Whether what is stored in the variable is visible outside of the shader or function. -/
def isOutput (declaration : Variable) : Bool :=
  match declaration.mode with
  | .shaderOut | .functionOut | .functionInout => true
  | _ => false

/-- Whether a declaration stays although nothing refers to it: uniforms keep theirs if they have an
initial value or, when asked, once they have locations. -/
def keepsDeclaration (keepUniforms : Bool) (declaration : Variable) : Bool :=
  declaration.mode = .uniform && (keepUniforms || declaration.constantInitializer.isSome)

end Variable

namespace Node

def refersTo (id : VariableId) : Node → Bool
  | place (.whole found) => found = id
  | _ => false

/-- Whether the node is an assignment to a place in the given variable. -/
def assignsTo (id : VariableId) : Node → Bool
  | instruction (.assign target _ _) => target.root = id
  | _ => false

def declares (id : VariableId) : Node → Bool
  | instruction (.declare found) => found = id
  | _ => false

end Node

namespace Shader

/-- Whether a variable is declared and occurs only as the target of assignments. -/
def isUnread (nodes : List Node) (id : VariableId) : Bool :=
  nodes.any (Node.declares id) && nodes.countP (Node.refersTo id) ≤ nodes.countP (Node.assignsTo id)

/-- The unread variables to which assignments can be removed. -/
def deadTargets (shader : Shader) : List VariableId :=
  let nodes := shader.nodes
  (shader.vars.indexed.filter fun pair =>
    isUnread nodes pair.1 && nodes.any (Node.assignsTo pair.1) && !pair.2.isOutput).map (·.1)

/-- The variables whose declarations can be removed. -/
def deadDeclarations (keepUniforms : Bool) (shader : Shader) : List VariableId :=
  let nodes := shader.nodes
  (shader.vars.indexed.filter fun pair =>
    isUnread nodes pair.1 && !nodes.any (Node.assignsTo pair.1)
      && !pair.2.keepsDeclaration keepUniforms).map (·.1)

/-- Whether an instruction is neither an assignment to one of the targets nor one of the
declarations. -/
def survives (targets declarations : List VariableId) : Instruction → Bool
  | .assign target _ _ => !targets.contains target.root
  | .declare id => !declarations.contains id
  | _ => true

def unbindVariables (shader : Shader) : SymbolTable → List VariableId → SymbolTable
  | symbols, [] => symbols
  | symbols, id :: ids =>
      match shader.vars.get? id with
      | some declaration =>
          if symbols.vars.get? declaration.name = some id then
            shader.unbindVariables (symbols.removeVariable declaration.name) ids
          else
            shader.unbindVariables symbols ids
      | none => shader.unbindVariables symbols ids

/-- Remove the assignments and declarations that are dead, all at once.  Removing an assignment can
make more of them dead. -/
def removeDeadCode (keepUniforms : Bool) (shader : Shader) : Shader :=
  let targets := shader.deadTargets
  let declarations := shader.deadDeclarations keepUniforms
  let unbound :=
    { shader with symbols := shader.unbindVariables shader.symbols declarations }
  unbound.updateBodies (Block.updateBlocks (List.filter (survives targets declarations)))

end Shader
end StageLink
