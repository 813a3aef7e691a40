import StageLink.Shader

/-!
# Structural problems

A shader is sound when every handle points to something, no variable is declared twice, every place
lies in a variable that is declared or a parameter, every call has a signature, and jumps occur only
inside loops.  `Shader.problems` lists everything that keeps a shader from being sound.
-/

namespace StageLink

/-- Something wrong with the structure of a shader. -/
inductive Problem where
  /-- A handle outside an arena of the given size. -/
  | badHandle (index size : Nat)
  | undeclaredVariable (name : String)
  | badSignature (function : String) (signature : Nat)
  /-- A jump outside of a loop. -/
  | orphanedJump (word : String)
  | duplicateDeclaration (name : String)
  deriving DecidableEq

/-- The text of a problem. -/
def Problem.message : Problem → String
  | badHandle index size => s!"handle index {index} out of bounds (arena size: {size})"
  | undeclaredVariable name => s!"variable `{name}' referenced but not declared"
  | badSignature function signature =>
      s!"call to `{function}' references missing signature {signature}"
  | orphanedJump word => s!"`{word}' outside of a loop"
  | duplicateDeclaration name => s!"variable `{name}' declared more than once"

/-- The problem with the next of the declarations, given those that went before. -/
def declarationProblems (vars : Arena Variable) :
    List VariableId → List VariableId → List Problem
  | _, [] => []
  | seen, id :: ids =>
      match vars.get? id with
      | none => .badHandle id vars.size :: declarationProblems vars seen ids
      | some declaration =>
          if seen.contains id then
            .duplicateDeclaration declaration.name :: declarationProblems vars seen ids
          else
            declarationProblems vars (id :: seen) ids

mutual

def Instruction.orphanedJumps (inLoop : Bool) : Instruction → List Problem
  | .leave => if inLoop then [] else [.orphanedJump "break"]
  | .next => if inLoop then [] else [.orphanedJump "continue"]
  | .branch _ accept reject =>
      Block.orphanedJumps inLoop accept ++ Block.orphanedJumps inLoop reject
  | .loop body => Block.orphanedJumps true body
  | _ => []

def Block.orphanedJumps (inLoop : Bool) : List Instruction → List Problem
  | [] => []
  | instruction :: rest =>
      instruction.orphanedJumps inLoop ++ Block.orphanedJumps inLoop rest

end

namespace Shader

def declaredIn (nodes : List Node) : List VariableId :=
  nodes.filterMap fun
    | .instruction (.declare id) => some id
    | _ => none

def calleeProblem? (shader : Shader) (callee : Callee) : Option Problem :=
  match shader.functions.get? callee.function with
  | none => some (.badHandle callee.function shader.functions.size)
  | some function =>
      if function.signatures.length ≤ callee.signature then
        some (.badSignature function.name callee.signature)
      else
        none

/-- The problems with places and callees, each undeclared variable being reported once. -/
def useProblems (shader : Shader) (declared : List VariableId) :
    List VariableId → List Node → List Problem
  | _, [] => []
  | reported, .place (.whole id) :: rest =>
      match shader.vars.get? id with
      | none => .badHandle id shader.vars.size :: shader.useProblems declared reported rest
      | some declaration =>
          if declared.contains id || reported.contains id then
            shader.useProblems declared reported rest
          else
            .undeclaredVariable declaration.name
              :: shader.useProblems declared (id :: reported) rest
  | reported, .instruction (.call callee _ _) :: rest =>
      (shader.calleeProblem? callee).toList ++ shader.useProblems declared reported rest
  | reported, _ :: rest => shader.useProblems declared reported rest

/-- Everything wrong with the structure of a shader: declarations first, then uses, then jumps. -/
def problems (shader : Shader) : List Problem :=
  let nodes := shader.nodes
  let declarations := declaredIn nodes
  let functions := shader.declaredFunctions
  let badFunctions := functions.filterMap fun id =>
    if shader.functions.contains id then none else some (.badHandle id shader.functions.size)
  let parameters :=
    functions.flatMap fun id => (shader.signaturesOf id).flatMap (·.parameters)
  let signatures := functions.flatMap shader.signaturesOf
  declarationProblems shader.vars [] declarations
    ++ badFunctions
    ++ shader.useProblems (declarations ++ parameters) [] nodes
    ++ Block.orphanedJumps false shader.topLevel
    ++ signatures.flatMap fun signature => Block.orphanedJumps false signature.body

end Shader
end StageLink
