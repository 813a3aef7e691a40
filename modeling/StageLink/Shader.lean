import StageLink.Stage
import StageLink.SymbolTable
import StageLink.UniformBlock
import StageLink.Walk

/-!
# Shaders

A shader is either one compiled translation unit or the linked executable of a stage.  Its top-level
list declares variables and functions, and may hold initializing statements that the front end left
outside `main`.  The symbol table says what the names declared there stand for.
-/

namespace StageLink

/-- A translation unit, or the executable of a stage. -/
structure Shader where
  stage : Stage
  version : Nat
  /-- Written in the embedded dialect. -/
  isEs : Bool := false
  vars : Arena Variable := {}
  functions : Arena Function := {}
  topLevel : Block := []
  symbols : SymbolTable := {}
  geometry : GeometryLayout := {}
  uniformBlocks : List UniformBlock := []

namespace Shader

/-! ## Following handles -/

/-- The variable a handle points to. -/
def fetchVariable (shader : Shader) (id : VariableId) : Checked Variable :=
  match shader.vars.get? id with
  | some declaration => .ok declaration
  | none => .error (.noVariable id)

/-- The function a handle points to. -/
def fetchFunction (shader : Shader) (id : FunctionId) : Checked Function :=
  match shader.functions.get? id with
  | some function => .ok function
  | none => .error (.noFunction id)

def fetchSignature (shader : Shader) (callee : Callee) : Checked Signature := do
  let function ← shader.fetchFunction callee.function
  match function.signatures[callee.signature]? with
  | some signature => .ok signature
  | none => .error (.noSignature callee)

def typesOf (shader : Shader) (ids : List VariableId) : Checked (List Ty) :=
  ids.mapM fun id => return (← shader.fetchVariable id).ty

def parameterTypes (shader : Shader) (callee : Callee) : Checked (List Ty) := do
  shader.typesOf (← shader.fetchSignature callee).parameters

/-! ## Looking up names -/

def globals (shader : Shader) : List VariableId :=
  shader.topLevel.filterMap fun
    | .declare id => some id
    | _ => none

def declaredFunctions (shader : Shader) : List FunctionId :=
  shader.topLevel.filterMap fun
    | .function id => some id
    | _ => none

def findVariable? (shader : Shader) (name : String) : Option Variable :=
  (shader.symbols.vars.get? name).bind shader.vars.get?

/-- The signatures of the function with a name, which is declared at the top level. -/
def signaturesOf (shader : Shader) (function : FunctionId) : List Signature :=
  ((shader.functions.get? function).map (·.signatures)).getD []

/-- The defined signature of `main` without parameters. -/
def mainSignature? (shader : Shader) : Option Callee := do
  let function ← shader.symbols.functions.get? "main"
  let signature ← (shader.signaturesOf function).findIdx? fun signature =>
    signature.parameters.isEmpty && signature.isDefined
  return ⟨function, signature⟩

/-- Whether the variables have exactly the given types, one by one. -/
def haveTypes (shader : Shader) : List VariableId → List Ty → Checked Bool
  | id :: ids, ty :: types => do
      if (← shader.fetchVariable id).ty = ty then shader.haveTypes ids types else return false
  | _, _ => return true

/-- The position of the first of some signatures with exactly the given parameter types. -/
def findSignatureFrom (shader : Shader) (types : List Ty) :
    Nat → List Signature → Checked (Option Nat)
  | _, [] => return none
  | position, signature :: signatures => do
      if signature.parameters.length = types.length then
        if ← shader.haveTypes signature.parameters types then
          return some position
      shader.findSignatureFrom types (position + 1) signatures

/-- The position of the first signature of a function with exactly the given parameter types. -/
def findSignature (shader : Shader) (function : FunctionId) (types : List Ty) :
    Checked (Option Nat) := do
  shader.findSignatureFrom types 0 (← shader.fetchFunction function).signatures

/-! ## Building -/

/-- A shader without declarations. -/
def ofStage (stage : Stage) (version : Nat) (isEs : Bool) : Shader :=
  { stage := stage, version := version, isEs := isEs }

/-- Add a variable without declaring it, as for parameters and locals. -/
def addVariable (shader : Shader) (declaration : Variable) : Shader × VariableId :=
  ({ shader with vars := shader.vars.push declaration }, shader.vars.size)

/-- Declare a global variable at the end of the top-level list. -/
def declare (shader : Shader) (declaration : Variable) : Shader × VariableId :=
  let (shader, id) := shader.addVariable declaration
  ({ shader with
      topLevel := shader.topLevel ++ [.declare id]
      symbols := shader.symbols.addVariable declaration.name id }, id)

def declareFunction (shader : Shader) (name : String) : Shader × FunctionId :=
  match shader.symbols.functions.get? name with
  | some id => (shader, id)
  | none =>
      let id := shader.functions.size
      ({ shader with
          functions := shader.functions.push { name := name }
          topLevel := shader.topLevel ++ [.function id]
          symbols := shader.symbols.addFunction name id }, id)

def addSignature (shader : Shader) (function : FunctionId) (signature : Signature) :
    Checked (Shader × Callee) := do
  let found ← shader.fetchFunction function
  let extended := { found with signatures := found.signatures ++ [signature] }
  return ({ shader with functions := shader.functions.modify function fun _ => extended },
    ⟨function, found.signatures.length⟩)

def defineMain (shader : Shader) (body : Block) : Checked (Shader × Callee) :=
  let (shader, main) := shader.declareFunction "main"
  shader.addSignature main (.define .void [] body)

def modifyVariable (shader : Shader) (id : VariableId) (change : Variable → Variable) : Shader :=
  { shader with vars := shader.vars.modify id change }

def modifySignature (shader : Shader) (callee : Callee) (change : Signature → Signature) : Shader :=
  { shader with
    functions := shader.functions.modify callee.function fun function =>
      { function with signatures := function.signatures.modify callee.signature change } }

def enterSymbols (shader : Shader) (symbols : SymbolTable) : Block → SymbolTable
  | [] => symbols
  | .declare id :: rest =>
      match shader.vars.get? id with
      | some declaration => shader.enterSymbols (symbols.addVariable declaration.name id) rest
      | none => shader.enterSymbols symbols rest
  | .function id :: rest =>
      match shader.functions.get? id with
      | some function => shader.enterSymbols (symbols.addFunction function.name id) rest
      | none => shader.enterSymbols symbols rest
  | _ :: rest => shader.enterSymbols symbols rest

/-- Rebuild the symbol table from the top-level declarations. -/
def populateSymbols (shader : Shader) : Shader :=
  { shader with symbols := shader.enterSymbols {} shader.topLevel }

/-! ## All bodies -/

/-- Rewrite the top-level list and then the body of every signature. -/
def mapBodies {m : Type → Type} [Monad m] (shader : Shader) (change : Block → m Block) :
    m Shader := do
  let topLevel ← change shader.topLevel
  let functions ← shader.functions.entries.mapM fun function => do
    let signatures ← function.signatures.mapM fun signature =>
      return { signature with body := ← change signature.body }
    return { function with signatures := signatures }
  return { shader with topLevel := topLevel, functions := ⟨functions⟩ }

/-- Rewrite the top-level list and the body of every signature without effects. -/
def updateBodies (shader : Shader) (change : Block → Block) : Shader :=
  { shader with
    topLevel := change shader.topLevel
    functions := shader.functions.map fun function =>
      { function with
        signatures := function.signatures.map fun signature =>
          { signature with body := change signature.body } } }

def bodies (shader : Shader) : List Block :=
  shader.topLevel
    :: shader.functions.entries.flatMap fun function => function.signatures.map (·.body)

/-- What is inside a declared function, for functions declared inside one another to a depth. -/
def insideFunction (shader : Shader) : Nat → FunctionId → List Node
  | 0, _ => []
  | depth + 1, id =>
      (shader.signaturesOf id).flatMap fun signature =>
        Block.nodes (shader.insideFunction depth) signature.body

/-- The nodes of the top-level list and, inside each declaration of a function, of its bodies.
Functions can be declared inside one another no deeper than there are functions. -/
def nodes (shader : Shader) : List Node :=
  Block.nodes (shader.insideFunction shader.functions.size) shader.topLevel

def walkBodies {m : Type → Type} [Monad m] (walk : Block → m Bool) : List Signature → m Bool
  | [] => pure true
  | signature :: signatures => continueWith (walk signature.body) (walkBodies walk signatures)

/-- Walk what is inside a declared function. -/
def walkFunction {m : Type → Type} [Monad m] (shader : Shader) (visit : Node → m Visit) :
    Nat → FunctionId → m Bool
  | 0, _ => pure true
  | depth + 1, id =>
      walkBodies (Block.walk visit (shader.walkFunction visit depth)) (shader.signaturesOf id)

/-- Present the nodes of the shader to a visitor, which may pass over some or stop. -/
def walk {m : Type → Type} [Monad m] (shader : Shader) (visit : Node → m Visit) : m Bool :=
  Block.walk visit (shader.walkFunction visit shader.functions.size) shader.topLevel

def mentioned (nodes : List Node) : List VariableId :=
  nodes.filterMap fun
    | .instruction (.declare id) => some id
    | .place (.whole id) => some id
    | _ => none

end Shader
end StageLink
