import StageLink.Shader

/-!
# Cloning between shaders

Handles mean something only in the shader that owns them, so instructions that move to another
shader are rebuilt there.  Local variables and parameters are copied and renamed.  Globals are found
by name; one that the target lacks is declared at the head of its top-level list.  A function is
found by name and parameter types, and is announced if the target lacks it.
-/

namespace StageLink

/-- The target of a cloning with the variables that have been given a counterpart in it. -/
structure Cloning where
  target : Shader
  /-- Counterparts of source variables, the latest first. -/
  renamed : List (VariableId × VariableId) := []

/-- A step of cloning. -/
abbrev CloneM := StateT Cloning Checked

namespace CloneM

/-- Run a step on a target. -/
def runOn {Result : Type} (step : CloneM Result) (target : Shader)
    (renamed : List (VariableId × VariableId)) : Checked (Result × Shader) := do
  let (result, cloning) ← step.run { target := target, renamed := renamed }
  return (result, cloning.target)

/-- Add a variable to the target without declaring it. -/
def addVariable (declaration : Variable) : CloneM VariableId := do
  let cloning ← get
  let (target, id) := cloning.target.addVariable declaration
  set { cloning with target := target }
  return id

def rename (source counterpart : VariableId) : CloneM Unit :=
  modify fun cloning => { cloning with renamed := (source, counterpart) :: cloning.renamed }

def copyVariable (source : Shader) (id : VariableId) : CloneM VariableId := do
  addVariable (← source.fetchVariable id)

def localVariable (source : Shader) (id : VariableId) : CloneM VariableId := do
  let counterpart ← copyVariable source id
  rename id counterpart
  return counterpart

/-- Declare a global at the head of the target. -/
def declareFirst (declaration : Variable) : CloneM VariableId := do
  let id ← addVariable declaration
  modify fun cloning =>
    { cloning with
      target :=
        { cloning.target with
          topLevel := .declare id :: cloning.target.topLevel
          symbols := cloning.target.symbols.addVariable declaration.name id } }
  return id

/-- The counterpart of a variable: the one it has been given, the global of its name, or else a new
global. -/
def variableFor (source : Shader) (id : VariableId) : CloneM VariableId := do
  let cloning ← get
  match cloning.renamed.lookup id with
  | some counterpart => return counterpart
  | none =>
      let declaration ← source.fetchVariable id
      match cloning.target.symbols.vars.get? declaration.name with
      | some existing => return existing
      | none => declareFirst declaration

/-- Replace the variable in a place itself. -/
def place (source : Shader) : Place → CloneM Place
  | .whole id => return .whole (← variableFor source id)
  | other => return other

/-- The function with a name in the target, declared if need be. -/
def functionNamed (name : String) : CloneM FunctionId := do
  let cloning ← get
  let (target, function) := cloning.target.declareFunction name
  set { cloning with target := target }
  return function

def announce (source : Shader) (function : FunctionId) (signature : Signature) :
    CloneM Callee := do
  let parameters ← signature.parameters.mapM (copyVariable source)
  let announced := Signature.announce signature.returnType parameters
  let cloning ← get
  let (target, callee) ←
    cloning.target.addSignature function { announced with isBuiltin := signature.isBuiltin }
  set { cloning with target := target }
  return callee

/-- The counterpart of a callee. -/
def calleeFor (source : Shader) (callee : Callee) : CloneM Callee := do
  let name := (← source.fetchFunction callee.function).name
  let signature ← source.fetchSignature callee
  let types ← source.typesOf signature.parameters
  let function ← functionNamed name
  match ← (← get).target.findSignature function types with
  | some position => return ⟨function, position⟩
  | none => announce source function signature

/-- Rebuild what an instruction itself holds. -/
def instruction (source : Shader) : Instruction → CloneM Instruction
  | .declare id => return .declare (← localVariable source id)
  | .call callee arguments result => do
      let callee ← calleeFor source callee
      Instruction.mapPlaces (place source) (.call callee arguments result)
  | other => Instruction.mapPlaces (place source) other

def isNoFunction : Instruction → Bool
  | .function _ => false
  | _ => true

/-- Rebuild an instruction list, leaving out function declarations. -/
def block (source : Shader) (block : Block) : CloneM Block :=
  Block.mapInstructions (instruction source)
    (Block.updateBlocks (List.filter isNoFunction) block)

end CloneM
end StageLink
