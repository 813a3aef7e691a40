/-!
# Faults

Handles are plain positions, and a shader read from outside may hold one that points nowhere.  An
operation that has to follow such a handle gives no answer; it faults, and a fault says which
handle, callee or name it was about.
-/

namespace StageLink

/-- The position of a variable in the arena of its shader. -/
abbrev VariableId := Nat

/-- The position of a function in the arena of its shader. -/
abbrev FunctionId := Nat

/-- One signature of a function of the same shader. -/
structure Callee where
  function : FunctionId
  signature : Nat
  deriving DecidableEq

/-- Why an operation has no answer. -/
inductive Fault where
  /-- A variable handle outside the arena. -/
  | noVariable (id : VariableId)
  /-- A function handle outside the arena. -/
  | noFunction (id : FunctionId)
  /-- A callee without such a signature. -/
  | noSignature (callee : Callee)
  /-- A resource name cut inside a character. -/
  | splitCharacter (name : String)
  deriving DecidableEq

/-- An operation on shaders that may fault. -/
abbrev Checked := Except Fault

end StageLink
