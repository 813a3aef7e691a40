import StageLink.Expr

/-!
# Instructions and functions

A shader is a list of instructions: declarations at the top level and statements in the bodies of
functions.  A function has one signature for each list of parameter types; a signature that is not
defined only announces the function and has an empty body.
-/

namespace StageLink

/-- A node of an instruction list. -/
inductive Instruction where
  /-- Declare a variable in the enclosing scope. -/
  | declare (id : VariableId)
  /-- Declare a function. -/
  | function (id : FunctionId)
  /-- Store a value in a place, if the guard holds. -/
  | assign (target : Place) (value : Expr) (guard : Option Expr)
  /-- Call a signature and store what it returns. -/
  | call (callee : Callee) (arguments : List Expr) (result : Option Place)
  | branch (condition : Expr) (accept reject : List Instruction)
  | loop (body : List Instruction)
  /-- Leave the innermost loop. -/
  | leave
  /-- Go on with the next turn of the innermost loop. -/
  | next
  /-- Return from a function. -/
  | yield (value : Option Expr)
  | discard
  | emitVertex
  | endPrimitive

abbrev Block := List Instruction

/-- One overload of a function. -/
structure Signature where
  returnType : Ty := .void
  /-- The parameter variables in the order of declaration. -/
  parameters : List VariableId := []
  body : Block := []
  /-- Whether there is a body, rather than an announcement only. -/
  isDefined : Bool := false
  /-- Provided by the library of built-in functions. -/
  isBuiltin : Bool := false

/-- A named function with its overloads. -/
structure Function where
  name : String
  signatures : List Signature := []

namespace Instruction

def isDeclaration : Instruction → Bool
  | declare _ => true
  | function _ => true
  | _ => false

def store (target : Place) (value : Expr) : Instruction := assign target value none

/-- Replace the blocks nested directly in an instruction. -/
def withBlocks (instruction : Instruction) (first second : Block) : Instruction :=
  match instruction with
  | branch condition _ _ => branch condition first second
  | loop _ => loop first
  | other => other

end Instruction

namespace Signature

/-- An announcement without a body. -/
def announce (returnType : Ty) (parameters : List VariableId) : Signature :=
  { returnType := returnType, parameters := parameters }

def define (returnType : Ty) (parameters : List VariableId) (body : Block) : Signature :=
  { returnType := returnType, parameters := parameters, body := body, isDefined := true }

end Signature
end StageLink
