import StageLink.Optimize.DeadCode
import StageLink.Optimize.DeadFunctions
import StageLink.Optimize.Fold

/-!
# Passes

A pass simplifies a shader.  Every simplification removes instructions, expressions or signatures,
so the weight of a shader, which counts them, tells whether a pass has changed anything and bounds
how often passes can go on doing so.
-/

namespace StageLink

/-- The number of nodes in all instruction lists and of signatures. -/
def Shader.weight (shader : Shader) : Nat :=
  total (shader.bodies.map fun body => (Block.ownNodes body).length)
    + total (shader.functions.entries.map (·.signatures.length))

/-- A way to simplify a shader. -/
inductive Pass where
  | foldConstants
  /-- Remove dead code, keeping all uniforms or only those with initial values. -/
  | removeDeadCode (keepUniforms : Bool)
  | removeDeadFunctions
  /-- Look for structural problems; this changes nothing. -/
  | inspect
  deriving DecidableEq

def Pass.run : Pass → Shader → Shader
  | foldConstants, shader => shader.foldConstants
  | removeDeadCode keepUniforms, shader => shader.removeDeadCode keepUniforms
  | removeDeadFunctions, shader => shader.removeDeadFunctions
  | inspect, shader => shader

/-- How much to optimize. -/
inductive OptimizationLevel where
  | none
  /-- Fold constants and remove dead code. -/
  | basic
  /-- Also remove dead functions. -/
  | full
  deriving DecidableEq

/-- The passes of a level in the order in which they run. -/
def OptimizationLevel.passes : OptimizationLevel → List Pass
  | none => []
  | basic => [.foldConstants, .removeDeadCode false]
  | full => [.foldConstants, .removeDeadFunctions, .removeDeadCode false]

namespace Shader

/-- Run some passes one after the other. -/
def runPasses (passes : List Pass) (shader : Shader) : Shader :=
  passes.foldl (fun shader pass => pass.run shader) shader

/-- Repeat some passes until they change nothing, but at most a number of rounds. -/
def optimizeRounds (passes : List Pass) : Nat → Shader → Shader
  | 0, shader => shader
  | rounds + 1, shader =>
      let simplified := shader.runPasses passes
      if simplified.weight < shader.weight then
        optimizeRounds passes rounds simplified
      else
        simplified

/-- Optimize a shader, giving up after ten rounds. -/
def optimize (level : OptimizationLevel) (shader : Shader) : Shader :=
  shader.optimizeRounds level.passes 10

/-- Repeat a simplification for as long as it removes something. -/
def exhaust (simplify : Shader → Shader) (shader : Shader) : Shader :=
  if (simplify shader).weight < shader.weight then
    exhaust simplify (simplify shader)
  else
    simplify shader
termination_by shader.weight

/-- Remove dead code until there is none left. -/
def removeAllDeadCode (shader : Shader) : Shader :=
  shader.exhaust fun shader => shader.removeDeadCode false

/-- Optimize a shader as far as possible. -/
def optimizeFully (shader : Shader) : Shader :=
  shader.exhaust fun shader => shader.optimize .full

end Shader
end StageLink
