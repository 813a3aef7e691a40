import StageLink.Diagnostic.Judged
import StageLink.Shader
import StageLink.UniformBlock.Std140

/-!
# Tables of uniform blocks

Blocks of the same name are one block and must be defined alike, among the units of a stage and then
among the stages of a program.  The program's table lists every block once, and for each stage tells
where the stage itself has it.
-/

namespace StageLink
namespace UniformBlock

/-- Add a block to a table that has no block of its name; a block of the name must be defined
alike. -/
def enter (table : List UniformBlock) (block : UniformBlock) :
    Except LinkError (List UniformBlock) :=
  match table.find? (·.name = block.name) with
  | none => .ok (table ++ [block])
  | some existing =>
      if existing.sameDefinition block then .ok table
      else .error (.uniformBlockMismatch block.name)

/-- Add some blocks to a table. -/
def enterAll (table : List UniformBlock) : List UniformBlock → Except LinkError (List UniformBlock)
  | [] => .ok table
  | block :: blocks => do enterAll (← enter table block) blocks

/-- Lay blocks out until one is too big. -/
def layoutAll (limit : Nat) : List UniformBlock → Except LinkError (List UniformBlock)
  | [] => .ok []
  | block :: blocks =>
      if limit < block.layout.size then
        .error (.uniformBlockTooBig block.name block.layout.size limit)
      else do
        return block.layout :: (← layoutAll limit blocks)

/-- The blocks of the units of one stage, laid out. -/
def ofUnits (limit : Nat) (units : List Shader) : Except LinkError (List UniformBlock) := do
  layoutAll limit (← enterAll [] (units.flatMap (·.uniformBlocks)))

def positionsIn (table stage : List UniformBlock) : List (Option Nat) :=
  table.map fun block =>
    (stage.zipIdx.reverse.find? fun pair => pair.1.name = block.name).map (·.2)

/-- The table of a program and, for each stage, the positions of its blocks in that stage.  A stage
without an executable has no positions at all. -/
def ofProgram (executables : PerStage (Option Shader)) :
    Except LinkError (List UniformBlock × PerStage (List (Option Nat))) := do
  let blocks := executables.map fun executable =>
    (executable.map Shader.uniformBlocks).getD []
  let table ← enterAll [] (blocks.toList.flatMap id)
  return (table, blocks.map (positionsIn table))

end UniformBlock
end StageLink
