import StageLink.Diagnostic.Log
import StageLink.Limits
import StageLink.Uniform.Storage

/-!
# Uniform quotas

Samplers, uniform components and uniform blocks are counted for each stage, and blocks also for the
program.  Too many uniform components are only worth a warning if the options say so.
-/

namespace StageLink
namespace Uniform

def overLimit (isOver : Bool) (severity : Severity) (cause : LinkError) : List LogEntry :=
  if isOver then [⟨severity, cause⟩] else []

/-- What is over the limits of a stage, apart from blocks. -/
def stageOverruns (options : Options) (stage : Stage) (usage : StageUsage) : List LogEntry :=
  let limits := options.limits
  let tooManyDefault := limits.uniformComponents.get stage < usage.components
  let tooManyCombined := limits.combinedUniformComponents.get stage < usage.combinedComponents
  overLimit (limits.textureUnits.get stage < usage.samplers) .error (.tooManySamplers stage)
    ++ (if options.lenientUniforms then
          overLimit tooManyDefault .warning (.defaultComponentsOverLimit stage)
            ++ overLimit tooManyCombined .warning (.uniformComponentsOverLimit stage)
        else
          overLimit tooManyDefault .error (.tooManyDefaultComponents stage)
            ++ overLimit tooManyCombined .error (.tooManyUniformComponents stage))

/-- The number of blocks that a stage has of a program's table. -/
def blockCount (positions : List (Option Nat)) : Nat := positions.countP (·.isSome)

/-- What is over the limits on uniform blocks.  The blocks of all stages together are limited, but
the message tells how many blocks the program has. -/
def blockOverruns (limits : Limits) (positions : PerStage (List (Option Nat))) : List LogEntry :=
  let counts := positions.map blockCount
  let programBlocks := (positions.toList.map List.length).foldl max 0
  overLimit (limits.combinedUniformBlocks < total counts.toList) .error
      (.tooManyCombinedBlocks programBlocks limits.combinedUniformBlocks)
    ++ Stage.all.flatMap fun stage =>
      let limit := limits.uniformBlocks.get stage
      overLimit (limit < counts.get stage) .error
        (.tooManyUniformBlocks stage (counts.get stage) limit)

/-- Everything over its limit in the stages that have an executable. -/
def overruns (options : Options) (present : List Stage) (usages : PerStage StageUsage)
    (positions : PerStage (List (Option Nat))) : List LogEntry :=
  present.flatMap (fun stage => stageOverruns options stage (usages.get stage))
    ++ blockOverruns options.limits positions

end Uniform
end StageLink
