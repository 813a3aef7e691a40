import StageLink.CommandLine.File
import StageLink.CommandLine.Manifest
import StageLink.Program.Link
import StageLink.Shader.Listing

/-!
# The command line

What a run of the linker is asked to do, and what it reports: a summary of the linked program and,
if wanted, the listings of its executables.  A program that does not link is reported by its log
alone.
-/

namespace StageLink

/-- What a run is asked to do. -/
structure Command where
  /-- The file of the manifest. -/
  manifest : String
  /-- A file of limits that replace those of the manifest. -/
  limits : Option String := none
  embeddedApi : Bool := false
  lenientUniforms : Bool := false
  /-- List the executables after the summary. -/
  listings : Bool := false
  deriving DecidableEq

/-- What a run has to say. -/
structure Report where
  succeeded : Bool
  output : String := ""
  log : Log := {}

namespace Command

/-- Take the words of a command line; the one word that is no option names the manifest. -/
def parseFrom (command : Command) (named : Bool) : List String → Option Command
  | [] => if named then some command else none
  | "--api-es2" :: words => parseFrom { command with embeddedApi := true } named words
  | "--lenient-uniform-limits" :: words =>
      parseFrom { command with lenientUniforms := true } named words
  | "--dump-ir" :: words => parseFrom { command with listings := true } named words
  | "--verbose" :: words => parseFrom command named words
  | "-v" :: words => parseFrom command named words
  | "--limits" :: file :: words => parseFrom { command with limits := some file } named words
  | word :: words =>
      if named || word.startsWith "-" then none
      else parseFrom { command with manifest := word } true words

/-- The command of a command line, if it makes sense. -/
def parse (words : List String) : Option Command := parseFrom { manifest := "" } false words

def pathOf (command : Command) (file : String) : String :=
  let directory := (command.manifest.toList.reverse.dropWhile (· ≠ '/')).reverse
  if file.startsWith "/" then file else String.ofList directory ++ file

/-- The options of a run, given the limits that replace those of the manifest. -/
def options (command : Command) (limits : Option Limits) (manifest : Manifest) : Options :=
  { limits := limits.getD manifest.options.limits
    lenientUniforms := manifest.options.lenientUniforms || command.lenientUniforms
    embeddedApi := manifest.options.embeddedApi || command.embeddedApi }

end Command

namespace Outcome

/-- Where a uniform is found. -/
def placeText (entry : UniformEntry) : String :=
  match entry.location, entry.block with
  | some location, _ => s!"location {location}"
  | none, some block => s!"block {block}"
  | none, none => "-"

/-- The lines that sum up a linked program. -/
def summary (outcome : Outcome) : List String :=
  let dialect := if outcome.isEs then " es" else ""
  let stages := String.intercalate ", " (outcome.presentStages.map Stage.name)
  let uniforms := outcome.uniforms.map fun entry =>
    s!"  uniform {entry.ty.text} {entry.name}: {placeText entry}"
  let blocks := outcome.uniformBlocks.map fun block =>
    s!"  uniform block {block.name} ({block.size} bytes)"
  let captured := outcome.captured.map fun entry =>
    s!"  captured {entry.ty.text} {entry.name}: buffer {entry.buffer} offset {entry.offset}"
  s!"linked version {outcome.version}{dialect} program: {stages}"
    :: (uniforms ++ blocks ++ captured)

def listings (outcome : Outcome) : List String :=
  Stage.all.flatMap fun stage =>
    match outcome.executables.get stage with
    | some shader => [s!"; {stage.name} shader", shader.listing]
    | none => []

end Outcome

def Command.run (command : Command) (limits : Option Limits) (manifest : Manifest)
    (shaders : List Shader) : Checked Report := do
  let program ← (manifest.program shaders).link (command.options limits manifest)
  let outcome := program.outcome
  if program.linked then
    let lines := outcome.summary ++ if command.listings then outcome.listings else []
    return { succeeded := true, output := String.join (lines.map (· ++ "\n")), log := outcome.log }
  else
    return { succeeded := false, log := outcome.log }

/-- Carry out a command, given a way to fetch the documents that its files hold.  All files have to
be loaded before anything is linked. -/
def Command.execute {m : Type → Type} [Monad m] (command : Command)
    (fetch : String → m (Option Document)) : ExceptT LoadError m (Checked Report) := do
  let manifest ← loadFile fetch Manifest.ofDocument command.manifest
  if manifest.shaders.isEmpty then
    throw .noShaders
  let shaders ← manifest.shaders.mapM fun file =>
    loadFile fetch Shader.ofDocument (command.pathOf file)
  let limits ← command.limits.mapM (loadFile fetch Limits.ofDocument)
  return command.run limits manifest shaders

end StageLink
