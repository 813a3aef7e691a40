import StageLink.CommandLine
import StageLink.Document.Json

/-!
# The linker as a program

Reads the manifest, the shaders it names and a file of limits, all of them JSON texts, and prints
the report of the run.
-/

namespace StageLink

/-- How the program is called. -/
def usageText : String :=
  "usage: stagelink [--limits FILE] [--api-es2] [--lenient-uniform-limits] [--dump-ir] MANIFEST"

def fetchDocument (path : String) : IO (Option Document) := do
  try
    return Json.read? (← IO.FS.readFile path)
  catch _ =>
    return none

def carryOut (command : Command) : IO Report := do
  match ← (command.execute fetchDocument).run with
  | .ok (.ok report) => return report
  | .ok (.error _) => throw (IO.userError "a handle points nowhere")
  | .error error => throw (IO.userError error.message)

end StageLink

/-- Link the program that the command line names. -/
def main (words : List String) : IO UInt32 := do
  match StageLink.Command.parse words with
  | none =>
      IO.eprintln StageLink.usageText
      return 2
  | some command =>
      try
        let report ← StageLink.carryOut command
        IO.eprint report.log.text
        IO.print report.output
        unless report.succeeded do
          IO.eprintln s!"Error: link failed with {report.log.errorCount} error(s)"
        return if report.succeeded then 0 else 1
      catch error =>
        IO.eprintln s!"Error: {error}"
        return 1
