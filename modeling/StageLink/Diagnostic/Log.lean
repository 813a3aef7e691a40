import StageLink.Diagnostic

/-!
# Information logs

What a link has to say, one line for each diagnostic.  Errors fail the link and warnings do not.
-/

namespace StageLink

/-- How serious a diagnostic is. -/
inductive Severity where
  | error
  | warning
  deriving DecidableEq

/-- One line of a log. -/
structure LogEntry where
  severity : Severity
  cause : LinkError
  deriving DecidableEq

/-- The diagnostics of a link in the order in which they arose. -/
structure Log where
  entries : List LogEntry := []
  deriving DecidableEq

/-- The word for a severity. -/
def Severity.text : Severity → String
  | error => "error"
  | warning => "warning"

/-- The line of an entry. -/
def LogEntry.text (entry : LogEntry) : String :=
  s!"{entry.severity.text}: {entry.cause.message}"

/-- Whether a text occurs in another. -/
def occursIn (needle : List Char) : List Char → Bool
  | [] => needle.isEmpty
  | char :: rest => needle.isPrefixOf (char :: rest) || occursIn needle rest

namespace Log

/-- Report an error. -/
def error (log : Log) (cause : LinkError) : Log := ⟨log.entries ++ [⟨.error, cause⟩]⟩

/-- Report a warning. -/
def warning (log : Log) (cause : LinkError) : Log := ⟨log.entries ++ [⟨.warning, cause⟩]⟩

/-- Report some errors. -/
def errors (log : Log) (causes : List LinkError) : Log :=
  ⟨log.entries ++ causes.map fun cause => ⟨.error, cause⟩⟩

def ofSeverity (log : Log) (severity : Severity) : List LogEntry :=
  log.entries.filter (·.severity = severity)

/-- The number of errors. -/
def errorCount (log : Log) : Nat := (log.ofSeverity .error).length

def hasErrors (log : Log) : Bool := log.entries.any (·.severity = .error)

/-- Whether nothing has been reported. -/
def isEmpty (log : Log) : Bool := log.entries.isEmpty

/-- Whether a text occurs in the wording of some entry. -/
def mentions (log : Log) (needle : String) : Bool :=
  log.entries.any fun entry => occursIn needle.toList entry.cause.message.toList

def lines (log : Log) : List String := log.entries.map LogEntry.text

/-- The text of the log, every line being ended. -/
def text (log : Log) : String := String.join (log.lines.map (· ++ "\n"))

@[simp]
theorem hasErrors_error (log : Log) (cause : LinkError) : (log.error cause).hasErrors = true := by
  simp [error, hasErrors]

@[simp]
theorem hasErrors_warning (log : Log) (cause : LinkError) :
    (log.warning cause).hasErrors = log.hasErrors := by
  simp [warning, hasErrors]

theorem hasErrors_errors (log : Log) (causes : List LinkError) :
    (log.errors causes).hasErrors = (log.hasErrors || !causes.isEmpty) := by
  cases causes <;> simp [errors, hasErrors]

end Log
end StageLink
