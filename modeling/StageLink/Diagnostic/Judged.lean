import StageLink.Diagnostic
import StageLink.Fault

/-!
# Judgements

A check of the linker either gives a result or rejects the program, and then says why.  A check that
comes upon a handle pointing nowhere faults instead.
-/

namespace StageLink

/-- A check with a result, unless it finds errors or faults. -/
abbrev Judged := ExceptT (List LinkError) Checked

namespace Judged

def reject {Result : Type} (cause : LinkError) : Judged Result := throw [cause]

def rejectAll (causes : List LinkError) : Judged Unit :=
  if causes.isEmpty then pure () else throw causes

/-- Reject with some errors before those of a check that rejects. -/
def after {Result : Type} (causes : List LinkError) (check : Judged Result) : Judged Result :=
  ExceptT.mk do
    match ← check.run with
    | .ok result => return .ok result
    | .error later => return .error (causes ++ later)

end Judged
end StageLink
