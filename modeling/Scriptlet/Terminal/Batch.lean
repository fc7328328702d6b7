import Scriptlet.Terminal.Dialogue

/-!
# Batch runs

Running one source text in a session of its own: its value goes to the output, problems go to the
error stream and make the run fail.
-/

namespace Scriptlet

/-- What a run writes to its two streams, and its exit code. -/
structure Report where
  code : Nat
  output : String
  errors : String
  deriving DecidableEq, Repr

namespace Report

/-- A run that succeeds. -/
def success (output : String) : Report := ⟨0, output, ""⟩

/-- A run that fails. -/
def failure (errors : String) : Report := ⟨1, "", errors⟩

end Report

namespace Batch

/-- The report on the outcome of a source text. -/
def report (settings : Settings) : Except SourceError Value → Report
  | .error (.scan error) => .failure (settings.errorLine error.message)
  | .error (.parse errors) =>
      .failure (String.join
        (errors.map fun error => settings.errorLine (Dialogue.problem error.message)))
  | .ok value =>
      if value.isError then .failure (settings.errorLine value.inspect)
      else .success (value.inspect ++ "\n")

/-- Runs a source text with the standard builtins. -/
def run (settings : Settings) (depth : Nat) (source : String) : Option Report :=
  ((Session.start Library.standard).run depth source).map fun (outcome, _) =>
    report settings outcome

end Batch

end Scriptlet
