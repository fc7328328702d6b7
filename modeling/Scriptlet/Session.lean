import Scriptlet.Evaluate
import Scriptlet.Parse

/-!
# Sessions

A session is a root scope that outlives the programs run in it, so that bindings carry over from
one source text to the next. A source text with any problem is not evaluated at all.
-/

namespace Scriptlet

/-- Why a source text was not evaluated. -/
inductive SourceError where
  | scan (error : ScanError)
  | parse (errors : List ParseError)
  deriving DecidableEq, Repr

/-- The wording of the problems of a source text, one a line. -/
def SourceError.message : SourceError → String
  | scan error => error.message
  | parse errors => String.intercalate "\n" (errors.map ParseError.message)

/-- The program of a source text without problems. -/
def Program.ofSource (source : String) : Except SourceError Program :=
  match Scriptlet.parse source with
  | .error error => .error (.scan error)
  | .ok result => if result.isOk then .ok result.program else .error (.parse result.errors)

/-- A root scope in a store, and the builtins that programs find. -/
structure Session where
  store : Store
  root : FrameId
  library : Library

namespace Session

/-- The nesting of calls that sessions allow by default. -/
def callDepth : Nat := 1000000

/-- A session with an empty root scope. -/
def start (library : Library) : Session :=
  let (root, store) := Store.empty.addFrame [] none
  ⟨store, root, library⟩

/-- Runs a computation on the store of a session. -/
def perform {α : Type} (session : Session) (run : Run α) : Option (α × Session) :=
  (run session.store).map fun (result, store) => (result, { session with store })

/-- Runs a program in the root scope. -/
def runProgram (session : Session) (depth : Nat) (program : Program) : Option (Value × Session) :=
  session.perform (Evaluate.program session.library depth session.root program)

/-- Parses and runs a source text. -/
def run (session : Session) (depth : Nat) (source : String) :
    Option (Except SourceError Value × Session) :=
  match Program.ofSource source with
  | .error error => some (.error error, session)
  | .ok program => (session.runProgram depth program).map fun (value, next) => (.ok value, next)

/-- The value of a name in the root scope; builtins are not bindings. -/
def get? (session : Session) (name : String) : Option Value :=
  session.store.lookup session.root name

/-- Binds a name in the root scope. -/
def set (session : Session) (name : String) (value : Value) : Session :=
  { session with store := session.store.bind session.root name value }

end Session

end Scriptlet
