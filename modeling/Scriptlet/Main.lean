import Scriptlet.CommandLine.Plan

/-!
# The program

The outer layer: it reads files and lines, and writes what the library answers.
-/

namespace Scriptlet

/-- Reads a file. -/
def readScript (path : String) : IO (Except FileError (List UInt8)) := do
  try
    return .ok (← IO.FS.readBinFile path).toList
  catch error =>
    match error with
    | .noFileOrDirectory .. => return .error .notFound
    | .permissionDenied .. => return .error .denied
    | .inappropriateType _ code _ =>
        return .error (if code = 20 ∨ code = -20 then .notDirectory else .isDirectory)
    | .invalidArgument _ code details =>
        return .error (if code = 36 ∨ code = -36 then .nameTooLong else .other details)
    | other => return .error (.other (toString other))

/-- Writes a report and gives its exit code. -/
def deliver (report : Option Report) : IO UInt32 := do
  match report with
  | none =>
      IO.eprintln "The program nests calls too deeply."
      return 1
  | some report =>
      IO.print report.output
      IO.eprint report.errors
      return report.code.toUInt32

/-- Reads a line, its end included, after bytes already read, which are held in reverse. -/
partial def readLine (input : IO.FS.Stream) (held : List UInt8) : IO (List UInt8) := do
  match (← input.read 1).toList with
  | [] => return held.reverse
  | byte :: _ =>
      if byte = Text.lineFeed then return (byte :: held).reverse
      else readLine input (byte :: held)

/-- Answers lines from standard input until it ends. -/
partial def converseFrom (settings : Settings) (session : Session) : IO UInt32 := do
  IO.print Dialogue.prompt
  (← IO.getStdout).flush
  match (Text.lines (← readLine (← IO.getStdin) [])).map Text.decode? with
  | [] =>
      IO.println ""
      return 0
  | none :: _ =>
      IO.eprint (settings.errorLine ("Error reading input: " ++ Text.undecodableMessage))
      return 1
  | some line :: _ =>
      match Dialogue.answer settings Session.callDepth session line with
      | some (written, next) =>
          IO.print written
          converseFrom settings next
      | none => deliver none

/-- Carries out a plan. -/
def carryOut (plan : Plan) : IO UInt32 := do
  match plan with
  | .runFile settings path =>
      deliver (Report.ofFile settings Session.callDepth path (← readScript path))
  | .converse settings =>
      IO.print (Dialogue.opening settings)
      converseFrom settings (Session.start Library.standard)
  | plan => deliver (Report.ofPlan Session.callDepth (fun _ => .error .notFound) [] plan)

end Scriptlet

/-- Runs the program with the words of its command line. -/
def main (words : List String) : IO UInt32 := do
  Scriptlet.carryOut (Scriptlet.Plan.ofWords words (← IO.getEnv "USER"))
