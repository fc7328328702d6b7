import Scriptlet.Session
import Scriptlet.Terminal.Settings
import Scriptlet.Text.Lines
import Scriptlet.Value.Inspect

/-!
# Dialogues

A dialogue reads lines and answers each one in a single session, so that bindings carry over. The
whole dialogue is a function of the bytes read: what is written, and whether it ended at a line that
is not text.
-/

namespace Scriptlet

/-- The opening line of a dialogue. -/
def greeting : Option String → String
  | some user => "Hello " ++ user ++ "! This is the Kestrel programming language!"
  | none => "Hello! This is the Kestrel programming language!"

namespace Dialogue

/-- What is written before a line is read. -/
def prompt : String := ">> "

/-- What is written before the first line is read. -/
def opening (settings : Settings) : String :=
  if settings.banner then greeting settings.user ++ "\nFeel free to type in commands!\n" else ""

/-- A problem of a source text, as told to the user. -/
def problem (message : String) : String := "parser error: " ++ message

/-- What is written about the problems of a line, one a line. -/
def complaint (settings : Settings) (errors : List ParseError) : String :=
  String.join (errors.map fun error => settings.errorLine (problem error.message))

/-- What is written about the value of a line. -/
def shown (settings : Settings) (value : Value) : String :=
  if value.isError then settings.errorLine value.inspect else value.inspect ++ "\n"

/-- What is written for a line, and the session after it. A blank line has no answer, and a line with
a problem is not run. -/
def answer (settings : Settings) (depth : Nat) (session : Session) (line : String) :
    Option (String × Session) :=
  if Text.allBlank line.toList then
    some ("", session)
  else
    match parse line with
    | .error error => some (settings.errorLine (problem error.message), session)
    | .ok result =>
        if result.isOk then
          (session.runProgram depth result.program).map fun (value, next) =>
            (shown settings value, next)
        else
          some (complaint settings result.errors, session)

/-- What was written in a dialogue, and whether it ended at a line that is not text. -/
structure Transcript where
  output : String
  undecodable : Bool
  deriving DecidableEq, Repr

namespace Transcript

/-- Puts text in front of what was written. -/
def after (text : String) (transcript : Transcript) : Transcript :=
  { transcript with output := text ++ transcript.output }

end Transcript

/-- The dialogue over the remaining lines. -/
def continued (settings : Settings) (depth : Nat) : Session → List (List UInt8) → Option Transcript
  | _, [] => some ⟨prompt ++ "\n", false⟩
  | session, line :: rest =>
      match Text.decode? line with
      | none => some ⟨prompt, true⟩
      | some text => do
          let (written, next) ← answer settings depth session text
          let others ← continued settings depth next rest
          return others.after (prompt ++ written)

/-- The dialogue over a stream of bytes, in a new session with the standard builtins. -/
def transcript (settings : Settings) (depth : Nat) (input : List UInt8) : Option Transcript := do
  let others ← continued settings depth (Session.start Library.standard) (Text.lines input)
  return others.after (opening settings)

end Dialogue

end Scriptlet
