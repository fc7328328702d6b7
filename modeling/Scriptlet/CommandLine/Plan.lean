import Scriptlet.CommandLine
import Scriptlet.CommandLine.Disk
import Scriptlet.Terminal.Batch

/-!
# Running the program

What a command line makes the program do, and the report of doing it, as functions of the words, the
user's name, the files and the input.
-/

namespace Scriptlet

/-- What the program does. -/
inductive Plan where
  /-- The command line is wrong. -/
  | refuse (kind : CommandLine.Misuse)
  | showHelp
  | showVersion
  | showCompletions (shell : Shell)
  | evaluate (settings : Settings) (source : String)
  | runFile (settings : Settings) (path : String)
  | converse (settings : Settings)
  deriving DecidableEq, Repr

namespace Plan

/-- The plan for arguments: a source text goes before a file, and without either there is a
dialogue. -/
def ofArguments (arguments : Arguments) (user : Option String) : Plan :=
  let settings := Settings.ofArguments arguments user
  match arguments.complete, arguments.eval, arguments.file with
  | some shell, _, _ => showCompletions shell
  | none, some source, _ => evaluate settings source
  | none, none, some path => runFile settings path
  | none, none, none => converse settings

/-- The plan for the words of a command line. -/
def ofWords (words : List String) (user : Option String) : Plan :=
  match CommandLine.read words with
  | .ok arguments => ofArguments arguments user
  | .error .help => showHelp
  | .error .version => showVersion
  | .error (.misuse kind) => refuse kind

end Plan

namespace Report

/-- The version of the program. -/
def version : Report := .success "kestrel 0.1.0\n"

/-- The ways to call the program. -/
def help : Report := .success
  ("Usage: kestrel [OPTIONS] [FILE]\n" ++
    "       kestrel complete <SHELL>\n\n" ++
    "Options:\n" ++
    "  -e, --eval <SOURCE>  Evaluate SOURCE and print the result\n" ++
    "      --color <WHEN>   auto, always or never\n" ++
    "  -v, --verbose        Report on the work done\n" ++
    "  -q, --quiet          Start a dialogue without a greeting\n" ++
    "  -h, --help           Print this text\n" ++
    "  -V, --version        Print the version\n")

/-- The words that a shell can complete. -/
def completions (_shell : Shell) : Report := .success
  "--eval\n--color\n--verbose\n--quiet\n--help\n--version\ncomplete\nhelp\n"

/-- The report on a command line that cannot be understood. -/
def usageError (_kind : CommandLine.Misuse) : Report :=
  ⟨2, "", "The command line cannot be understood; see kestrel --help.\n"⟩

/-- The report on a file that was read, or not. -/
def ofFile (settings : Settings) (depth : Nat) (path : String) :
    Except FileError (List UInt8) → Option Report
  | .error error => some (unreadable error)
  | .ok bytes =>
      match Text.decode? bytes with
      | none => some (unreadable .undecodable)
      | some source => Batch.run settings depth source
where
  unreadable (error : FileError) : Report :=
    .failure (settings.errorLine ("Failed to read " ++ path ++ ": " ++ error.message))

/-- The report on a dialogue. -/
def ofDialogue (settings : Settings) (depth : Nat) (input : List UInt8) : Option Report :=
  (Dialogue.transcript settings depth input).map fun transcript =>
    if transcript.undecodable then
      ⟨1, transcript.output,
        settings.errorLine ("Error reading input: " ++ Text.undecodableMessage)⟩
    else
      .success transcript.output

/-- The report on carrying out a plan, with what the files and the input hold. -/
def ofPlan (depth : Nat) (files : String → Except FileError (List UInt8)) (input : List UInt8) :
    Plan → Option Report
  | .refuse kind => some (usageError kind)
  | .showHelp => some help
  | .showVersion => some version
  | .showCompletions shell => some (completions shell)
  | .evaluate settings source => Batch.run settings depth source
  | .runFile settings path => ofFile settings depth path (files path)
  | .converse settings => ofDialogue settings depth input

end Report

end Scriptlet
