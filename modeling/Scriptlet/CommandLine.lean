import Scriptlet.Terminal.Settings
import Scriptlet.Text.Similarity

/-!
# The command line

Reading the words of a command line: options with and without values, in short form, which can be
bundled, and in long form; one file; and two subcommands, `complete SHELL` and `help`.

A value is judged not when it is read but when the next option, file or the end of the line is
reached, so a word that cannot be understood at all is reported before a bad value in front of it.
-/

namespace Scriptlet

/-- The shells for which completions exist. -/
inductive Shell where
  | bash
  | elvish
  | fish
  | powershell
  | zsh
  deriving DecidableEq, Repr

namespace Shell

/-- The name of a shell. -/
def name : Shell → String
  | bash => "bash"
  | elvish => "elvish"
  | fish => "fish"
  | powershell => "powershell"
  | zsh => "zsh"

/-- The shell with a given name. -/
def ofName? (name : String) : Option Shell :=
  [bash, elvish, fish, powershell, zsh].find? fun shell => shell.name == name

end Shell

/-- What the words of a command line say. -/
structure Arguments where
  file : Option String
  eval : Option String
  color : ColorChoice
  verbose : Bool
  quiet : Bool
  complete : Option Shell
  deriving DecidableEq, Repr

namespace CommandLine

/-- What is wrong with a command line. -/
inductive Misuse where
  | unknownArgument
  | invalidValue
  | valueValidation
  | argumentConflict
  | tooManyValues
  | missingRequiredArgument
  | invalidSubcommand
  deriving DecidableEq, Repr

/-- Why a command line gives no arguments: it asks for help or for the version, or is wrong. -/
inductive Ending where
  | help
  | version
  | misuse (kind : Misuse)
  deriving DecidableEq, Repr

/-- The exit code that goes with an ending. -/
def Ending.code : Ending → Nat
  | misuse _ => 2
  | _ => 0

/-- The options. -/
inductive Switch where
  | eval
  | color
  | verbose
  | quiet
  | help
  | version
  deriving DecidableEq, Repr

namespace Switch

/-- The option with a given letter. -/
def ofLetter? : Char → Option Switch
  | 'e' => some eval
  | 'v' => some verbose
  | 'q' => some quiet
  | 'h' => some help
  | 'V' => some version
  | _ => none

/-- The option with a given long name. -/
def ofName? : String → Option Switch
  | "eval" => some eval
  | "color" => some color
  | "verbose" => some verbose
  | "quiet" => some quiet
  | "help" => some help
  | "version" => some version
  | _ => none

/-- Whether an option has a value. -/
def takesValue : Switch → Bool
  | eval => true
  | color => true
  | _ => false

end Switch

/-- What was read last and is not judged yet. -/
inductive Pending where
  | nothing
  /-- An option whose value is still to come. -/
  | awaiting (switch : Switch)
  | value (switch : Switch) (text : String)
  | file (name : String)
  deriving DecidableEq, Repr

/-- What is known while the words are read. -/
structure Progress where
  file : Option String
  eval : Option String
  color : Option ColorChoice
  verbose : Bool
  quiet : Bool
  pending : Pending
  /-- Whether a file was named, judged or not. -/
  fileNamed : Bool
  deriving DecidableEq, Repr

/-- The state before the first word. -/
def Progress.start : Progress := ⟨none, none, none, false, false, .nothing, false⟩

/-- The two forms of options. -/
inductive Dashed where
  | long (name : String) (value : Option String)
  | short (letters : List Char)
  deriving DecidableEq, Repr

/-- Reads a word as options: two dashes and a name, with a value after `=`, or one dash and letters.
A single dash is no option. -/
def dashed? (word : String) : Option Dashed :=
  match word.toList with
  | '-' :: '-' :: rest =>
      let name := String.ofList (rest.takeWhile (· != '='))
      match rest.dropWhile (· != '=') with
      | [] => some (.long name none)
      | _ :: value => some (.long name (some (String.ofList value)))
  | '-' :: letter :: rest => some (.short (letter :: rest))
  | _ => none

namespace Progress

/-- Judges what is pending. -/
def judge (progress : Progress) : Except Ending Progress :=
  let settled := { progress with pending := .nothing }
  match progress.pending with
  | .nothing => .ok settled
  | .awaiting _ => .error (.misuse .invalidValue)
  | .value .eval text =>
      if progress.eval.isSome then .error (.misuse .argumentConflict)
      else .ok { settled with eval := some text }
  | .value .color text =>
      if progress.color.isSome then .error (.misuse .argumentConflict)
      else
        match ColorChoice.ofText? text with
        | some choice => .ok { settled with color := some choice }
        | none => .error (.misuse .valueValidation)
  | .value _ _ => .ok settled
  | .file name =>
      if name.isEmpty then .error (.misuse .invalidValue)
      else .ok { settled with file := some name }

/-- Takes an option without a value. -/
def raise (progress : Progress) (switch : Switch) : Except Ending Progress := do
  let progress ← progress.judge
  match switch with
  | .verbose =>
      if progress.verbose then .error (.misuse .argumentConflict)
      else .ok { progress with verbose := true }
  | .quiet =>
      if progress.quiet then .error (.misuse .argumentConflict)
      else .ok { progress with quiet := true }
  | .help => .error .help
  | .version => .error .version
  | _ => .ok progress

/-- Takes an option with a value, attached or still to come. -/
def assign (progress : Progress) (switch : Switch) (attached : Option String) :
    Except Ending Progress := do
  let progress ← progress.judge
  match attached with
  | some text => judge { progress with pending := .value switch text }
  | none => .ok { progress with pending := .awaiting switch }

/-- Takes a bundle of letters. What follows a letter with a value is the value, after an optional
`=`. -/
def letters (progress : Progress) : List Char → Except Ending Progress
  | [] => .ok progress
  | letter :: rest =>
      match Switch.ofLetter? letter with
      | none => .error (.misuse .unknownArgument)
      | some switch =>
          if switch.takesValue then
            progress.assign switch (match rest with
              | [] => none
              | '=' :: value => some (String.ofList value)
              | value => some (String.ofList value))
          else do
            let progress ← progress.raise switch
            progress.letters rest

/-- Takes an option in long form. -/
def long (progress : Progress) (name : String) (value : Option String) :
    Except Ending Progress :=
  match Switch.ofName? name with
  | none => .error (.misuse .unknownArgument)
  | some switch =>
      if switch.takesValue then progress.assign switch value
      else if value.isSome then .error (.misuse .tooManyValues)
      else progress.raise switch

/-- Takes a file. A second one is an error, told apart by whether a subcommand may be meant. -/
def positional (progress : Progress) (optionsEnded : Bool) (word : String) :
    Except Ending Progress :=
  if progress.fileNamed then
    let subcommands := ["complete", "help"]
    if optionsEnded && subcommands.contains word then .error (.misuse .unknownArgument)
    else if subcommands.any fun name => Text.areSimilar word.toList name.toList then
      .error (.misuse .invalidSubcommand)
    else .error (.misuse .unknownArgument)
  else do
    let progress ← progress.judge
    .ok { progress with pending := .file word, fileNamed := true }

/-- Whether the value of an option is still to come. -/
def isAwaiting (progress : Progress) : Option Switch :=
  match progress.pending with
  | .awaiting switch => some switch
  | _ => none

/-- Takes a word that is no subcommand. -/
def word (progress : Progress) (word : String) : Except Ending Progress :=
  match dashed? word, progress.isAwaiting with
  | some (.long name value), _ => progress.long name value
  | some (.short letters), _ => progress.letters letters
  | none, some switch => .ok { progress with pending := .value switch word }
  | none, none => progress.positional false word

/-- Judges the whole line: a file and a source text exclude each other. -/
def finish (progress : Progress) (complete : Option Shell) : Except Ending Arguments := do
  let progress ← progress.judge
  if progress.eval.isSome && progress.file.isSome then
    .error (.misuse .argumentConflict)
  else
    .ok { file := progress.file, eval := progress.eval, color := progress.color.getD .auto,
          verbose := progress.verbose, quiet := progress.quiet, complete }

end Progress

/-- Judges the shell of `complete`. -/
def judgeShell : Option String → Except Ending (Option Shell)
  | none => .ok none
  | some name =>
      match Shell.ofName? name with
      | some shell => .ok (some shell)
      | none => .error (.misuse .invalidValue)

/-- The words after `complete`: one shell, and no option but help. -/
def completion (optionsEnded : Bool) (shell : Option String) : List String → Except Ending Shell
  | [] => do
      match ← judgeShell shell with
      | some shell => .ok shell
      | none => .error (.misuse .missingRequiredArgument)
  | word :: rest =>
      let positional : Except Ending Shell :=
        if shell.isSome then .error (.misuse .unknownArgument)
        else completion optionsEnded (some word) rest
      if optionsEnded then positional
      else if word = "--" then completion true shell rest
      else
        match dashed? word with
        | some (.long "help" (some _)) => .error (.misuse .tooManyValues)
        | some (.long "help" none) | some (.short ('h' :: _)) => do
            let _ ← judgeShell shell
            .error .help
        | some _ => .error (.misuse .unknownArgument)
        | none => positional

/-- The words after `help`: at most one subcommand. -/
def helpTopic : List String → Ending
  | [] => .help
  | [topic] => if topic = "complete" ∨ topic = "help" then .help else .misuse .invalidSubcommand
  | _ => .misuse .invalidSubcommand

/-- Reads the words after `--`: files only. -/
def readFiles (progress : Progress) : List String → Except Ending Arguments
  | [] => progress.finish none
  | word :: rest => do readFiles (← progress.positional true word) rest

/-- Reads words while options are possible. -/
def readWords (progress : Progress) : List String → Except Ending Arguments
  | [] => progress.finish none
  | word :: rest =>
      if progress.isAwaiting.isNone && word = "complete" then do
        let shell ← completion false none rest
        progress.finish (some shell)
      else if progress.isAwaiting.isNone && word = "help" then
        .error (helpTopic rest)
      else if word = "--" then
        readFiles progress rest
      else do
        readWords (← progress.word word) rest

/-- Reads a command line. -/
def read (words : List String) : Except Ending Arguments := readWords .start words

end CommandLine

/-- The settings that arguments ask for. Output is never taken for a terminal, so only an explicit
choice gives colour; an empty user name counts as none. -/
def Settings.ofArguments (arguments : Arguments) (user : Option String) : Settings where
  colored := arguments.color == .always
  verbose := arguments.verbose
  banner := !arguments.quiet
  user := user.filter fun name => !name.isEmpty

end Scriptlet
