/-!
# Settings

How a host talks to its user.
-/

namespace Scriptlet

/-- When messages are coloured. -/
inductive ColorChoice where
  | auto
  | always
  | never
  deriving DecidableEq, Repr

namespace ColorChoice

/-- The choice that a word names, in upper or lower case. The three words hold only letters that no
character outside ASCII has as its lower case, so ASCII case folding decides. -/
def ofText? (text : String) : Option ColorChoice :=
  match text.map Char.toLower with
  | "auto" => some auto
  | "always" => some always
  | "never" => some never
  | _ => none

/-- The message for a word that names no choice. -/
def invalidMessage (text : String) : String :=
  "Invalid color choice: " ++ text ++ ". Must be 'auto', 'always', or 'never'"

end ColorChoice

/-- What a host needs to know of its user's wishes. -/
structure Settings where
  /-- Whether messages are coloured. -/
  colored : Bool
  /-- Whether the host reports on its work. -/
  verbose : Bool
  /-- Whether a dialogue opens with a greeting. -/
  banner : Bool
  /-- The name by which the user is greeted. -/
  user : Option String
  deriving DecidableEq, Repr

namespace Settings

/-- The directive for what is reported. -/
def logDirective (settings : Settings) : String :=
  if settings.verbose then "kestrel=debug" else "warn"

/-- A message in the style of errors: bold and red if messages are coloured. -/
def errorText (settings : Settings) (message : String) : String :=
  if settings.colored then "\x1b[1m\x1b[31m" ++ message ++ "\x1b[39m\x1b[0m" else message

/-- A message in the style of errors on a line of its own. -/
def errorLine (settings : Settings) (message : String) : String :=
  settings.errorText message ++ "\n"

end Settings

end Scriptlet
