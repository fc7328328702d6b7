import Scriptlet.Tree.Render
import Scriptlet.Value

/-!
# The text of values

How values are shown to the user. Strings stand for themselves without quotes, a pending return
shows its value, and a function shows its parameters and the canonical text of its body.
-/

namespace Scriptlet

mutual

/-- The text of a value. -/
def Value.inspect : Value → String
  | .integer value => toString value.toInt
  | .boolean true => "true"
  | .boolean false => "false"
  | .string text => text
  | .null => "null"
  | .array _ elements => "[" ++ String.intercalate ", " (Value.inspectAll elements) ++ "]"
  | .dictionary _ entries =>
      "\x7b" ++ String.intercalate ", " (Value.inspectEntries entries) ++ "\x7d"
  | .function _ closure =>
      "fn(" ++ String.intercalate ", " closure.parameters ++ ") \x7b\n" ++
        Block.render closure.body ++ "\n\x7d"
  | .builtin .. => "builtin function"
  | .returned value => value.inspect
  | .error message => "ERROR: " ++ message

/-- The texts of several values. -/
def Value.inspectAll : List Value → List String
  | [] => []
  | value :: rest => value.inspect :: Value.inspectAll rest

/-- The texts of the entries of a dictionary. -/
def Value.inspectEntries : List (Key × Value) → List String
  | [] => []
  | (key, value) :: rest => (key.inspect ++ ": " ++ value.inspect) :: Value.inspectEntries rest

end

end Scriptlet
