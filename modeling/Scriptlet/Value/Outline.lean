import Scriptlet.Text.Quoted
import Scriptlet.Tree.Render
import Scriptlet.Value

/-!
# Outlines of values

A text that shows how a value is built, for those who work on the host: every part under the name of
its form, and strings quoted, so that the integer 1 and the string "1" look different.
-/

namespace Scriptlet

/-- The outline of a key. -/
def Key.outline : Key → String
  | integer value => "Integer(" ++ toString value.toInt ++ ")"
  | boolean value => "Boolean(" ++ toString value ++ ")"
  | string text => "Str(" ++ Text.quoted text ++ ")"

/-- The outline of a function: what it captured is left out, since it may lead back to itself. -/
def Closure.outline (closure : Closure) : String :=
  "Function \x7b params: [" ++ String.intercalate ", " (closure.parameters.map Text.quoted) ++
    "], body: " ++ Text.quoted (Block.render closure.body) ++ ", .. \x7d"

mutual

/-- The outline of a value. -/
def Value.outline : Value → String
  | .integer value => "Integer(" ++ toString value.toInt ++ ")"
  | .boolean value => "Boolean(" ++ toString value ++ ")"
  | .string text => "Str(" ++ Text.quoted text ++ ")"
  | .null => "Null"
  | .array _ elements => "Array([" ++ String.intercalate ", " (Value.outlineAll elements) ++ "])"
  | .dictionary _ entries =>
      "Dictionary(\x7b" ++ String.intercalate ", " (Value.outlineEntries entries) ++ "\x7d)"
  | .function _ closure => "Function(" ++ closure.outline ++ ")"
  | .builtin name _ => "Builtin(Builtin(" ++ Text.quoted name ++ "))"
  | .returned value => "Return(" ++ value.outline ++ ")"
  | .error message => "Error(" ++ Text.quoted message ++ ")"

/-- The outlines of several values. -/
def Value.outlineAll : List Value → List String
  | [] => []
  | value :: rest => value.outline :: Value.outlineAll rest

/-- The outlines of the entries of a dictionary. -/
def Value.outlineEntries : List (Key × Value) → List String
  | [] => []
  | (key, value) :: rest => (key.outline ++ ": " ++ value.outline) :: Value.outlineEntries rest

end

end Scriptlet
