import Scriptlet.Value

/-!
# Equality of contents

Equality as the host sees it: by contents, for arrays in order, for dictionaries without regard to
order. Functions are equal when they are the same function, builtins when they have the same name.
-/

namespace Scriptlet

mutual

/-- Whether two values have equal contents. -/
def Value.equals : Value → Value → Bool
  | .integer a, .integer b => a == b
  | .boolean a, .boolean b => a == b
  | .string a, .string b => a == b
  | .null, .null => true
  | .array _ a, .array _ b => Value.equalsAll a b
  | .dictionary _ a, .dictionary _ b => a.length == b.length && Value.agreesWith a b
  | .function a _, .function b _ => a == b
  | .builtin a _, .builtin b _ => a == b
  | .returned a, .returned b => a.equals b
  | .error a, .error b => a == b
  | _, _ => false
  termination_by structural value => value

/-- Whether two lists have equal elements in the same order. -/
def Value.equalsAll : List Value → List Value → Bool
  | [], [] => true
  | a :: rest, b :: others => a.equals b && Value.equalsAll rest others
  | _, _ => false
  termination_by structural values => values

/-- Whether every entry has an equal value under the same key in another dictionary. -/
def Value.agreesWith : List (Key × Value) → List (Key × Value) → Bool
  | [], _ => true
  | (key, value) :: rest, others =>
      (match Entries.find? others key with
        | some other => value.equals other
        | none => false) && Value.agreesWith rest others
  termination_by structural entries => entries

end

end Scriptlet
