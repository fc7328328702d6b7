import Scriptlet.Tree
import Scriptlet.Value.Key

/-!
# Values

What expressions evaluate to. Arrays, dictionaries and functions carry an identity, given when they
are made: the language compares them by it. A runtime error and a pending return are values too,
which interrupt the evaluation that meets them.
-/

namespace Scriptlet

/-- The name of an array, dictionary or function among all that were ever made. -/
abbrev Identity := Nat

/-- The place of a scope in the store. -/
abbrev FrameId := Nat

/-- The functions that the language provides. -/
inductive Builtin where
  | len
  | first
  | last
  | tail
  | push
  deriving DecidableEq, Repr

/-- A function literal with the scope in which it was evaluated. -/
structure Closure where
  parameters : List String
  body : Block
  scope : FrameId

/-- The types of values, as named in messages. -/
inductive ValueType where
  | integer
  | boolean
  | string
  | null
  | array
  | dictionary
  | function
  | builtin
  | returned
  | error
  deriving DecidableEq, Repr

/-- The name of a type in messages. -/
def ValueType.name : ValueType → String
  | integer => "INTEGER"
  | boolean => "BOOLEAN"
  | string => "STRING"
  | null => "NULL"
  | array => "ARRAY"
  | dictionary => "DICTIONARY"
  | function => "FUNCTION"
  | builtin => "BUILTIN"
  | returned => "RETURN"
  | error => "ERROR"

/-- Values. A builtin keeps the name under which it was found. -/
inductive Value where
  | integer (value : Int64)
  | boolean (value : Bool)
  | string (text : String)
  | null
  | array (identity : Identity) (elements : List Value)
  | dictionary (identity : Identity) (entries : List (Key × Value))
  | function (identity : Identity) (closure : Closure)
  | builtin (name : String) (operation : Builtin)
  | returned (value : Value)
  | error (message : String)

instance : Inhabited Value := ⟨.null⟩

namespace Value

/-- The type of a value. -/
def type : Value → ValueType
  | integer _ => .integer
  | boolean _ => .boolean
  | string _ => .string
  | null => .null
  | array .. => .array
  | dictionary .. => .dictionary
  | function .. => .function
  | builtin .. => .builtin
  | returned _ => .returned
  | error _ => .error

/-- Whether a condition with this value holds: only `false` and `null` do not. -/
def isTruthy : Value → Bool
  | boolean false => false
  | null => false
  | _ => true

/-- Whether a value is a runtime error. -/
def isError : Value → Bool
  | error _ => true
  | _ => false

/-- Whether a value ends the evaluation that meets it: an error or a pending return. -/
def interrupts : Value → Bool
  | error _ => true
  | returned _ => true
  | _ => false

/-- The value that a call or a program yields for what its body yields: a pending return is
answered here. -/
def settled : Value → Value
  | returned value => value
  | value => value

/-- Equality as the language has it for operands that are neither two integers nor two strings:
booleans and null by value, builtins by name, all else by identity. -/
def isIdentical : Value → Value → Bool
  | boolean a, boolean b => a == b
  | null, null => true
  | array a _, array b _ => a == b
  | dictionary a _, dictionary b _ => a == b
  | function a _, function b _ => a == b
  | builtin a _, builtin b _ => a == b
  | _, _ => false

/-- The key that a value is, if it can be one. -/
def key? : Value → Option Key
  | integer value => some (.integer value)
  | boolean value => some (.boolean value)
  | string text => some (.string text)
  | _ => none

/-- The elements of an array. -/
def elements? : Value → Option (List Value)
  | array _ elements => some elements
  | _ => none

/-- A key as a value. -/
def ofKey : Key → Value
  | .integer value => integer value
  | .boolean value => boolean value
  | .string text => string text

@[simp] theorem key?_ofKey (key : Key) : (ofKey key).key? = some key := by
  cases key <;> rfl

/-- A value that can be a key is that key. -/
theorem ofKey_of_key? {value : Value} {key : Key} (usable : value.key? = some key) :
    ofKey key = value := by
  cases value <;> simp [key?] at usable <;> subst usable <;> rfl

end Value

end Scriptlet
