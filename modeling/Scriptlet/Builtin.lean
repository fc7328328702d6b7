import Scriptlet.RuntimeError
import Scriptlet.Store

/-!
# Builtins

The functions that the language provides, and the libraries under whose names programs find them.
None of them changes an argument: `tail` and `push` make new arrays.
-/

namespace Scriptlet

namespace Builtin

/-- The standard builtins. -/
def all : List Builtin := [len, first, last, tail, push]

/-- The builtin with a given name. -/
def ofName? (name : String) : Option Builtin := all.find? fun builtin => builtin.name == name

/-- The result for an argument list of the wrong length. -/
def wrongCount (expected : Nat) (arguments : List Value) : Run Value :=
  return (RuntimeError.wrongArgumentCount expected arguments.length).toValue

/-- The number of characters of a string or of elements of an array. -/
def callLen : List Value → Run Value
  | [.string text] => return .integer (Int64.ofNat text.length)
  | [.array _ elements] => return .integer (Int64.ofNat elements.length)
  | [other] => return (RuntimeError.unsupportedArgument len other.type).toValue
  | arguments => wrongCount 1 arguments

/-- The first element of an array, or null. -/
def callFirst : List Value → Run Value
  | [.array _ elements] => return elements.head?.getD .null
  | [other] => return (RuntimeError.wrongArgumentType first .array other.type).toValue
  | arguments => wrongCount 1 arguments

/-- The last element of an array, or null. -/
def callLast : List Value → Run Value
  | [.array _ elements] => return elements.getLast?.getD .null
  | [other] => return (RuntimeError.wrongArgumentType last .array other.type).toValue
  | arguments => wrongCount 1 arguments

/-- A new array without the first element; empty for an empty array. -/
def callTail : List Value → Run Value
  | [.array _ elements] => Run.newArray elements.tail
  | [other] => return (RuntimeError.wrongArgumentType tail .array other.type).toValue
  | arguments => wrongCount 1 arguments

/-- A new array with one more element at the end. -/
def callPush : List Value → Run Value
  | [.array _ elements, value] => Run.newArray (elements ++ [value])
  | [other, _] => return (RuntimeError.wrongFirstArgumentType push .array other.type).toValue
  | arguments => wrongCount 2 arguments

/-- Calls a builtin. -/
def call : Builtin → List Value → Run Value
  | len => callLen
  | first => callFirst
  | last => callLast
  | tail => callTail
  | push => callPush

end Builtin

/-- Builtins under the names by which programs find them, newest first. -/
structure Library where
  entries : List (String × Builtin)
  deriving Repr

namespace Library

/-- The library without builtins. -/
def empty : Library := ⟨[]⟩

/-- Adds a builtin; it replaces one of the same name. -/
def register (library : Library) (name : String) (builtin : Builtin) : Library :=
  ⟨(name, builtin) :: library.entries.filter fun entry => entry.1 != name⟩

/-- Registers builtins from left to right. -/
def ofList (entries : List (String × Builtin)) : Library :=
  entries.foldl (fun library entry => library.register entry.1 entry.2) empty

/-- Every builtin under its own name. -/
def standard : Library := ofList (Builtin.all.map fun builtin => (builtin.name, builtin))

/-- The builtin under a name. -/
def find? (library : Library) (name : String) : Option Builtin := library.entries.lookup name

/-- The names of a library in order. -/
def names (library : Library) : List String :=
  (library.entries.map Prod.fst).mergeSort fun a b => decide (a ≤ b)

end Library

end Scriptlet
