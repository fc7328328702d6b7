import Scriptlet.Value

/-!
# The store

Scopes live in a store that evaluation extends and updates. A scope is a frame: its own bindings
and the frame around it, fixed when the frame is made. Frames are shared: closures and calls refer
to them by their place in the store, and see later bindings.

Evaluation is a computation over the store that may fail to end within its bound; `none` stands for
that and for nothing else.
-/

namespace Scriptlet

/-- A scope: its bindings, newest first, and the scope around it. -/
structure Frame where
  bindings : List (String × Value)
  parent : Option FrameId

/-- All frames ever made, oldest first, and the next unused identity. -/
structure Store where
  frames : Array Frame
  nextIdentity : Identity

namespace Frame

/-- The value that a name has in this frame itself: its newest binding counts. -/
def find? (frame : Frame) (name : String) : Option Value := frame.bindings.lookup name

/-- Gives a name a value in this frame. -/
def bind (frame : Frame) (name : String) (value : Value) : Frame :=
  { frame with bindings := (name, value) :: frame.bindings }

@[simp] theorem find?_bind (frame : Frame) (name other : String) (value : Value) :
    (frame.bind name value).find? other =
      if other = name then some value else frame.find? other := by
  by_cases equal : other = name
  · subst equal
    simp [find?, bind]
  · have different : (other == name) = false := by simpa using equal
    simp [find?, bind, List.lookup_cons, different, equal]

@[simp] theorem parent_bind (frame : Frame) (name : String) (value : Value) :
    (frame.bind name value).parent = frame.parent := rfl

end Frame

namespace Store

/-- A store without frames. -/
def empty : Store := ⟨#[], 0⟩

/-- Adds a frame with given bindings. -/
def addFrame (store : Store) (bindings : List (String × Value)) (parent : Option FrameId) :
    FrameId × Store :=
  (store.frames.size, { store with frames := store.frames.push ⟨bindings, parent⟩ })

/-- Gives a name a value in a frame. -/
def bind (store : Store) (scope : FrameId) (name : String) (value : Value) : Store :=
  { store with frames := store.frames.modify scope (·.bind name value) }

/-- The value of a name in a frame or the nearest frame around it that binds it. A frame is younger
than the frame around it, so the search ends. -/
def lookup (store : Store) (scope : FrameId) (name : String) : Option Value :=
  match store.frames[scope]? with
  | none => none
  | some frame =>
      match frame.find? name with
      | some value => some value
      | none =>
          match frame.parent with
          | none => none
          | some parent => if _older : parent < scope then store.lookup parent name else none
  termination_by scope

end Store

/-- A computation over the store; `none` when it does not end within its bound. -/
abbrev Run (α : Type) := StateT Store Option α

namespace Run

/-- Takes an unused identity. -/
def newIdentity : Run Identity :=
  fun store => some (store.nextIdentity, { store with nextIdentity := store.nextIdentity + 1 })

/-- Makes an array. -/
def newArray (elements : List Value) : Run Value := do return .array (← newIdentity) elements

/-- Makes a dictionary. -/
def newDictionary (entries : Entries Value) : Run Value := do
  return .dictionary (← newIdentity) entries

/-- Makes a function. -/
def newFunction (closure : Closure) : Run Value := do return .function (← newIdentity) closure

/-- Makes a frame. -/
def newFrame (bindings : List (String × Value)) (parent : Option FrameId) : Run FrameId :=
  fun store => some (store.addFrame bindings parent)

/-- Gives a name a value in a frame. -/
def bindName (scope : FrameId) (name : String) (value : Value) : Run Unit :=
  fun store => some ((), store.bind scope name value)

/-- The value of a name as seen from a frame. -/
def lookup (scope : FrameId) (name : String) : Run (Option Value) :=
  fun store => some (store.lookup scope name, store)

/-- The computation that does not end within its bound. -/
def unfinished {α : Type} : Run α := fun _ => none

/-- Goes on with a value unless it interrupts; an interrupting value is the result. -/
def andThen (first : Run Value) (next : Value → Run Value) : Run Value := do
  let value ← first
  if value.interrupts then return value else next value

end Run

end Scriptlet
