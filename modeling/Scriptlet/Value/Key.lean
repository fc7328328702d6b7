/-!
# Dictionary keys and entries

Keys are integers, booleans and strings; keys of different types are different. The entries of a
dictionary are kept in the order in which their keys were first inserted.
-/

namespace Scriptlet

/-- The values that can be dictionary keys. -/
inductive Key where
  | integer (value : Int64)
  | boolean (value : Bool)
  | string (text : String)
  deriving DecidableEq, Repr

namespace Key

/-- The text of a key; a string stands for itself. -/
def inspect : Key → String
  | integer value => toString value.toInt
  | boolean true => "true"
  | boolean false => "false"
  | string text => text

end Key

/-- Keys with what they map to, in the order of first insertion. -/
abbrev Entries (α : Type) := List (Key × α)

namespace Entries

variable {α : Type}

/-- What a key maps to. -/
def find? : Entries α → Key → Option α
  | [], _ => none
  | (other, value) :: rest, key => if other = key then some value else find? rest key

/-- Maps a key to a value: a key already there keeps its place, a new one goes to the end. -/
def insert : Entries α → Key → α → Entries α
  | [], key, value => [(key, value)]
  | (other, old) :: rest, key, value =>
      if other = key then (other, value) :: rest else (other, old) :: insert rest key value

/-- The keys in the order of first insertion. -/
def keys (entries : Entries α) : List Key := entries.map Prod.fst

/-- Inserts pairs from left to right. -/
def ofPairs (pairs : List (Key × α)) : Entries α :=
  pairs.foldl (fun entries pair => entries.insert pair.1 pair.2) []

@[simp] theorem find?_nil (key : Key) : find? ([] : Entries α) key = none := rfl

/-- The inserted key is found, and no other key is affected. -/
@[simp] theorem find?_insert (entries : Entries α) (key other : Key) (value : α) :
    (entries.insert key value).find? other =
      if key = other then some value else entries.find? other := by
  induction entries with
  | nil => rfl
  | cons entry rest ih =>
      simp only [insert]
      split
      · next equal =>
          subst equal
          simp only [find?]
          split <;> rfl
      · next different =>
          simp only [find?, ih]
          split
          · next equal =>
              subst equal
              rw [if_neg (Ne.symm different)]
          · rfl

/-- Insertion keeps the keys in place and appends a new one. -/
theorem keys_insert (entries : Entries α) (key : Key) (value : α) :
    (entries.insert key value).keys =
      if key ∈ entries.keys then entries.keys else entries.keys ++ [key] := by
  induction entries with
  | nil => rfl
  | cons entry rest ih =>
      simp only [keys] at ih
      simp only [insert, keys]
      split
      · next equal => simp [equal]
      · next different =>
          by_cases member : key ∈ rest.map Prod.fst
          · simp [ih, member]
          · simp [ih, member, Ne.symm different]

end Entries

end Scriptlet
