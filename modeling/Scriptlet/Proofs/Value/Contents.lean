import Mathlib.Data.List.Nodup
import Scriptlet.Value.Equality

/-!
# Contents of values

What a value holds, without the identities of the arrays and dictionaries in it.  The order of
entries is part of it.  Values of the same contents are equal as the host sees it, provided that no
key occurs twice in a dictionary: an entry behind another one of the same key cannot be found.
-/

namespace Scriptlet

mutual

/-- The value with one and the same identity for all arrays and dictionaries in it. -/
def Value.contents : Value → Value
  | .array _ elements => .array 0 (Value.contentsAll elements)
  | .dictionary _ entries => .dictionary 0 (Value.contentsEntries entries)
  | .returned value => .returned value.contents
  | value => value
  termination_by structural value => value

/-- The contents of the values of a list. -/
def Value.contentsAll : List Value → List Value
  | [] => []
  | value :: rest => value.contents :: Value.contentsAll rest
  termination_by structural values => values

/-- The entries of a dictionary with the contents of their values. -/
def Value.contentsEntries : List (Key × Value) → List (Key × Value)
  | [] => []
  | (key, value) :: rest => (key, value.contents) :: Value.contentsEntries rest
  termination_by structural entries => entries

end

mutual

/-- Whether no dictionary in a value has a key twice. -/
def Value.hasDistinctKeys : Value → Bool
  | .array _ elements => Value.allDistinctKeys elements
  | .dictionary _ entries => decide (Entries.keys entries).Nodup && Value.entriesDistinctKeys entries
  | .returned value => value.hasDistinctKeys
  | _ => true
  termination_by structural value => value

/-- Whether no dictionary in the values of a list has a key twice. -/
def Value.allDistinctKeys : List Value → Bool
  | [] => true
  | value :: rest => value.hasDistinctKeys && Value.allDistinctKeys rest
  termination_by structural values => values

/-- Whether no dictionary in the values of some entries has a key twice. -/
def Value.entriesDistinctKeys : List (Key × Value) → Bool
  | [] => true
  | (_, value) :: rest => value.hasDistinctKeys && Value.entriesDistinctKeys rest
  termination_by structural entries => entries

end

namespace Entries

variable {α : Type}

/-- Behind different keys, every entry can be found. -/
theorem find?_of_mem {entries : Entries α} (distinct : entries.keys.Nodup) {key : Key} {value : α}
    (member : (key, value) ∈ entries) : entries.find? key = some value := by
  induction entries with
  | nil => cases member
  | cons entry rest ih =>
      obtain ⟨other, old⟩ := entry
      have different : other ∉ keys rest ∧ (keys rest).Nodup := List.nodup_cons.1 distinct
      rw [find?]
      split
      · next same =>
          rcases List.mem_cons.1 member with here | behind
          · cases here
            rfl
          · rw [same] at different
            exact absurd (List.mem_map_of_mem (f := Prod.fst) behind) different.1
      · next other =>
          rcases List.mem_cons.1 member with here | behind
          · cases here
            exact absurd rfl other
          · exact ih different.2 behind

theorem mem_of_find? {entries : Entries α} {key : Key} {value : α}
    (found : entries.find? key = some value) : (key, value) ∈ entries := by
  induction entries with
  | nil => cases found
  | cons entry rest ih =>
      obtain ⟨other, old⟩ := entry
      rw [find?] at found
      split at found
      · next same =>
          cases found
          cases same
          exact List.mem_cons_self
      · exact List.mem_cons_of_mem _ (ih found)

theorem nodup_keys_insert {entries : Entries α} (different : entries.keys.Nodup) (key : Key)
    (value : α) : (entries.insert key value).keys.Nodup := by
  rw [keys_insert]
  split
  · exact different
  · next absent =>
      refine List.nodup_append.2 ⟨different, List.nodup_singleton key, ?_⟩
      rintro other member _ inNew rfl
      cases List.mem_singleton.1 inNew
      exact absent member

theorem keys_contentsEntries (entries : Entries Value) :
    keys (Value.contentsEntries entries) = keys entries := by
  induction entries with
  | nil => rfl
  | cons entry rest ih =>
      obtain ⟨key, value⟩ := entry
      simp only [keys, Value.contentsEntries, List.map_cons] at ih ⊢
      rw [ih]

end Entries

namespace Value

@[simp] theorem allDistinctKeys_iff {values : List Value} :
    allDistinctKeys values = true ↔ ∀ value ∈ values, value.hasDistinctKeys = true := by
  induction values with
  | nil => simp [allDistinctKeys]
  | cons value rest ih => simp [allDistinctKeys, ih]

@[simp] theorem entriesDistinctKeys_iff {entries : List (Key × Value)} :
    entriesDistinctKeys entries = true ↔ ∀ entry ∈ entries, entry.2.hasDistinctKeys = true := by
  induction entries with
  | nil => simp [entriesDistinctKeys]
  | cons entry rest ih =>
      obtain ⟨key, value⟩ := entry
      simp only [entriesDistinctKeys, Bool.and_eq_true, ih, List.forall_mem_cons]

end Value

mutual

@[simp] theorem Value.hasDistinctKeys_contents : (value : Value) →
    value.contents.hasDistinctKeys = value.hasDistinctKeys
  | .array _ elements => Value.allDistinctKeys_contentsAll elements
  | .dictionary _ entries => by
      rw [Value.contents, Value.hasDistinctKeys, Value.hasDistinctKeys,
        Entries.keys_contentsEntries, Value.entriesDistinctKeys_contentsEntries]
  | .returned value => value.hasDistinctKeys_contents
  | .integer _ | .boolean _ | .string _ | .null | .function .. | .builtin .. | .error _ => rfl

theorem Value.allDistinctKeys_contentsAll : (values : List Value) →
    Value.allDistinctKeys (Value.contentsAll values) = Value.allDistinctKeys values
  | [] => rfl
  | value :: rest => by
      rw [Value.contentsAll, Value.allDistinctKeys, Value.allDistinctKeys,
        value.hasDistinctKeys_contents, Value.allDistinctKeys_contentsAll rest]

theorem Value.entriesDistinctKeys_contentsEntries : (entries : List (Key × Value)) →
    Value.entriesDistinctKeys (Value.contentsEntries entries) = Value.entriesDistinctKeys entries
  | [] => rfl
  | (_, value) :: rest => by
      rw [Value.contentsEntries, Value.entriesDistinctKeys, Value.entriesDistinctKeys,
        value.hasDistinctKeys_contents, Value.entriesDistinctKeys_contentsEntries rest]

end

-- A value is compared with another one of the same contents part by part; the entries of a
-- dictionary are looked up in the whole other dictionary, of which `others` are the last ones.
mutual

theorem Value.equals_of_contents_eq : (value other : Value) → value.hasDistinctKeys = true →
    value.contents = other.contents → value.equals other = true
  | .array _ elements, other, distinct, same => by
      cases other with
      | array _ others =>
          exact Value.equalsAll_of_contents_eq elements others distinct (Value.array.inj same).2
      | _ => cases same
  | .dictionary _ entries, other, distinct, same => by
      cases other with
      | dictionary _ others =>
          have sameEntries := (Value.dictionary.inj same).2
          rw [Value.hasDistinctKeys, Bool.and_eq_true, decide_eq_true_eq] at distinct
          have sameKeys : Entries.keys others = Entries.keys entries := by
            rw [← Entries.keys_contentsEntries, ← sameEntries, Entries.keys_contentsEntries]
          have sameLength : entries.length = others.length := by
            simpa [Entries.keys] using (congrArg List.length sameKeys).symm
          rw [Value.equals, sameLength, beq_self_eq_true, Bool.true_and]
          exact Value.agreesWith_of_contents_eq entries others others distinct.2 sameEntries
            (sameKeys ▸ distinct.1) fun _ member => member
      | _ => cases same
  | .returned value, other, distinct, same => by
      cases other with
      | returned other => exact value.equals_of_contents_eq other distinct (Value.returned.inj same)
      | _ => cases same
  | .integer _, other, _, same | .boolean _, other, _, same | .string _, other, _, same
  | .null, other, _, same | .function .., other, _, same | .builtin .., other, _, same
  | .error _, other, _, same => by
      cases other <;> cases same
      simp [Value.equals]

theorem Value.equalsAll_of_contents_eq : (values others : List Value) →
    Value.allDistinctKeys values = true → Value.contentsAll values = Value.contentsAll others →
      Value.equalsAll values others = true
  | [], others, _, same => by
      cases others with
      | nil => rfl
      | cons => cases same
  | value :: rest, others, distinct, same => by
      cases others with
      | nil => cases same
      | cons other others =>
          rw [Value.allDistinctKeys, Bool.and_eq_true] at distinct
          obtain ⟨sameFirst, sameOthers⟩ := List.cons.inj same
          rw [Value.equalsAll, value.equals_of_contents_eq other distinct.1 sameFirst,
            Value.equalsAll_of_contents_eq rest others distinct.2 sameOthers]
          rfl

theorem Value.agreesWith_of_contents_eq : (entries others whole : List (Key × Value)) →
    Value.entriesDistinctKeys entries = true →
    Value.contentsEntries entries = Value.contentsEntries others →
    (Entries.keys whole).Nodup → (∀ entry ∈ others, entry ∈ whole) →
      Value.agreesWith entries whole = true
  | [], _, _, _, _, _, _ => rfl
  | (key, value) :: rest, others, whole, distinct, same, different, members => by
      cases others with
      | nil => cases same
      | cons entry others =>
          obtain ⟨otherKey, other⟩ := entry
          rw [Value.entriesDistinctKeys, Bool.and_eq_true] at distinct
          rw [List.forall_mem_cons] at members
          obtain ⟨sameFirst, sameOthers⟩ := List.cons.inj same
          obtain ⟨rfl, sameValue⟩ := Prod.mk.inj sameFirst
          have found := Entries.find?_of_mem different members.1
          rw [Value.agreesWith, found,
            Value.agreesWith_of_contents_eq rest others whole distinct.2 sameOthers different
              members.2]
          simp only [value.equals_of_contents_eq other distinct.1 sameValue, Bool.and_self]

end

end Scriptlet
