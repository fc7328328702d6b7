import Mathlib.Data.List.Induction
import Scriptlet.Proofs.Evaluate.Sequence
import Scriptlet.Proofs.Value.Contents

/-!
# Dictionary literals

The pairs of a dictionary literal are evaluated from left to right, the key of a pair before its
value, and inserted one after the other.  In the dictionary, a key stands where it occurred first and
has the value it was given last.  A literal ends early at the first key or value that interrupts, and
after the first pair whose key cannot be one.
-/

namespace Scriptlet

/-! ## Pairs inserted from left to right -/

namespace Entries

variable {α : Type}

@[simp] theorem ofPairs_concat (pairs : List (Key × α)) (pair : Key × α) :
    ofPairs (pairs ++ [pair]) = (ofPairs pairs).insert pair.1 pair.2 := by
  simp only [ofPairs, List.foldl_append, List.foldl_cons, List.foldl_nil]

theorem nodup_keys_ofPairs (pairs : List (Key × α)) : (ofPairs pairs).keys.Nodup := by
  induction pairs using List.reverseRecOn with
  | nil => exact List.nodup_nil
  | append_singleton pairs pair ih =>
      rw [ofPairs_concat]
      exact nodup_keys_insert ih pair.1 pair.2

theorem mem_keys_ofPairs {pairs : List (Key × α)} {key : Key} :
    key ∈ (ofPairs pairs).keys ↔ key ∈ pairs.map Prod.fst := by
  induction pairs using List.reverseRecOn with
  | nil => rfl
  | append_singleton pairs pair ih =>
      rw [ofPairs_concat, keys_insert, List.map_append, List.mem_append, ← ih]
      split
      · next present => simp +contextual [present]
      · simp

/-- The keys stand in the order in which they occurred first. -/
theorem keys_ofPairs (pairs : List (Key × α)) :
    (ofPairs pairs).keys = (pairs.map Prod.fst).eraseDups := by
  induction pairs using List.reverseRecOn with
  | nil => rfl
  | append_singleton pairs pair ih =>
      rw [ofPairs_concat, keys_insert, List.map_append, List.eraseDups_append, ← ih]
      split
      · next present =>
          have repeated : [pair.1].removeAll (pairs.map Prod.fst) = [] :=
            List.filter_eq_nil_iff.2 (by simpa using mem_keys_ofPairs.1 present)
          rw [List.map_singleton, repeated, List.eraseDups_nil, List.append_nil]
      · next absent =>
          have new : [pair.1].removeAll (pairs.map Prod.fst) = [pair.1] :=
            List.filter_eq_self.2 (by simpa using mt mem_keys_ofPairs.2 absent)
          rw [List.map_singleton, new]
          rfl

/-- Pairs with other keys do not affect what is found. -/
theorem find?_ofPairs_append {front back : List (Key × α)} {key : Key}
    (others : ∀ pair ∈ back, pair.1 ≠ key) :
    (ofPairs (front ++ back)).find? key = (ofPairs front).find? key := by
  induction back using List.reverseRecOn with
  | nil => rw [List.append_nil]
  | append_singleton back pair ih =>
      rw [List.forall_mem_append] at others
      rw [← List.append_assoc, ofPairs_concat, find?_insert,
        if_neg (others.2 pair (List.mem_singleton.2 rfl)), ih others.1]

theorem find?_ofPairs_of_last {front back : List (Key × α)} {key : Key} {value : α}
    (others : ∀ pair ∈ back, pair.1 ≠ key) :
    (ofPairs (front ++ (key, value) :: back)).find? key = some value := by
  rw [List.append_cons, find?_ofPairs_append others, ofPairs_concat, find?_insert, if_pos rfl]

end Entries

/-! ## The dictionary of a literal -/

/-- All keys of evaluated pairs are integers, booleans or strings. -/
def AllUsable (found : List (Value × Value)) : Prop := ∀ pair ∈ found, pair.1.key?.isSome = true

/-- The evaluated pairs of a literal with their keys as keys; pairs that have none are left out. -/
def keyedPairs (found : List (Value × Value)) : List (Key × Value) :=
  found.filterMap fun pair => pair.1.key?.map fun key => (key, pair.2)

/-- The entries that a literal makes of its evaluated pairs. -/
structure Entries.Record (entries : Entries Value) (found : List (Value × Value)) : Prop where
  /-- No key occurs twice. -/
  distinct : entries.keys.Nodup
  /-- The keys stand in the order of their first occurrence. -/
  inOrder : entries.keys = (found.filterMap fun pair => pair.1.key?).eraseDups
  /-- A key has the value of the last pair with that key. -/
  lastValue : ∀ identity index, index.key?.isSome = true → ∀ front value back,
    found = front ++ (index, value) :: back → (∀ pair ∈ back, pair.1 ≠ index) →
      (Value.dictionary identity entries).atIndex index = value
  /-- A key that no pair has is mapped to null. -/
  absent : ∀ identity index, index.key?.isSome = true → (∀ pair ∈ found, pair.1 ≠ index) →
    (Value.dictionary identity entries).atIndex index = .null

theorem Value.key?_ne {value index : Value} {key : Key} (indexKey : index.key? = some key)
    (different : value ≠ index) : value.key? ≠ some key := by
  intro same
  exact different ((ofKey_of_key? same).symm.trans (ofKey_of_key? indexKey))

theorem keyedPairs_ne {found : List (Value × Value)} {index : Value} {key : Key}
    (indexKey : index.key? = some key) (others : ∀ pair ∈ found, pair.1 ≠ index) :
    ∀ pair ∈ keyedPairs found, pair.1 ≠ key := by
  intro pair member
  obtain ⟨⟨value, result⟩, inFound, keyed⟩ := List.mem_filterMap.1 member
  obtain ⟨other, otherKey, rfl⟩ := Option.map_eq_some_iff.1 keyed
  rintro rfl
  exact Value.key?_ne indexKey (others _ inFound) otherKey

theorem atIndex_dictionary {identity : Identity} {entries : Entries Value} {index : Value}
    {key : Key} (indexKey : index.key? = some key) :
    (Value.dictionary identity entries).atIndex index = (entries.find? key).getD .null := by
  rw [Value.atIndex, indexKey]

/-- Inserting evaluated pairs from left to right makes the entries of the literal. -/
theorem record_ofPairs (found : List (Value × Value)) :
    (Entries.ofPairs (keyedPairs found)).Record found where
  distinct := Entries.nodup_keys_ofPairs _
  inOrder := by
    rw [Entries.keys_ofPairs, keyedPairs, List.map_filterMap]
    congr 2
    funext pair
    cases pair.1.key? <;> rfl
  lastValue identity index usable front value back split others := by
    obtain ⟨key, indexKey⟩ := Option.isSome_iff_exists.1 usable
    have keyed : keyedPairs found = keyedPairs front ++ (key, value) :: keyedPairs back := by
      simp [keyedPairs, split, indexKey]
    rw [atIndex_dictionary indexKey, keyed,
      Entries.find?_ofPairs_of_last (keyedPairs_ne indexKey others), Option.getD_some]
  absent identity index usable others := by
    obtain ⟨key, indexKey⟩ := Option.isSome_iff_exists.1 usable
    have missing := @Entries.find?_ofPairs_append _ [] _ _ (keyedPairs_ne indexKey others)
    rw [atIndex_dictionary indexKey, ← List.nil_append (keyedPairs found), missing]
    rfl

/-! ## Evaluation of pairs -/

namespace Evaluate

/-- Pairs are evaluated from left to right, the key of each before its value, and none of these
values interrupts. -/
inductive PairsEvaluate (library : Library) (apply : Applier) (scope : FrameId) :
    Store → List (Expr × Expr) → List (Value × Value) → Store → Prop
  | nil (store : Store) : PairsEvaluate library apply scope store [] [] store
  | cons {before middle last after : Store} {keyExpr valueExpr : Expr} {rest : List (Expr × Expr)}
      {index value : Value} {found : List (Value × Value)}
      (keyEnded : expression library apply scope keyExpr before = some (index, middle))
      (keyPassed : index.interrupts = false)
      (valueEnded : expression library apply scope valueExpr middle = some (value, last))
      (valuePassed : value.interrupts = false)
      (others : PairsEvaluate library apply scope last rest found after) :
      PairsEvaluate library apply scope before ((keyExpr, valueExpr) :: rest)
        ((index, value) :: found) after

variable {library : Library} {apply : Applier} {scope : FrameId} {before middle after : Store}
variable {pairs : List (Expr × Expr)} {found : List (Value × Value)}

theorem expression_dictionary_of_ok {made : Entries Value}
    (ended : entries library apply scope pairs [] before = some (.ok made, after)) :
    expression library apply scope (.dictionary pairs) before =
      some (.dictionary after.nextIdentity made,
        { after with nextIdentity := after.nextIdentity + 1 }) :=
  Run.bind_eq_some.2 ⟨_, _, ended, rfl⟩

theorem expression_dictionary_of_error {interruption : Value}
    (ended : entries library apply scope pairs [] before = some (.error interruption, after)) :
    expression library apply scope (.dictionary pairs) before = some (interruption, after) :=
  Run.bind_eq_some.2 ⟨_, _, ended, rfl⟩

namespace PairsEvaluate

/-- Pairs with usable keys are inserted one after the other. -/
theorem entries_eq (evaluate : PairsEvaluate library apply scope before pairs found after)
    (usable : AllUsable found) (start : Entries Value) :
    entries library apply scope pairs start before =
      some (.ok ((keyedPairs found).foldl (fun entries pair => entries.insert pair.1 pair.2) start),
        after) := by
  induction evaluate generalizing start with
  | nil => rfl
  | @cons _ _ _ _ _ _ _ index _ found keyEnded keyPassed valueEnded valuePassed _ ih =>
      obtain ⟨keyUsable, othersUsable⟩ := List.forall_mem_cons.1 usable
      obtain ⟨key, indexKey⟩ := Option.isSome_iff_exists.1 keyUsable
      rw [entries_cons_of_passed keyEnded keyPassed valueEnded valuePassed]
      simp only [indexKey, ih othersUsable]
      simp [keyedPairs, indexKey]

theorem length_eq (evaluate : PairsEvaluate library apply scope before pairs found after) :
    found.length = pairs.length := by
  induction evaluate with
  | nil => rfl
  | cons _ _ _ _ _ ih => rw [List.length_cons, List.length_cons, ih]

/-- Evaluation of a row of pairs is the evaluation of its front and then that of the rest. -/
theorem append_inv {usable rest : List (Value × Value)}
    (evaluate : PairsEvaluate library apply scope before pairs found after)
    (split : found = usable ++ rest) :
    ∃ front back middle, pairs = front ++ back ∧
      PairsEvaluate library apply scope before front usable middle ∧
      PairsEvaluate library apply scope middle back rest after := by
  induction usable generalizing before pairs found with
  | nil =>
      subst split
      exact ⟨[], pairs, before, rfl, .nil before, evaluate⟩
  | cons pair usable ih =>
      subst split
      cases evaluate with
      | cons keyEnded keyPassed valueEnded valuePassed others =>
          obtain ⟨front, back, middle, rfl, ofFront, ofBack⟩ := ih others rfl
          exact ⟨_ :: front, back, middle, rfl,
            .cons keyEnded keyPassed valueEnded valuePassed ofFront, ofBack⟩

theorem concat {keyExpr valueExpr : Expr} {index value : Value} {last : Store}
    (evaluate : PairsEvaluate library apply scope before pairs found after)
    (keyEnded : expression library apply scope keyExpr after = some (index, middle))
    (keyPassed : index.interrupts = false)
    (valueEnded : expression library apply scope valueExpr middle = some (value, last))
    (valuePassed : value.interrupts = false) :
    PairsEvaluate library apply scope before (pairs ++ [(keyExpr, valueExpr)])
      (found ++ [(index, value)]) last := by
  induction evaluate with
  | nil => exact .cons keyEnded keyPassed valueEnded valuePassed (.nil last)
  | cons firstKey firstKeyPassed firstValue firstValuePassed _ ih =>
      exact .cons firstKey firstKeyPassed firstValue firstValuePassed (ih keyEnded)

end PairsEvaluate

/-- A literal whose pairs evaluate makes the dictionary in which keys stand where they occurred first
and have the value they were given last, if all keys can be keys.  Else its result is the error that
names the type of the first one that cannot; the value of its pair has then been evaluated, and the
pairs after it have no effect.  A key or value that interrupts ends the literal at once, a value also
when the key of its own pair cannot be one. -/
theorem expression_dictionary
    (evaluate : PairsEvaluate library apply scope before pairs found after) :
    (AllUsable found →
      (∃ made : Entries Value, made.Record found ∧
        expression library apply scope (.dictionary pairs) before =
          some (.dictionary after.nextIdentity made,
            { after with nextIdentity := after.nextIdentity + 1 })) ∧
      ∀ (keyExpr valueExpr : Expr) (others : List (Expr × Expr)) (index : Value) (middle : Store),
        expression library apply scope keyExpr after = some (index, middle) →
        (index.interrupts = true →
          expression library apply scope (.dictionary (pairs ++ (keyExpr, valueExpr) :: others))
            before = some (index, middle)) ∧
        (index.interrupts = false → ∀ (value : Value) (last : Store),
          expression library apply scope valueExpr middle = some (value, last) →
          value.interrupts = true →
            expression library apply scope (.dictionary (pairs ++ (keyExpr, valueExpr) :: others))
              before = some (value, last))) ∧
    ∀ (usable rest : List (Value × Value)) (index value : Value),
      found = usable ++ (index, value) :: rest → AllUsable usable → index.key? = none →
        ∃ last,
          PairsEvaluate library apply scope before (pairs.take (usable.length + 1))
            (usable ++ [(index, value)]) last ∧
          expression library apply scope (.dictionary pairs) before =
            some (.error ("Unusable as dictionary key: " ++ index.type.name), last) ∧
          ∀ others,
            expression library apply scope
                (.dictionary (pairs.take (usable.length + 1) ++ others)) before =
              expression library apply scope (.dictionary pairs) before := by
  refine ⟨fun usable => ⟨?_, ?_⟩, ?_⟩
  · exact ⟨_, record_ofPairs found, expression_dictionary_of_ok (evaluate.entries_eq usable [])⟩
  · intro keyExpr valueExpr others index middle keyEnded
    have front := evaluate.entries_eq usable []
    refine ⟨fun interrupts => ?_, fun passed value last valueEnded interrupts => ?_⟩
    · exact expression_dictionary_of_error
        ((awaits_key front).interrupted keyEnded interrupts)
    · exact expression_dictionary_of_error
        ((awaits_entryValue front keyEnded passed).interrupted valueEnded interrupts)
  · intro usable rest index value split frontUsable unusable
    obtain ⟨front, back, middle, rfl, ofFront, ofBack⟩ := evaluate.append_inv split
    cases ofBack with
    | @cons _ _ last _ keyExpr valueExpr back _ _ _ keyEnded keyPassed valueEnded valuePassed _ =>
        have ended (others : List (Expr × Expr)) :
            expression library apply scope
                (.dictionary (front ++ (keyExpr, valueExpr) :: others)) before =
              some ((RuntimeError.unusableKey index.type).toValue, last) := by
          apply expression_dictionary_of_error
          rw [entries_append_of_ok (ofFront.entries_eq frontUsable []),
            entries_cons_of_passed keyEnded keyPassed valueEnded valuePassed, unusable]
        have through : (front ++ (keyExpr, valueExpr) :: back).take (usable.length + 1) =
            front ++ [(keyExpr, valueExpr)] := by
          rw [ofFront.length_eq, List.take_length_add_append]
          rfl
        rw [through]
        refine ⟨last, ofFront.concat keyEnded keyPassed valueEnded valuePassed, ended back, ?_⟩
        intro others
        rw [List.append_assoc, List.singleton_append, ended others, ended back]

/-- Pairs with one key that occurs twice and others that only look like it. -/
def pairsSample : List (Expr × Expr) :=
  [(.integer "1", .string "a"), (.boolean true, .string "b"), (.string "1", .string "c"),
    (.integer "1", .string "d")]

/-- The key 1 keeps its place and has its last value; an array as a key is an error, but only after
the value of its pair, which may be an error itself. -/
theorem expression_dictionary_samples :
    (∃ made : Entries Value,
      expression .standard (applyWithin .standard 0) 0 (.dictionary pairsSample) .empty =
        some (.dictionary 0 made, ⟨#[], 1⟩) ∧
      made.keys = [.integer 1, .boolean true, .string "1"] ∧
      (Value.dictionary 0 made).atIndex (.integer 1) = .string "d" ∧
      (Value.dictionary 0 made).atIndex (.integer 2) = .null) ∧
    expression .standard (applyWithin .standard 0) 0
        (.dictionary (pairsSample ++ [(.array [], .binary (.integer "1") .divide (.integer "0"))]))
        .empty =
      some (.error "Division by zero", ⟨#[], 1⟩) ∧
    expression .standard (applyWithin .standard 0) 0
        (.dictionary (pairsSample ++ [(.array [], .integer "1")] ++ [(.identifier "x", .array [])]))
        .empty =
      some (.error "Unusable as dictionary key: ARRAY", ⟨#[], 1⟩) := by
  have evaluate : PairsEvaluate .standard (applyWithin .standard 0) 0 .empty pairsSample
      [(.integer 1, .string "a"), (.boolean true, .string "b"), (.string "1", .string "c"),
        (.integer 1, .string "d")] .empty :=
    .cons rfl rfl rfl rfl (.cons rfl rfl rfl rfl (.cons rfl rfl rfl rfl
      (.cons rfl rfl rfl rfl (.nil _))))
  have withArray : PairsEvaluate .standard (applyWithin .standard 0) 0 .empty
      (pairsSample ++ [(.array [], .integer "1")]) _ ⟨#[], 1⟩ :=
    evaluate.concat rfl rfl rfl rfl
  have usable : AllUsable [(.integer 1, .string "a"), (.boolean true, .string "b"),
      (.string "1", .string "c"), (.integer 1, .string "d")] := by
    simp [AllUsable, Value.key?]
  obtain ⟨⟨made, record, ended⟩, interrupted⟩ := (expression_dictionary evaluate).1 usable
  refine ⟨⟨made, ended, record.inOrder, ?_, ?_⟩, ?_, ?_⟩
  · exact record.lastValue 0 (.integer 1) rfl
      [(.integer 1, .string "a"), (.boolean true, .string "b"), (.string "1", .string "c")] _ []
      rfl (List.forall_mem_nil _)
  · exact record.absent 0 (.integer 2) rfl (by simp)
  · exact (interrupted (.array []) _ [] _ _ rfl).2 rfl _ _ rfl rfl
  · obtain ⟨last, evaluated, unusable, others⟩ :=
      (expression_dictionary withArray).2 _ [] _ _ rfl usable rfl
    exact (others [(.identifier "x", .array [])]).trans rfl

end Evaluate

end Scriptlet
