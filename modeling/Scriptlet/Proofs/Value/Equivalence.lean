import Mathlib.Data.List.Forall2
import Mathlib.Data.List.Perm.Subperm
import Scriptlet.Proofs.Value.Contents

/-!
# Equality of contents is an equivalence

The comparison of two dictionaries goes one way: both have the same number of entries, and whatever
the first one has, the second one has under the same key.  That it holds the other way round as well
is a matter of counting, since no key occurs twice; and as values are nested, the counting is done
inside an induction over the parts of a value.  Rearranging dictionaries, at whatever depth, makes no
difference, and what is identical is equal.
-/

namespace Scriptlet

namespace Value

/-! ## Parts of values -/

/-- The values directly inside a value. -/
def parts : Value → List Value
  | array _ elements => elements
  | dictionary _ entries => entries.map Prod.snd
  | returned value => [value]
  | _ => []

theorem sizeOf_lt_of_mem_parts {value part : Value} (member : part ∈ value.parts) :
    sizeOf part < sizeOf value := by
  cases value with
  | array identity elements =>
      have smaller : sizeOf part < sizeOf elements := List.sizeOf_lt_of_mem member
      simp only [array.sizeOf_spec]
      omega
  | dictionary identity entries =>
      obtain ⟨⟨key, _⟩, inEntries, rfl⟩ := List.mem_map.1 member
      have smaller := List.sizeOf_lt_of_mem inEntries
      simp only [Prod.mk.sizeOf_spec] at smaller
      simp only [dictionary.sizeOf_spec]
      omega
  | returned value =>
      cases List.mem_singleton.1 member
      simp only [returned.sizeOf_spec]
      omega
  | _ => cases member

/-- What holds of a value whenever it holds of its parts holds of every value. -/
@[elab_as_elim]
theorem induction_on_parts {motive : Value → Prop}
    (step : ∀ value, (∀ part ∈ value.parts, motive part) → motive value) (value : Value) :
    motive value :=
  step value fun part member =>
    have := sizeOf_lt_of_mem_parts member
    induction_on_parts step part
  termination_by sizeOf value

theorem hasDistinctKeys_of_mem_parts {value part : Value} (distinct : value.hasDistinctKeys = true)
    (member : part ∈ value.parts) : part.hasDistinctKeys = true := by
  cases value with
  | array identity elements => exact allDistinctKeys_iff.1 distinct part member
  | dictionary identity entries =>
      obtain ⟨entry, inEntries, rfl⟩ := List.mem_map.1 member
      rw [hasDistinctKeys, Bool.and_eq_true] at distinct
      exact entriesDistinctKeys_iff.1 distinct.2 entry inEntries
  | returned value =>
      cases List.mem_singleton.1 member
      exact distinct
  | _ => cases member

theorem mem_parts_of_mem_entries {identity : Identity} {entries : List (Key × Value)} {key : Key}
    {value : Value} (member : (key, value) ∈ entries) :
    value ∈ (dictionary identity entries).parts :=
  List.mem_map.2 ⟨_, member, rfl⟩

/-! ## What is compared -/

theorem equalsAll_iff {values others : List Value} :
    equalsAll values others = true ↔
      List.Forall₂ (fun value other => value.equals other = true) values others := by
  induction values generalizing others with
  | nil => cases others <;> simp [equalsAll]
  | cons value rest ih => cases others <;> simp [equalsAll, ih]

theorem agreesWith_iff {entries others : List (Key × Value)} :
    agreesWith entries others = true ↔ ∀ key value, (key, value) ∈ entries →
      ∃ other, Entries.find? others key = some other ∧ value.equals other = true := by
  induction entries with
  | nil => simp [agreesWith]
  | cons entry rest ih =>
      obtain ⟨key, value⟩ := entry
      rw [agreesWith, Bool.and_eq_true, ih]
      cases found : Entries.find? others key <;> simp [found, or_imp, forall_and]

theorem equals_array_iff {identity : Identity} {elements : List Value} {other : Value} :
    (array identity elements).equals other = true ↔ ∃ otherIdentity others,
      other = array otherIdentity others ∧ elements.length = others.length ∧
        ∀ place (inFirst : place < elements.length) (inSecond : place < others.length),
          elements[place].equals others[place] = true := by
  cases other <;> simp [equals, equalsAll_iff, List.forall₂_iff_get]

theorem equals_dictionary_iff {identity : Identity} {entries : List (Key × Value)} {other : Value} :
    (dictionary identity entries).equals other = true ↔ ∃ otherIdentity others,
      other = dictionary otherIdentity others ∧ entries.length = others.length ∧
        ∀ key value, (key, value) ∈ entries →
          ∃ found, Entries.find? others key = some found ∧ value.equals found = true := by
  cases other <;> simp [equals, agreesWith_iff]

theorem equals_returned_iff {value other : Value} :
    (returned value).equals other = true ↔
      ∃ inner, other = returned inner ∧ value.equals inner = true := by
  cases other <;> simp [equals]

/-! ## Reflexivity, symmetry, transitivity -/

theorem equals_refl {value : Value} (distinct : value.hasDistinctKeys = true) :
    value.equals value = true :=
  value.equals_of_contents_eq value distinct rfl

/-- As many different keys as there are entries: a dictionary that has all keys of another one of the
same size has no further key. -/
theorem mem_keys_of_agree {entries others : Entries Value} (distinct : entries.keys.Nodup)
    (sameLength : entries.length = others.length)
    (agree : ∀ key value, (key, value) ∈ entries →
      ∃ found, others.find? key = some found ∧ value.equals found = true)
    {key : Key} (member : key ∈ others.keys) : key ∈ entries.keys := by
  have included : entries.keys ⊆ others.keys := by
    intro key inEntries
    obtain ⟨⟨_, value⟩, present, rfl⟩ := List.mem_map.1 inEntries
    obtain ⟨found, isFound, _⟩ := agree _ value present
    exact List.mem_map.2 ⟨_, Entries.mem_of_find? isFound, rfl⟩
  have sameKeys : entries.keys.Perm others.keys :=
    (List.subperm_of_subset distinct included).perm_of_length_le (by simp [Entries.keys, sameLength])
  exact sameKeys.mem_iff.2 member

theorem equals_symm (value : Value) : ∀ other : Value, value.hasDistinctKeys = true →
    other.hasDistinctKeys = true → value.equals other = true → other.equals value = true := by
  induction value using induction_on_parts with
  | step value ih =>
      intro other distinct otherDistinct equal
      have turned : ∀ part ∈ value.parts, ∀ otherPart ∈ other.parts,
          part.equals otherPart = true → otherPart.equals part = true := by
        intro part member otherPart inOther
        exact ih part member otherPart (hasDistinctKeys_of_mem_parts distinct member)
          (hasDistinctKeys_of_mem_parts otherDistinct inOther)
      cases value with
      | array identity elements =>
          obtain ⟨otherIdentity, others, rfl, sameLength, each⟩ := equals_array_iff.1 equal
          refine equals_array_iff.2 ⟨identity, elements, rfl, sameLength.symm, ?_⟩
          intro place inSecond inFirst
          exact turned _ (List.getElem_mem inFirst) _ (List.getElem_mem inSecond)
            (each place inFirst inSecond)
      | dictionary identity entries =>
          obtain ⟨otherIdentity, others, rfl, sameLength, agree⟩ := equals_dictionary_iff.1 equal
          rw [hasDistinctKeys, Bool.and_eq_true, decide_eq_true_eq] at distinct otherDistinct
          refine equals_dictionary_iff.2 ⟨identity, entries, rfl, sameLength.symm, ?_⟩
          intro key other member
          have inKeys : key ∈ Entries.keys others := List.mem_map.2 ⟨_, member, rfl⟩
          obtain ⟨⟨_, value⟩, present, rfl⟩ :=
            List.mem_map.1 (mem_keys_of_agree distinct.1 sameLength agree inKeys)
          obtain ⟨found, isFound, equalFound⟩ := agree _ value present
          rw [Entries.find?_of_mem otherDistinct.1 member] at isFound
          cases isFound
          exact ⟨value, Entries.find?_of_mem distinct.1 present,
            turned value (mem_parts_of_mem_entries present) other (mem_parts_of_mem_entries member)
              equalFound⟩
      | returned value =>
          obtain ⟨inner, rfl, equalInner⟩ := equals_returned_iff.1 equal
          exact turned value (List.mem_singleton.2 rfl) inner (List.mem_singleton.2 rfl) equalInner
      | null => cases other <;> first | rfl | cases equal
      | integer | boolean | string | function | builtin | error =>
          cases other <;> simp only [equals, beq_iff_eq, Bool.false_eq_true] at equal ⊢
          exact equal.symm

theorem equals_trans (value : Value) : ∀ other third : Value, value.equals other = true →
    other.equals third = true → value.equals third = true := by
  induction value using induction_on_parts with
  | step value ih =>
      intro other third first second
      cases value with
      | array identity elements =>
          obtain ⟨_, others, rfl, sameLength, each⟩ := equals_array_iff.1 first
          obtain ⟨_, thirds, rfl, sameLengthOther, eachOther⟩ := equals_array_iff.1 second
          refine equals_array_iff.2 ⟨_, thirds, rfl, sameLength.trans sameLengthOther, ?_⟩
          intro place inFirst inThird
          have inSecond : place < others.length := sameLength ▸ inFirst
          exact ih _ (List.getElem_mem inFirst) _ _ (each place inFirst inSecond)
            (eachOther place inSecond inThird)
      | dictionary identity entries =>
          obtain ⟨_, others, rfl, sameLength, agree⟩ := equals_dictionary_iff.1 first
          obtain ⟨_, thirds, rfl, sameLengthOther, agreeOther⟩ := equals_dictionary_iff.1 second
          refine equals_dictionary_iff.2 ⟨_, thirds, rfl, sameLength.trans sameLengthOther, ?_⟩
          intro key value member
          obtain ⟨found, isFound, equalFound⟩ := agree key value member
          obtain ⟨last, isLast, equalLast⟩ := agreeOther key found (Entries.mem_of_find? isFound)
          exact ⟨last, isLast,
            ih value (mem_parts_of_mem_entries member) found last equalFound equalLast⟩
      | returned value =>
          obtain ⟨inner, rfl, equalInner⟩ := equals_returned_iff.1 first
          obtain ⟨last, rfl, equalLast⟩ := equals_returned_iff.1 second
          exact ih value (List.mem_singleton.2 rfl) inner last equalInner equalLast
      | null => cases other <;> first | exact second | cases first
      | integer | boolean | string | function | builtin | error =>
          cases other <;> simp only [equals, beq_iff_eq, Bool.false_eq_true] at first
          cases third <;> simp only [equals, beq_iff_eq, Bool.false_eq_true] at second ⊢
          exact first.trans second

end Value

/-! ## Rearranged dictionaries -/

mutual

/-- One value is the other with the entries of dictionaries in it, at any depth, in another order.
What is rearranged is made anew, so arrays and dictionaries need not keep their identities. -/
inductive Value.Rearranged : Value → Value → Prop
  | same (value : Value) : Rearranged value value
  | array {elements others : List Value} (identity other : Identity)
      (each : Value.RearrangedAll elements others) :
      Rearranged (.array identity elements) (.array other others)
  | dictionary {entries others arranged : List (Key × Value)} (identity other : Identity)
      (each : Value.RearrangedEntries entries others) (order : others.Perm arranged) :
      Rearranged (.dictionary identity entries) (.dictionary other arranged)
  | returned {value other : Value} (inside : Value.Rearranged value other) :
      Rearranged (.returned value) (.returned other)

/-- Lists of values with rearranged dictionaries inside; the lists themselves keep their order. -/
inductive Value.RearrangedAll : List Value → List Value → Prop
  | nil : RearrangedAll [] []
  | cons {value other : Value} {rest others : List Value} (first : Value.Rearranged value other)
      (each : Value.RearrangedAll rest others) : RearrangedAll (value :: rest) (other :: others)

/-- Entries with rearranged dictionaries inside their values. -/
inductive Value.RearrangedEntries : List (Key × Value) → List (Key × Value) → Prop
  | nil : RearrangedEntries [] []
  | cons {value other : Value} {rest others : List (Key × Value)} (key : Key)
      (first : Value.Rearranged value other) (each : Value.RearrangedEntries rest others) :
      RearrangedEntries ((key, value) :: rest) ((key, other) :: others)

end

namespace Value

-- A rearranged value is compared with the first one, and its keys are seen to be distinct, in one
-- recursion over how it was rearranged.
mutual

theorem Rearranged.equals : {value other : Value} → value.Rearranged other →
    value.hasDistinctKeys = true → other.hasDistinctKeys = true ∧ value.equals other = true
  | _, _, .same _, distinct => ⟨distinct, equals_refl distinct⟩
  | _, _, .array _ _ each, distinct => each.equals distinct
  | _, _, @Rearranged.dictionary entries others arranged _ _ each order, distinct => by
      rw [hasDistinctKeys, Bool.and_eq_true, decide_eq_true_eq] at distinct ⊢
      obtain ⟨sameKeys, othersDistinct, found⟩ := each.equals distinct.2
      have sameArranged : (Entries.keys entries).Perm (Entries.keys arranged) :=
        sameKeys ▸ order.map Prod.fst
      have arrangedDistinct : (Entries.keys arranged).Nodup := sameArranged.nodup distinct.1
      refine ⟨⟨arrangedDistinct, ?_⟩, equals_dictionary_iff.2 ⟨_, _, rfl, ?_, ?_⟩⟩
      · rw [entriesDistinctKeys_iff] at othersDistinct ⊢
        intro entry member
        exact othersDistinct entry (order.mem_iff.2 member)
      · simpa [Entries.keys] using sameArranged.length_eq
      · intro key value member
        obtain ⟨other, present, equal⟩ := found key value member
        exact ⟨other, Entries.find?_of_mem arrangedDistinct (order.mem_iff.1 present), equal⟩
  | _, _, .returned inside, distinct => inside.equals distinct

theorem RearrangedAll.equals : {values others : List Value} → RearrangedAll values others →
    allDistinctKeys values = true →
      allDistinctKeys others = true ∧ equalsAll values others = true
  | _, _, .nil, _ => ⟨rfl, rfl⟩
  | _, _, .cons first each, distinct => by
      rw [allDistinctKeys, Bool.and_eq_true] at distinct ⊢
      obtain ⟨firstDistinct, firstEqual⟩ := first.equals distinct.1
      obtain ⟨restDistinct, restEqual⟩ := each.equals distinct.2
      exact ⟨⟨firstDistinct, restDistinct⟩, by rw [equalsAll, firstEqual, restEqual]; rfl⟩

theorem RearrangedEntries.equals : {entries others : List (Key × Value)} →
    RearrangedEntries entries others → entriesDistinctKeys entries = true →
      Entries.keys entries = Entries.keys others ∧ entriesDistinctKeys others = true ∧
        ∀ key value, (key, value) ∈ entries →
          ∃ other, (key, other) ∈ others ∧ value.equals other = true
  | _, _, .nil, _ => ⟨rfl, rfl, nofun⟩
  | _, _, .cons key first each, distinct => by
      rw [entriesDistinctKeys, Bool.and_eq_true] at distinct ⊢
      obtain ⟨firstDistinct, firstEqual⟩ := first.equals distinct.1
      obtain ⟨sameKeys, restDistinct, found⟩ := each.equals distinct.2
      refine ⟨congrArg (key :: ·) sameKeys, ⟨firstDistinct, restDistinct⟩, ?_⟩
      intro other value member
      rcases List.mem_cons.1 member with here | behind
      · cases here
        exact ⟨_, List.mem_cons_self, firstEqual⟩
      · obtain ⟨counterpart, present, equal⟩ := found other value behind
        exact ⟨counterpart, List.mem_cons_of_mem _ present, equal⟩

end

/-- Values as the language makes them: in no dictionary a key occurs twice. -/
abbrev WellKeyed := { value : Value // value.hasDistinctKeys = true }

/-- If two values are one array or one dictionary, they have the same contents. -/
structure SharesContents (value other : Value) : Prop where
  arrays : ∀ identity elements others, value = array identity elements →
    other = array identity others → elements = others
  dictionaries : ∀ identity entries others, value = dictionary identity entries →
    other = dictionary identity others → entries = others

theorem equals_of_isIdentical {value other : Value} (distinct : value.hasDistinctKeys = true)
    (shares : value.SharesContents other) (identical : value.isIdentical other = true) :
    value.equals other = true := by
  cases value with
  | array identity elements =>
      cases other with
      | array _ others =>
          obtain rfl : identity = _ := beq_iff_eq.1 identical
          obtain rfl := shares.arrays identity elements others rfl rfl
          exact equals_refl distinct
      | _ => cases identical
  | dictionary identity entries =>
      cases other with
      | dictionary _ others =>
          obtain rfl : identity = _ := beq_iff_eq.1 identical
          obtain rfl := shares.dictionaries identity entries others rfl rfl
          exact equals_refl distinct
      | _ => cases identical
  | _ => cases other <;> first | exact identical | cases identical

/-- Equality of contents is an equivalence; it does not depend on the order of entries in any
dictionary, and what is identical is equal, provided that one identity means one content. -/
theorem equals_equivalence :
    Equivalence (fun value other : WellKeyed => value.1.equals other.1 = true) ∧
    (∀ (value other : WellKeyed) (arranged otherArranged : Value),
      value.1.Rearranged arranged → other.1.Rearranged otherArranged →
        arranged.equals otherArranged = value.1.equals other.1) ∧
    ∀ value other : WellKeyed, value.1.SharesContents other.1 →
      value.1.isIdentical other.1 = true → value.1.equals other.1 = true := by
  refine ⟨⟨fun value => equals_refl value.2, fun {value other} => ?_, fun {value other third} => ?_⟩,
    ?_, fun value other => equals_of_isIdentical value.2⟩
  · exact equals_symm value.1 other.1 value.2 other.2
  · exact equals_trans value.1 other.1 third.1
  · rintro ⟨value, distinct⟩ ⟨other, otherDistinct⟩ arranged otherArranged moved otherMoved
    obtain ⟨arrangedDistinct, equal⟩ := moved.equals distinct
    obtain ⟨otherArrangedDistinct, otherEqual⟩ := otherMoved.equals otherDistinct
    rw [Bool.eq_iff_iff]
    constructor
    · intro arrangedEqual
      have toOther := equals_symm other otherArranged otherDistinct otherArrangedDistinct otherEqual
      exact equals_trans _ _ _ equal (equals_trans _ _ _ arrangedEqual toOther)
    · intro firstEqual
      have fromArranged := equals_symm value arranged distinct arrangedDistinct equal
      exact equals_trans _ _ _ fromArranged (equals_trans _ _ _ firstEqual otherEqual)

/-- A dictionary inside a dictionary inside an array. -/
def nestedSample : Value :=
  array 0 [dictionary 1 [(.integer 1, null),
    (.boolean true, dictionary 2 [(.string "a", integer 5), (.string "b", null)])]]

/-- The same with both dictionaries the other way round. -/
def nestedRearranged : Value :=
  array 7 [dictionary 8 [(.boolean true, dictionary 9 [(.string "b", null), (.string "a", integer 5)]),
    (.integer 1, null)]]

theorem equals_equivalence_sample :
    nestedSample.Rearranged nestedRearranged ∧
      nestedRearranged.equals nestedSample = nestedSample.equals nestedSample ∧
      nestedSample.equals nestedSample = true ∧ nestedRearranged.equals nestedSample = true := by
  obtain ⟨equivalence, arranged, identical⟩ := equals_equivalence
  have rearranged : nestedSample.Rearranged nestedRearranged :=
    .array 0 7 (.cons (.dictionary 1 8 (.cons _ (.same _) (.cons _
      (.dictionary 2 9 (.cons _ (.same _) (.cons _ (.same _) .nil)) (.swap _ _ _)) .nil))
        (.swap _ _ _)) .nil)
  have moved := arranged ⟨nestedSample, rfl⟩ ⟨nestedSample, rfl⟩ _ _ rearranged (.same _)
  have shares : nestedSample.SharesContents nestedSample :=
    ⟨by rintro _ _ _ ⟨⟩ ⟨⟩; rfl, by rintro _ _ _ ⟨⟩⟩
  have self := identical ⟨nestedSample, rfl⟩ ⟨nestedSample, rfl⟩ shares rfl
  have fromSample : nestedSample.equals nestedRearranged = true := by
    rw [← arranged ⟨nestedSample, rfl⟩ ⟨nestedSample, rfl⟩ _ _ (.same _) rearranged] at self
    exact self
  exact ⟨rearranged, moved, self,
    @Equivalence.symm _ _ equivalence ⟨nestedSample, rfl⟩ ⟨nestedRearranged, rfl⟩ fromSample⟩

end Value

end Scriptlet
