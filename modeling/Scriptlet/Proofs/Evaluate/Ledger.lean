import Mathlib.Logic.Function.Basic
import Scriptlet.Proofs.Evaluate.Moments
import Scriptlet.Proofs.Value.Contents

/-!
# A ledger of what was made

Arrays, dictionaries and functions are composites: they carry an identity.  A *ledger* says for each
identity which composite was made under it.  A value is filed in a ledger when every composite in
it, at any depth, is the one that the ledger has for its identity.

From a start whose values are filed, evaluation needs no second ledger: what it makes is entered
under identities that the ledger had no use for, and all else that it shows is handed on.  So one
ledger accounts for all moments of an evaluation, however long it takes and whether or not it ends.
-/

namespace Scriptlet

/-! ## Composites -/

mutual

/-- The composites in a value, at any depth, each with its identity. -/
def Value.composites : Value → List (Identity × Value)
  | .array identity elements =>
      (identity, .array identity elements) :: Value.compositesAll elements
  | .dictionary identity entries =>
      (identity, .dictionary identity entries) :: Value.compositesEntries entries
  | .function identity closure => [(identity, .function identity closure)]
  | .returned value => value.composites
  | _ => []
  termination_by structural value => value

/-- The composites in the values of a list. -/
def Value.compositesAll : List Value → List (Identity × Value)
  | [] => []
  | value :: rest => value.composites ++ Value.compositesAll rest
  termination_by structural values => values

/-- The composites in the values of some entries. -/
def Value.compositesEntries : List (Key × Value) → List (Identity × Value)
  | [] => []
  | (_, value) :: rest => value.composites ++ Value.compositesEntries rest
  termination_by structural entries => entries

end

namespace Value

/-- The identity of a composite. -/
def identity? : Value → Option Identity
  | array identity _ => some identity
  | dictionary identity _ => some identity
  | function identity _ => some identity
  | _ => none

/-- Whether nothing is inside a value and it has no identity. -/
def isAtom : Value → Bool
  | array .. | dictionary .. | function .. | returned _ => false
  | _ => true

theorem mem_composites_self {value : Value} {identity : Identity}
    (carries : value.identity? = some identity) : (identity, value) ∈ value.composites := by
  cases value with
  | array | dictionary | function =>
      cases carries
      exact List.mem_cons_self
  | _ => cases carries

@[simp] theorem mem_compositesAll_iff {values : List Value} {composite : Identity × Value} :
    composite ∈ compositesAll values ↔ ∃ value ∈ values, composite ∈ value.composites := by
  induction values with
  | nil => simp [compositesAll]
  | cons value rest ih => simp [compositesAll, ih]

@[simp] theorem mem_compositesEntries_iff {entries : List (Key × Value)}
    {composite : Identity × Value} :
    composite ∈ compositesEntries entries ↔
      ∃ entry ∈ entries, composite ∈ entry.2.composites := by
  induction entries with
  | nil => simp [compositesEntries]
  | cons entry rest ih =>
      obtain ⟨key, value⟩ := entry
      simp only [compositesEntries, List.mem_append, ih, List.exists_mem_cons_iff]

end Value

mutual

theorem Value.hasDistinctKeys_of_mem : (value : Value) → value.hasDistinctKeys = true →
    ∀ composite ∈ value.composites, composite.2.hasDistinctKeys = true
  | .array identity elements, distinct, composite, member => by
      rcases List.mem_cons.1 member with rfl | inside
      · exact distinct
      · exact Value.allDistinctKeys_of_mem elements distinct composite inside
  | .dictionary identity entries, distinct, composite, member => by
      rcases List.mem_cons.1 member with rfl | inside
      · exact distinct
      · rw [Value.hasDistinctKeys, Bool.and_eq_true] at distinct
        exact Value.entriesDistinctKeys_of_mem entries distinct.2 composite inside
  | .function identity closure, _, composite, member => by
      cases List.mem_singleton.1 member
      rfl
  | .returned value, distinct, composite, member =>
      value.hasDistinctKeys_of_mem distinct composite member

theorem Value.allDistinctKeys_of_mem : (values : List Value) →
    Value.allDistinctKeys values = true →
    ∀ composite ∈ Value.compositesAll values, composite.2.hasDistinctKeys = true
  | value :: rest, distinct, composite, member => by
      rw [Value.allDistinctKeys, Bool.and_eq_true] at distinct
      rcases List.mem_append.1 member with inFirst | inRest
      · exact value.hasDistinctKeys_of_mem distinct.1 composite inFirst
      · exact Value.allDistinctKeys_of_mem rest distinct.2 composite inRest

theorem Value.entriesDistinctKeys_of_mem : (entries : List (Key × Value)) →
    Value.entriesDistinctKeys entries = true →
    ∀ composite ∈ Value.compositesEntries entries, composite.2.hasDistinctKeys = true
  | (_, value) :: rest, distinct, composite, member => by
      rw [Value.entriesDistinctKeys, Bool.and_eq_true] at distinct
      rcases List.mem_append.1 member with inFirst | inRest
      · exact value.hasDistinctKeys_of_mem distinct.1 composite inFirst
      · exact Value.entriesDistinctKeys_of_mem rest distinct.2 composite inRest

end

/-! ## Filed values -/

/-- Which composite was made under each identity. -/
abbrev Ledger := Identity → Value

/-- A value is filed in a ledger: every composite in it is the one that the ledger has for its
identity, which is below a limit; and no dictionary in it has a key twice. -/
structure Value.Filed (ledger : Ledger) (limit : Identity) (value : Value) : Prop where
  distinct : value.hasDistinctKeys = true
  entered : ∀ composite ∈ value.composites,
    composite.1 < limit ∧ ledger composite.1 = composite.2

namespace Value

variable {ledger : Ledger} {limit : Identity}

theorem filed_of_isAtom {value : Value} (atom : value.isAtom = true) :
    value.Filed ledger limit := by
  cases value with
  | array | dictionary | function | returned => cases atom
  | _ => exact ⟨rfl, by intro composite member; cases member⟩

theorem filed_array_iff {identity : Identity} {elements : List Value} :
    (array identity elements).Filed ledger limit ↔
      identity < limit ∧ ledger identity = array identity elements ∧
        ∀ value ∈ elements, value.Filed ledger limit := by
  constructor
  · rintro ⟨distinct, entered⟩
    obtain ⟨below, listed⟩ := entered _ List.mem_cons_self
    refine ⟨below, listed, fun value member => ⟨allDistinctKeys_iff.1 distinct value member, ?_⟩⟩
    intro composite inside
    exact entered _ (List.mem_cons_of_mem _ (mem_compositesAll_iff.2 ⟨value, member, inside⟩))
  · rintro ⟨below, listed, filed⟩
    refine ⟨allDistinctKeys_iff.2 fun value member => (filed value member).distinct, ?_⟩
    intro composite member
    rcases List.mem_cons.1 member with rfl | inside
    · exact ⟨below, listed⟩
    · obtain ⟨value, member, inside⟩ := mem_compositesAll_iff.1 inside
      exact (filed value member).entered composite inside

theorem filed_dictionary_iff {identity : Identity} {entries : Entries Value} :
    (dictionary identity entries).Filed ledger limit ↔
      identity < limit ∧ ledger identity = dictionary identity entries ∧ entries.keys.Nodup ∧
        ∀ entry ∈ entries, entry.2.Filed ledger limit := by
  constructor
  · rintro ⟨distinct, entered⟩
    rw [hasDistinctKeys, Bool.and_eq_true, decide_eq_true_eq] at distinct
    obtain ⟨below, listed⟩ := entered _ List.mem_cons_self
    refine ⟨below, listed, distinct.1, fun entry member =>
      ⟨entriesDistinctKeys_iff.1 distinct.2 entry member, ?_⟩⟩
    intro composite inside
    exact entered _ (List.mem_cons_of_mem _ (mem_compositesEntries_iff.2 ⟨entry, member, inside⟩))
  · rintro ⟨below, listed, different, filed⟩
    constructor
    · rw [hasDistinctKeys, Bool.and_eq_true, decide_eq_true_eq]
      exact ⟨different, entriesDistinctKeys_iff.2 fun entry member => (filed entry member).distinct⟩
    · intro composite member
      rcases List.mem_cons.1 member with rfl | inside
      · exact ⟨below, listed⟩
      · obtain ⟨entry, member, inside⟩ := mem_compositesEntries_iff.1 inside
        exact (filed entry member).entered composite inside

theorem filed_function_iff {identity : Identity} {closure : Closure} :
    (function identity closure).Filed ledger limit ↔
      identity < limit ∧ ledger identity = function identity closure := by
  constructor
  · intro filed
    exact filed.entered _ List.mem_cons_self
  · intro listed
    refine ⟨rfl, ?_⟩
    intro composite member
    cases List.mem_singleton.1 member
    exact listed

theorem filed_returned_iff {value : Value} :
    (returned value).Filed ledger limit ↔ value.Filed ledger limit :=
  ⟨fun filed => ⟨filed.distinct, filed.entered⟩, fun filed => ⟨filed.distinct, filed.entered⟩⟩

theorem Filed.settled {value : Value} (filed : value.Filed ledger limit) :
    value.settled.Filed ledger limit := by
  cases value with
  | returned value => exact filed_returned_iff.1 filed
  | _ => exact filed

end Value

/-- Two ledgers agree on all identities below a limit. -/
def Ledger.AgreesBelow (limit : Identity) (later earlier : Ledger) : Prop :=
  ∀ identity, identity < limit → later identity = earlier identity

theorem Ledger.AgreesBelow.trans {limit clock : Identity} {first middle last : Ledger}
    (later : last.AgreesBelow clock middle) (notLower : limit ≤ clock)
    (earlier : middle.AgreesBelow limit first) : last.AgreesBelow limit first := by
  intro identity below
  exact (later identity (Nat.lt_of_lt_of_le below notLower)).trans (earlier identity below)

theorem Value.Filed.later {value : Value} {earlier later : Ledger} {limit wider : Identity}
    (filed : value.Filed earlier limit) (agrees : later.AgreesBelow limit earlier)
    (notLower : limit ≤ wider) : value.Filed later wider := by
  refine ⟨filed.distinct, ?_⟩
  intro composite member
  obtain ⟨below, listed⟩ := filed.entered composite member
  exact ⟨Nat.lt_of_lt_of_le below notLower, (agrees _ below).trans listed⟩

/-! ## Filed stores -/

/-- Every binding of every frame is filed, below the next identity. -/
def Store.Filed (ledger : Ledger) (store : Store) : Prop :=
  ∀ frame ∈ store.frames, ∀ binding ∈ frame.bindings,
    binding.2.Filed ledger store.nextIdentity

namespace Store.Filed

variable {store : Store} {ledger : Ledger}

theorem addFrame (filed : store.Filed ledger) {bindings : List (String × Value)}
    (bindingsFiled : ∀ binding ∈ bindings, binding.2.Filed ledger store.nextIdentity)
    (parent : Option FrameId) : (store.addFrame bindings parent).2.Filed ledger := by
  intro frame member
  simp only [Store.addFrame, Array.mem_push] at member
  rcases member with member | rfl
  · exact filed frame member
  · exact bindingsFiled

theorem bind (filed : store.Filed ledger) (scope : FrameId) (name : String) {value : Value}
    (valueFiled : value.Filed ledger store.nextIdentity) :
    (store.bind scope name value).Filed ledger := by
  intro frame member
  obtain ⟨index, inBounds, rfl⟩ := Array.mem_iff_getElem.1 member
  simp only [Store.bind, Array.size_modify] at inBounds
  simp only [Store.bind, Array.getElem_modify]
  split
  · exact List.forall_mem_cons.2 ⟨valueFiled, filed _ (Array.getElem_mem inBounds)⟩
  · exact filed _ (Array.getElem_mem inBounds)

theorem lookup (filed : store.Filed ledger) {scope : FrameId} {name : String} {value : Value}
    (found : store.lookup scope name = some value) : value.Filed ledger store.nextIdentity := by
  fun_induction store.lookup scope name with
  | case1 => cases found
  | case2 scope frame frameFound own ownFound =>
      cases found
      obtain ⟨front, back, bindingsEq, _⟩ := List.lookup_eq_some_iff.1 ownFound
      exact filed frame (Array.mem_of_getElem? frameFound) (name, value) (by simp [bindingsEq])
  | case3 => cases found
  | case4 scope frame _ _ parent _ _ ih => exact ih found
  | case5 => cases found

theorem later {other : Ledger} {clock : Identity} (filed : store.Filed ledger)
    (agrees : other.AgreesBelow store.nextIdentity ledger) (notLower : store.nextIdentity ≤ clock) :
    Store.Filed other { store with nextIdentity := clock } := by
  intro frame frameMember binding member
  exact (filed frame frameMember binding member).later agrees notLower

end Store.Filed

theorem Entries.forall_mem_insert {α : Type} {p : α → Prop} {entries : Entries α} {key : Key}
    {value : α} (all : ∀ entry ∈ entries, p entry.2) (new : p value) :
    ∀ entry ∈ entries.insert key value, p entry.2 := by
  induction entries with
  | nil => simpa [insert] using new
  | cons entry rest ih =>
      rw [List.forall_mem_cons] at all
      unfold insert
      split
      · exact List.forall_mem_cons.2 ⟨new, all.2⟩
      · exact List.forall_mem_cons.2 ⟨all.1, ih all.2⟩

/-! ## Operators and builtins -/

theorem UnaryOp.isAtom_apply (op : UnaryOp) (operand : Value) :
    (op.apply operand).isAtom = true := by
  cases op <;> cases operand <;> rfl

theorem BinaryOp.isAtom_apply (op : BinaryOp) (left right : Value) :
    (op.apply left right).isAtom = true := by
  unfold BinaryOp.apply
  split
  · cases op with
    | divide =>
        simp only [applyIntegers]
        split <;> rfl
    | _ => rfl
  · cases op <;> rfl
  · unfold applyOthers
    split
    · cases op <;> rfl
    · rfl

namespace Value

variable {ledger : Ledger} {limit : Identity}

theorem filed_getD_null {found : Option Value} (filed : ∀ value ∈ found, value.Filed ledger limit) :
    (found.getD null).Filed ledger limit := by
  cases found with
  | none => exact filed_of_isAtom rfl
  | some value => exact filed value rfl

theorem Filed.atIndex {collection : Value} (filed : collection.Filed ledger limit) (index : Value) :
    (collection.atIndex index).Filed ledger limit := by
  unfold Value.atIndex
  split
  · unfold elementAt
    split
    · exact filed_of_isAtom rfl
    · exact filed_getD_null fun value found =>
        (filed_array_iff.1 filed).2.2 value (List.mem_of_getElem? found)
  · split
    · next key _ =>
        exact filed_getD_null fun value found =>
          (filed_dictionary_iff.1 filed).2.2.2 (key, value) (Entries.mem_of_find? found)
    · exact filed_of_isAtom rfl
  · exact filed_of_isAtom rfl

theorem exists_of_mem_getD_null {found : Option Value} {composite : Identity × Value}
    (member : composite ∈ (found.getD null).composites) :
    ∃ value ∈ found, composite ∈ value.composites := by
  cases found with
  | none => cases member
  | some value => exact ⟨value, rfl, member⟩

/-- All that is in what indexing finds is in the collection. -/
theorem composites_atIndex_subset (collection index : Value) :
    (collection.atIndex index).composites ⊆ collection.composites := by
  intro composite
  unfold Value.atIndex
  split
  · next own elements position =>
      intro member
      unfold elementAt at member
      split at member
      · cases member
      · obtain ⟨value, found, inside⟩ := exists_of_mem_getD_null member
        exact List.mem_cons_of_mem _
          (mem_compositesAll_iff.2 ⟨value, List.mem_of_getElem? found, inside⟩)
  · next own entries _ =>
      split
      · next key _ =>
          intro member
          obtain ⟨value, found, inside⟩ := exists_of_mem_getD_null member
          exact List.mem_cons_of_mem _
            (mem_compositesEntries_iff.2 ⟨(key, value), Entries.mem_of_find? found, inside⟩)
      · exact nofun
  · exact nofun

end Value

namespace Evaluate

/-- Whether a task is there to make a composite: a literal, or the call of a builtin that makes an
array. -/
def Task.makes : Task → Bool
  | expression _ (.array _) | expression _ (.dictionary _) | expression _ (.function ..) => true
  | application (.builtin _ .tail) _ | application (.builtin _ .push) _ => true
  | _ => false

namespace Moment

/-- The identity under which something was made just before a moment. -/
def made? : Moment → Option Identity
  | started _ => none
  | ended activation result _ => if activation.task.makes then result.identity? else none

/-- The composites at a moment: those in the bindings of all frames and in the values in hand. -/
def composites (moment : Moment) : List (Identity × Value) :=
  moment.store.frames.toList.flatMap (fun frame =>
    Value.compositesAll (frame.bindings.map Prod.snd)) ++ Value.compositesAll moment.values

/-- Everything at a moment is filed. -/
structure Filed (ledger : Ledger) (moment : Moment) : Prop where
  store : moment.store.Filed ledger
  values : ∀ value ∈ moment.values, value.Filed ledger moment.store.nextIdentity

/-- A moment is not before the time at which a given number of identities was given out. -/
structure NotBefore (clock : Identity) (moment : Moment) : Prop where
  store : clock ≤ moment.store.nextIdentity
  made : ∀ identity ∈ moment.made?, clock ≤ identity

variable {ledger : Ledger} {clock : Identity} {moment : Moment}

theorem NotBefore.mono {earlier : Identity} (notBefore : moment.NotBefore clock)
    (notLater : earlier ≤ clock) : moment.NotBefore earlier where
  store := Nat.le_trans notLater notBefore.store
  made identity isMade := Nat.le_trans notLater (notBefore.made identity isMade)

theorem Filed.later {other : Ledger} (filed : moment.Filed ledger)
    (agrees : other.AgreesBelow moment.store.nextIdentity ledger) : moment.Filed other where
  store := filed.store.later agrees (Nat.le_refl _)
  values value member := (filed.values value member).later agrees (Nat.le_refl _)

end Moment

theorem Moment.mem_composites_result {activation : Activation} {result : Value} {after : Store}
    {identity : Identity} (carries : result.identity? = some identity) :
    (identity, result) ∈ (Moment.ended activation result after).composites :=
  List.mem_append_right _ (Value.mem_compositesAll_iff.2
    ⟨result, List.mem_singleton_self _, Value.mem_composites_self carries⟩)

theorem Moment.Filed.of_mem {ledger : Ledger} {moment : Moment} (filed : moment.Filed ledger)
    {identity : Identity} {composite : Value} (member : (identity, composite) ∈ moment.composites) :
    identity < moment.store.nextIdentity ∧ ledger identity = composite ∧
      composite.hasDistinctKeys = true := by
  rw [Moment.composites, List.mem_append, List.mem_flatMap] at member
  have inValue {value : Value} (valueFiled : value.Filed ledger moment.store.nextIdentity)
      (inside : (identity, composite) ∈ value.composites) :
      identity < moment.store.nextIdentity ∧ ledger identity = composite ∧
        composite.hasDistinctKeys = true := by
    obtain ⟨below, listed⟩ := valueFiled.entered _ inside
    exact ⟨below, listed, value.hasDistinctKeys_of_mem valueFiled.distinct _ inside⟩
  rcases member with ⟨frame, frameMember, inFrame⟩ | inHand
  · obtain ⟨value, valueMember, inside⟩ := Value.mem_compositesAll_iff.1 inFrame
    obtain ⟨binding, bindingMember, rfl⟩ := List.mem_map.1 valueMember
    have inStore := Array.mem_toList_iff.1 frameMember
    exact inValue (filed.store frame inStore binding bindingMember) inside
  · obtain ⟨value, valueMember, inside⟩ := Value.mem_compositesAll_iff.1 inHand
    exact inValue (filed.values value valueMember) inside

/-- One ledger, the same below a clock as a given one, accounts for all moments of a list, which are
in the order of time and not before the clock. -/
def Accounts (ledger : Ledger) (clock : Identity) (moments : List Moment) : Prop :=
  ∃ final : Ledger, final.AgreesBelow clock ledger ∧
    (∀ moment ∈ moments, moment.NotBefore clock ∧ moment.Filed final) ∧
    moments.Pairwise fun earlier later => later.NotBefore earlier.store.nextIdentity

/-- From a filed start, one ledger accounts for all moments of an activation. -/
def Activation.Accounted (library : Library) (activation : Activation) : Prop :=
  ∀ ledger, (Moment.started activation).Filed ledger →
    Accounts ledger activation.store.nextIdentity (activation.moments library)

namespace Accounts

variable {ledger : Ledger} {clock : Identity} {moments rest : List Moment}

theorem nil : Accounts ledger clock [] :=
  ⟨ledger, fun _ _ => rfl, nofun, .nil⟩

/-- Moments after others: what is new in them is entered where the ledger so far has no use. -/
theorem append {final : Ledger} {middle : Identity} (agrees : final.AgreesBelow clock ledger)
    (notLater : clock ≤ middle)
    (filed : ∀ moment ∈ moments, moment.NotBefore clock ∧ moment.Filed final)
    (ordered : moments.Pairwise fun earlier later => later.NotBefore earlier.store.nextIdentity)
    (notAfter : ∀ moment ∈ moments, moment.store.nextIdentity ≤ middle)
    (continued : Accounts final middle rest) : Accounts ledger clock (moments ++ rest) := by
  obtain ⟨last, lastAgrees, restFiled, restOrdered⟩ := continued
  refine ⟨last, lastAgrees.trans notLater agrees, ?_,
    List.pairwise_append.2 ⟨ordered, restOrdered, ?_⟩⟩
  · intro moment member
    rcases List.mem_append.1 member with member | member
    · refine ⟨(filed moment member).1, (filed moment member).2.later ?_⟩
      intro identity below
      exact lastAgrees identity (Nat.lt_of_lt_of_le below (notAfter moment member))
    · exact ⟨(restFiled moment member).1.mono notLater, (restFiled moment member).2⟩
  · intro earlier member later laterMember
    exact (restFiled later laterMember).1.mono (notAfter earlier member)

theorem cons_started {activation : Activation}
    (filed : (Moment.started activation).Filed ledger)
    (accounts : Accounts ledger activation.store.nextIdentity rest) :
    Accounts ledger activation.store.nextIdentity (.started activation :: rest) := by
  change Accounts ledger _ ([.started activation] ++ rest)
  refine append (fun _ _ => rfl) (Nat.le_refl _) ?_ (List.pairwise_singleton _ _) ?_ accounts
  · intro moment member
    cases List.mem_singleton.1 member
    exact ⟨⟨Nat.le_refl _, nofun⟩, filed⟩
  · intro moment member
    cases List.mem_singleton.1 member
    exact Nat.le_refl _

/-- An activation that ends by handing on what is filed already. -/
theorem handedOn {activation : Activation} {result : Value} {after : Store}
    (storeFiled : after.Filed ledger) (resultFiled : result.Filed ledger after.nextIdentity)
    (notMade : activation.task.makes = true → result.identity? = none)
    (notBefore : clock ≤ after.nextIdentity) :
    Accounts ledger clock [.ended activation result after] := by
  refine ⟨ledger, fun _ _ => rfl, ?_, List.pairwise_singleton _ _⟩
  intro moment member
  cases List.mem_singleton.1 member
  refine ⟨⟨notBefore, ?_⟩, storeFiled, ?_⟩
  · intro identity isMade
    rw [Moment.made?] at isMade
    split at isMade
    · next makes =>
        rw [notMade makes] at isMade
        cases isMade
    · cases isMade
  · intro value member
    cases List.mem_singleton.1 member
    exact resultFiled

/-- An activation that ends by making a composite: it is entered under a new identity. -/
theorem made {activation : Activation} {result : Value} {store : Store}
    (storeFiled : store.Filed ledger) (carries : result.identity? = some store.nextIdentity)
    (filed : ∀ final : Ledger, final.AgreesBelow store.nextIdentity ledger →
      final store.nextIdentity = result → result.Filed final (store.nextIdentity + 1))
    (notBefore : clock ≤ store.nextIdentity) :
    Accounts ledger clock
      [.ended activation result { store with nextIdentity := store.nextIdentity + 1 }] := by
  have agrees : Ledger.AgreesBelow store.nextIdentity
      (Function.update ledger store.nextIdentity result) ledger := by
    intro identity below
    exact Function.update_of_ne (Nat.ne_of_lt below) _ _
  refine ⟨Function.update ledger store.nextIdentity result, ?_, ?_, List.pairwise_singleton _ _⟩
  · intro identity below
    exact agrees identity (Nat.lt_of_lt_of_le below notBefore)
  · intro moment member
    cases List.mem_singleton.1 member
    refine ⟨⟨Nat.le_succ_of_le notBefore, ?_⟩, storeFiled.later agrees (Nat.le_succ _), ?_⟩
    · intro identity isMade
      rw [Moment.made?, carries] at isMade
      split at isMade
      · cases isMade
        exact notBefore
      · cases isMade
    · intro value member
      cases List.mem_singleton.1 member
      exact filed _ agrees (Function.update_self ..)

end Accounts

/-- Moments that come after a part of an evaluation: there are none if the part does not end, and
they are accounted for by every ledger that has what the part has yielded. -/
structure Continues {α : Type} (ledger : Ledger) (clock : Identity)
    (yields : Ledger → Identity → α → Prop) (part : Option (α × Store)) (rest : List Moment) :
    Prop where
  unfinished : part = none → rest = []
  finished : ∀ outcome after final, part = some (outcome, after) →
    Ledger.AgreesBelow clock final ledger → clock ≤ after.nextIdentity → after.Filed final →
    yields final after.nextIdentity outcome → Accounts final after.nextIdentity rest

namespace Accounts

variable {ledger : Ledger} {rest : List Moment}
variable {library : Library} {first : Activation} {next : Value → Store → List Activation}

/-- An activation that ends does so at the last of its moments. -/
theorem moments_of_run {value : Value} {after : Store}
    (ordered : (first.moments library).Pairwise fun earlier later =>
      later.NotBefore earlier.store.nextIdentity)
    (ended : first.run library = some (value, after)) :
    .ended first value after ∈ first.moments library ∧
      ∀ moment ∈ first.moments library, moment.store.nextIdentity ≤ after.nextIdentity := by
  have whole := Activation.moments_eq library first
  have ending : first.ending library = [.ended first value after] := by
    rw [Activation.ending, ended]
  rw [ending, ← List.cons_append] at whole
  rw [whole] at ordered ⊢
  refine ⟨List.mem_append_right _ (List.mem_singleton_self _), ?_⟩
  intro moment member
  rcases List.mem_append.1 member with before | last
  · exact ((List.pairwise_append.1 ordered).2.2 moment before _ (List.mem_singleton_self _)).store
  · cases List.mem_singleton.1 last
    exact Nat.le_refl _

/-- An activation and what comes after it. -/
theorem followed (accounted : first.Accounted library) (filed : (Moment.started first).Filed ledger)
    (continues : Continues ledger first.store.nextIdentity Value.Filed (first.run library) rest) :
    Accounts ledger first.store.nextIdentity (first.moments library ++ rest) := by
  obtain ⟨final, agrees, allFiled, ordered⟩ := accounted ledger filed
  cases ended : first.run library with
  | none =>
      rw [continues.unfinished ended, List.append_nil]
      exact ⟨final, agrees, allFiled, ordered⟩
  | some step =>
      obtain ⟨value, after⟩ := step
      obtain ⟨lastMember, notAfter⟩ := moments_of_run ordered ended
      obtain ⟨notBefore, lastFiled⟩ := allFiled _ lastMember
      exact append agrees notBefore.store allFiled ordered notAfter
        (continues.finished value after final ended agrees notBefore.store lastFiled.store
          (lastFiled.values value (List.mem_singleton_self _)))

/-- An activation and what is started after it, unless it interrupts. -/
theorem thenStart (accounted : first.Accounted library)
    (filed : (Moment.started first).Filed ledger)
    (unfinished : first.run library = none → rest = [])
    (finished : ∀ value after final, first.run library = some (value, after) →
      Ledger.AgreesBelow first.store.nextIdentity final ledger →
      first.store.nextIdentity ≤ after.nextIdentity → after.Filed final →
      value.Filed final after.nextIdentity →
      Accounts final after.nextIdentity
        ((if value.interrupts then [] else next value after).flatMap (Activation.moments library) ++
          rest)) :
    Accounts ledger first.store.nextIdentity
      ((Activation.thenStart library first next).flatMap (Activation.moments library) ++ rest) := by
  rw [Activation.thenStart, List.flatMap_cons, List.append_assoc]
  refine followed accounted filed ⟨?_, ?_⟩
  · intro noEnd
    rw [noEnd, unfinished noEnd]
    rfl
  · intro value after final ended agrees notBefore afterFiled valueFiled
    simp only [ended]
    exact finished value after final ended agrees notBefore afterFiled valueFiled

end Accounts

end Evaluate

end Scriptlet
