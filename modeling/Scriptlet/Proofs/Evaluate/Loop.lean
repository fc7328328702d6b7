import Mathlib.Algebra.Group.Nat.Defs
import Scriptlet.Proofs.Evaluate.Reaching

/-!
# Loops written in the language

The language has no loops; a program that goes through an array does so by a function that calls
itself with the rest of the array and a new state.  This module proves such a loop right by an
invariant: if the invariant is kept by one round, and a round that fails ends as it should, then the
loop ends as it should, for arrays of every length.
-/

namespace Scriptlet

/-- A loop over an array: the name of its state, and the expression for the state after a round, which
may use the state and what is left of the array under the name `arr`. -/
structure Loop where
  state : String
  next : Expr
  separate : state ∉ "arr" :: "iter" :: Builtin.all.map Builtin.name := by decide

namespace Loop

/-- The next round: the loop calls itself, under the name `iter`, with the array without its first
element and the next state. -/
def again (loop : Loop) : Expr :=
  .call (.identifier "iter") [.call (.identifier "tail") [.identifier "arr"], loop.next]

/-- The state when the array is empty, and else the next round. -/
def body (loop : Loop) : Block :=
  [.expression (.conditional
    (.binary (.call (.identifier "len") [.identifier "arr"]) .equal (.integer "0"))
    [.expression (.identifier loop.state)] (some [.expression loop.again]))]

/-- The loop as a function in the scope that binds it. -/
def closure (loop : Loop) (home : FrameId) : Closure := ⟨["arr", loop.state], loop.body, home⟩

/-- What a round of the loop sees, inside a scope that shows what is around the loop. -/
def view (loop : Loop) (around : String → Option Value) (array state : Value) :
    String → Option Value :=
  fun name => ([(loop.state, state), ("arr", array)].lookup name).or (around name)

/-- A store from which the loop can start: its scope shows the loop itself, under the name `iter`, and
all builtins. -/
structure Starts (loop : Loop) (library : Library) (start : Store) (home : FrameId)
    (around : String → Option Value) : Prop where
  shows : start.Shows home around
  itself : ∃ identity, around "iter" = some (.function identity (loop.closure home))
  free : ∀ builtin : Builtin, around builtin.name = none
  provided : ∀ builtin : Builtin, library.find? builtin.name = some builtin

/-- An invariant relates what is left of the array to the state.  One round keeps it or interrupts
the loop with a final value, and it gives a final value when nothing is left. -/
structure Invariant (loop : Loop) (library : Library) (start : Store)
    (around : String → Option Value) (holds : List Value → Value → Prop)
    (final : Value → Prop) : Prop where
  round : ∀ {first rest state scope store} (depth : Nat) (identity : Identity),
    holds (first :: rest) state → start.Extends store →
    store.Shows scope (loop.view around (.array identity (first :: rest)) state) →
      (Evaluate.expression library (Evaluate.applyWithin library (depth + 1)) scope
        loop.next).Reaches store fun result =>
          result.interrupts = false ∧ holds rest result ∨ result.interrupts = true ∧ final result
  finish : ∀ {state}, holds [] state → final state
  settled : ∀ {value}, final value → value.settled = value

section

variable {loop : Loop} {around : String → Option Value} {array state : Value}

theorem view_state : loop.view around array state loop.state = some state := by
  simp [view]

theorem view_array : loop.view around array state "arr" = some array := by
  have different : ("arr" == loop.state) = false :=
    beq_false_of_ne fun same => loop.separate (same ▸ .head _)
  simp [view, List.lookup_cons, different]

theorem view_other {name : String} (notArray : name ≠ "arr") (notState : name ≠ loop.state) :
    loop.view around array state name = around name := by
  simp [view, List.lookup_cons, beq_false_of_ne notArray, beq_false_of_ne notState]

theorem view_itself : loop.view around array state "iter" = around "iter" :=
  view_other (by decide) fun same => loop.separate (same ▸ .tail _ (.head _))

theorem view_builtin (builtin : Builtin) :
    loop.view around array state builtin.name = around builtin.name := by
  apply view_other
  · cases builtin <;> decide
  · intro same
    refine loop.separate (same ▸ .tail _ (.tail _ (List.mem_map_of_mem ?_)))
    cases builtin <;> decide

end

/-- Only the length 0 is 0 as a word, as long as lengths are words. -/
theorem ofNat_beq_zero {length : Nat} (isWord : length < 2 ^ 64) :
    (Int64.ofNat length == 0) = (length == 0) := by
  rw [Bool.eq_iff_iff, beq_iff_eq, beq_iff_eq]
  constructor
  · intro zero
    have same : length % 2 ^ 64 = 0 := congrArg (fun word => word.toBitVec.toNat) zero
    rwa [Nat.mod_eq_of_lt isWord] at same
  · rintro rfl
    rfl

section

open Evaluate

variable {loop : Loop} {library : Library} {start : Store} {home : FrameId}
variable {around : String → Option Value} {holds : List Value → Value → Prop}
variable {accepts final : Value → Prop}

/-- A round gives the state or goes on, depending on whether something of the array is left. -/
theorem Starts.reaches_body (starts : loop.Starts library start home around)
    {remaining : List Value} (isWord : remaining.length < 2 ^ 64) {depth : Nat} {store : Store}
    {scope : FrameId} {identity : Identity} {state : Value}
    (shows : store.Shows scope (loop.view around (.array identity remaining) state))
    (chosen : ∀ later, store.Extends later →
      (expression library (applyWithin library depth) scope
        (if remaining.isEmpty then .identifier loop.state else loop.again)).Reaches later accepts) :
    (block library (applyWithin library depth) scope .null loop.body).Reaches store accepts := by
  have counted : (expression library (applyWithin library depth) scope
      (.call (.identifier "len") [.identifier "arr"])).Reaches store
        (· = .integer (Int64.ofNat remaining.length)) :=
    reaches_builtin_call shows ((view_builtin .len).trans (starts.free .len)) (starts.provided .len)
      view_array rfl fun _ _ => .pure rfl
  have compared : (expression library (applyWithin library depth) scope
      (.binary (.call (.identifier "len") [.identifier "arr"]) .equal (.integer "0"))).Reaches store
        (· = .boolean remaining.isEmpty) := by
    refine counted.andThen_of_eq rfl fun _ _ => ?_
    refine .pure (congrArg Value.boolean ((ofNat_beq_zero isWord).trans ?_))
    cases remaining <;> rfl
  refine reaches_block_singleton (compared.andThen_of_eq rfl fun middle keeps => ?_)
  cases remaining with
  | nil => exact reaches_block_singleton (chosen middle keeps)
  | cons first rest => exact reaches_block_singleton (chosen middle keeps)

/-- From an array and a state for which an invariant holds, a loop ends with a final value; its calls
are nested as deep as the array is long, and one more. -/
theorem Invariant.reaches (invariant : loop.Invariant library start around holds final)
    (starts : loop.Starts library start home around) {remaining : List Value}
    (isWord : remaining.length < 2 ^ 64) {depth : Nat} (enough : remaining.length < depth)
    {store : Store} (keeps : start.Extends store) (identity arrayIdentity : Identity) {state : Value}
    (held : holds remaining state) :
    (applyWithin library depth (.function identity (loop.closure home))
      [.array arrayIdentity remaining, state]).Reaches store final := by
  induction remaining generalizing depth store identity arrayIdentity state with
  | nil =>
      obtain ⟨depth, rfl⟩ := Nat.exists_eq_add_one.2 enough
      rw [applyWithin_function library depth identity rfl]
      refine reaches_invoke (starts.shows.later keeps) fun scope entered _ shows => ?_
      refine starts.reaches_body isWord shows fun later keepsLater => ?_
      have ended := invariant.finish held
      refine reaches_name (shows.later keepsLater) view_state ?_
      rwa [invariant.settled ended]
  | cons first rest ih =>
      obtain ⟨depth, rfl⟩ := Nat.exists_eq_add_one.2 (Nat.zero_lt_of_lt enough)
      rw [applyWithin_function library depth identity rfl]
      refine reaches_invoke (starts.shows.later keeps) fun scope entered keepsEntered shows => ?_
      refine starts.reaches_body isWord shows fun later keepsLater => ?_
      have showsLater := shows.later keepsLater
      have keepsAll := (keeps.trans keepsEntered).trans keepsLater
      -- The loop finds itself through the scope that bound it, around the frame of the round.
      obtain ⟨again, itself⟩ := starts.itself
      refine Run.Reaches.mono ?_ fun value ended => (invariant.settled ended).symm ▸ ended
      refine reaches_call rfl (reaches_name showsLater (view_itself.trans itself) rfl) ?_
      intro middle keepsMiddle
      have shortened : (expression library (applyWithin library depth) scope
          (.call (.identifier "tail") [.identifier "arr"])).Reaches middle
            fun value => ∃ made, value = .array made rest :=
        reaches_builtin_call (showsLater.later keepsMiddle)
          ((view_builtin .tail).trans (starts.free .tail)) (starts.provided .tail) view_array rfl
          fun _ _ => .newArray fun made => ⟨made, rfl⟩
      refine reaches_expressions_cons shortened (by rintro _ ⟨_, rfl⟩ ⟨⟩) ?_
      rintro _ last keepsLast ⟨made, rfl⟩ _
      have deeper : rest.length < depth := Nat.lt_of_succ_lt_succ enough
      obtain ⟨depth, rfl⟩ := Nat.exists_eq_add_one.2 (Nat.zero_lt_of_lt deeper)
      have keepsRound := keepsMiddle.trans keepsLast
      refine reaches_expressions_cons (invariant.round depth arrayIdentity held
        (keepsAll.trans keepsRound) (showsLater.later keepsRound)) ?_ ?_
      · rintro value (⟨passes, _⟩ | ⟨_, ended⟩) interrupts
        · rw [passes] at interrupts
          cases interrupts
        · exact ended
      · rintro value _ _ (⟨_, heldNext⟩ | ⟨interrupts, _⟩) passes
        · refine .pure fun final keepsFinal => ?_
          exact ih (Nat.lt_of_succ_lt isWord) deeper (keepsAll.trans keepsFinal) again made heldNext
        · rw [passes] at interrupts
          cases interrupts

end

end Loop

end Scriptlet
