import Scriptlet.Proofs.Evaluate.Reaching
import Scriptlet.Proofs.Session.Identity

/-!
# Names along a chain of scopes

A history of scopes is a sequence of steps: a scope is opened, at the root or inside a scope that is
there, or a name is given a value in a scope that is there.  Scopes are shared, so values may be
given in any scope at any time, also after others were opened inside it.

Whatever the history, a name has the value that it was given last in the nearest scope, going
outwards, in which it was ever given one.  The search for it ends, since a scope is younger than the
scope around it.
-/

namespace Scriptlet

/-! ## Histories -/

/-- A step in a history of scopes. -/
inductive ScopeStep where
  /-- Opens a scope inside another one, or a root, which has none around it. -/
  | opens (around : Option FrameId)
  /-- Gives a name a value in a scope. -/
  | set (scope : FrameId) (name : String) (value : Value)

namespace ScopeStep

/-- What a step makes of a store. -/
def apply : ScopeStep → Store → Store
  | opens around, store => (store.addFrame [] around).2
  | set scope name value, store => store.bind scope name value

/-- The scope around the one that a step opens, if the step opens one. -/
def opened? : ScopeStep → Option (Option FrameId)
  | opens around => some around
  | set .. => none

/-- The value that a step gives to a name in a scope, if it does. -/
def given? (scope : FrameId) (name : String) : ScopeStep → Option Value
  | opens _ => none
  | set place target value => if place = scope ∧ target = name then some value else none

/-- Whether a step refers to none but the oldest scopes, so many in number. -/
def refersBelow (count : Nat) : ScopeStep → Bool
  | opens around => around.all fun parent => decide (parent < count)
  | set scope _ _ => decide (scope < count)

end ScopeStep

/-- A history of scopes: its steps, newest first. -/
abbrev Scoping := List ScopeStep

namespace Scoping

/-- The scopes around those that were opened, newest first. -/
def opened (history : Scoping) : List (Option FrameId) := history.filterMap ScopeStep.opened?

/-- The values that a name was given in a scope, newest first. -/
def given (history : Scoping) (scope : FrameId) (name : String) : List Value :=
  history.filterMap (ScopeStep.given? scope name)

/-- Whether every step refers to scopes that are there. -/
def isValid : Scoping → Bool
  | [] => true
  | step :: earlier => step.refersBelow (opened earlier).length && isValid earlier

/-- The store at the end of a history. -/
def store (history : Scoping) : Store := history.foldr ScopeStep.apply Store.empty

/-- A scope, the scope around it, and so on outwards, given the scopes around those opened, newest
first. -/
def chain : List (Option FrameId) → FrameId → List FrameId
  | [], _ => []
  | around :: older, scope =>
      if scope = older.length then scope :: around.elim [] (chain older) else chain older scope

/-- The value of a name as seen from a scope: the newest one in the nearest scope that has any. -/
def nearest? (history : Scoping) (scope : FrameId) (name : String) : Option Value :=
  (chain (opened history) scope).findSome? fun place => (given history place name).head?

section Steps

variable (earlier : Scoping) (scope : FrameId) (name : String)

@[simp] theorem store_cons (step : ScopeStep) :
    store (step :: earlier) = step.apply (store earlier) := rfl

@[simp] theorem opened_opens (around : Option FrameId) :
    opened (.opens around :: earlier) = around :: opened earlier := rfl

@[simp] theorem opened_set (value : Value) :
    opened (.set scope name value :: earlier) = opened earlier := rfl

@[simp] theorem given_opens (around : Option FrameId) :
    given (.opens around :: earlier) scope name = given earlier scope name := rfl

@[simp] theorem given_set (place : FrameId) (target : String) (value : Value) :
    given (.set place target value :: earlier) scope name =
      if place = scope ∧ target = name then value :: given earlier scope name
      else given earlier scope name := by
  by_cases same : place = scope ∧ target = name <;> simp [given, ScopeStep.given?, same]

theorem isValid_cons_iff {step : ScopeStep} {earlier : Scoping} :
    isValid (step :: earlier) = true ↔
      step.refersBelow (opened earlier).length = true ∧ isValid earlier = true := by
  simp [isValid]

end Steps

variable {history : Scoping} {scope : FrameId} {name : String}

/-- A store has one frame for each scope that was opened. -/
@[simp] theorem size_store (history : Scoping) :
    (store history).frames.size = (opened history).length := by
  induction history with
  | nil => rfl
  | cons step earlier ih =>
      cases step <;> simp [ScopeStep.apply, Store.addFrame, Store.bind, ih]

/-- No value is given in a scope that is not there. -/
theorem given_eq_nil (valid : isValid history = true) (absent : (opened history).length ≤ scope)
    (name : String) : given history scope name = [] := by
  induction history with
  | nil => rfl
  | cons step earlier ih =>
      obtain ⟨refers, earlierValid⟩ := isValid_cons_iff.1 valid
      cases step with
      | opens around => exact ih earlierValid (Nat.le_of_succ_le absent)
      | set place target value =>
          have elsewhere : place ≠ scope := by
            rintro rfl
            exact Nat.not_lt.2 absent (of_decide_eq_true refers)
          simpa [elsewhere] using ih earlierValid absent

/-! ## The frames of a history -/

/-- What a frame holds that stands for a scope at the end of a history. -/
structure Stands (history : Scoping) (scope : FrameId) (frame : Frame) : Prop where
  chain : chain (opened history) scope = scope :: frame.parent.elim [] (chain (opened history))
  older : ∀ parent, frame.parent = some parent → parent < scope
  find? : ∀ name, frame.find? name = (given history scope name).head?

theorem chain_of_lt (around : Option FrameId) {older : List (Option FrameId)}
    (inside : scope < older.length) : chain (around :: older) scope = chain older scope := by
  simp [chain, Nat.ne_of_lt inside]

/-- The frame of a new scope stands for it. -/
theorem stands_new {around : Option FrameId} (valid : isValid (.opens around :: history) = true) :
    Stands (.opens around :: history) (opened history).length ⟨[], around⟩ := by
  obtain ⟨refers, earlierValid⟩ := isValid_cons_iff.1 valid
  refine ⟨?_, ?_, fun name => ?_⟩
  · cases around with
    | none => simp [chain]
    | some parent =>
        have inside : parent < (opened history).length := by
          simpa [ScopeStep.refersBelow] using refers
        simp [chain, Nat.ne_of_lt inside]
  · rintro parent rfl
    simpa [ScopeStep.refersBelow] using refers
  · simp [Frame.find?, given_eq_nil earlierValid]

namespace Stands

variable {frame : Frame}

/-- A new scope does not change what a frame stands for. -/
theorem opens (stands : Stands history scope frame) (inside : scope < (opened history).length)
    (around : Option FrameId) : Stands (.opens around :: history) scope frame where
  chain := by
    rw [opened_opens, chain_of_lt around inside, stands.chain]
    cases enclosed : frame.parent with
    | none => rfl
    | some parent =>
        have parentInside := Nat.lt_trans (stands.older parent enclosed) inside
        simp [chain_of_lt around parentInside]
  older := stands.older
  find? := stands.find?

/-- A frame goes on to stand for its scope if it takes up the values given in it. -/
theorem set (stands : Stands history scope frame) (place : FrameId) (target : String)
    (value : Value) :
    Stands (.set place target value :: history) scope
      (if place = scope then frame.bind target value else frame) := by
  by_cases same : place = scope
  · subst same
    refine ⟨by simpa using stands.chain, by simpa using stands.older, fun name => ?_⟩
    by_cases equal : target = name
    · simp [equal]
    · simp [equal, Ne.symm equal, stands.find?]
  · simpa [same] using ⟨stands.chain, stands.older, fun name => by simp [same, stands.find?]⟩

end Stands

/-- At the end of a history, a frame stands for each scope that was opened. -/
theorem exists_stands (valid : isValid history = true) (inside : scope < (opened history).length) :
    ∃ frame, (store history).frames[scope]? = some frame ∧ Stands history scope frame := by
  induction history generalizing scope with
  | nil => cases inside
  | cons step earlier ih =>
      have earlierValid := (isValid_cons_iff.1 valid).2
      rw [store_cons]
      cases step with
      | opens around =>
          rw [opened_opens, List.length_cons, Nat.lt_succ_iff] at inside
          rcases Nat.lt_or_eq_of_le inside with old | rfl
          · obtain ⟨frame, found, stands⟩ := ih earlierValid old
            refine ⟨frame, ?_, stands.opens old around⟩
            simp [ScopeStep.apply, Store.addFrame, Array.getElem?_push, Nat.ne_of_lt old, found]
          · refine ⟨⟨[], around⟩, ?_, stands_new valid⟩
            rw [ScopeStep.apply, Store.addFrame, ← size_store, Array.getElem?_push_size]
      | set place target value =>
          obtain ⟨frame, found, stands⟩ := ih earlierValid inside
          refine ⟨_, ?_, stands.set place target value⟩
          by_cases same : place = scope <;>
            simp [ScopeStep.apply, Store.bind, Array.getElem?_modify, same, found]

end Scoping

/-! ## The search for a name -/

/-- The search for a name from a scope outwards, with its answer.  It ends where the name is found
and where there is no scope around, and goes on outwards else. -/
inductive Store.Search (store : Store) (name : String) : FrameId → Option Value → Prop
  | found {scope frame value} (here : store.frames[scope]? = some frame)
      (own : frame.find? name = some value) : Search store name scope (some value)
  | outermost {scope frame} (here : store.frames[scope]? = some frame)
      (missing : frame.find? name = none) (alone : frame.parent = none) :
      Search store name scope none
  | outwards {scope frame parent answer} (here : store.frames[scope]? = some frame)
      (missing : frame.find? name = none) (enclosed : frame.parent = some parent)
      (search : Search store name parent answer) : Search store name scope answer

namespace Scoping

variable {history other : Scoping} {scope : FrameId} {name : String}

/-- The search ends with the newest value in the nearest scope that has any, and so does looking the
name up. -/
theorem search_nearest? (valid : isValid history = true)
    (inside : scope < (opened history).length) (name : String) :
    (store history).Search name scope (nearest? history scope name) ∧
      (store history).lookup scope name = nearest? history scope name := by
  induction scope using Nat.strongRecOn with
  | _ scope ih =>
      obtain ⟨frame, here, stands⟩ := exists_stands valid inside
      have nearestEq : nearest? history scope name =
          (frame.find? name).or (frame.parent.bind fun parent => nearest? history parent name) := by
        unfold nearest?
        rw [stands.chain, List.findSome?_cons, stands.find? name]
        cases frame.parent <;> cases (given history scope name).head? <;> rfl
      rw [nearestEq, Store.lookup_eq here]
      cases own : frame.find? name with
      | some value => exact ⟨.found here own, rfl⟩
      | none =>
          cases enclosed : frame.parent with
          | none => exact ⟨.outermost here own enclosed, rfl⟩
          | some parent =>
              have older := stands.older parent enclosed
              obtain ⟨search, found⟩ := ih parent older (Nat.lt_trans older inside)
              refine ⟨.outwards here own enclosed search, ?_⟩
              simp [older, found]

/-! ## What does not matter to a name -/

/-- Two histories agree on a name if they open the same scopes and give the same newest value in
each scope of the chain that no nearer one shadows. -/
theorem nearest?_congr (sameScopes : opened other = opened history)
    (agree : ∀ nearer place outer, chain (opened history) scope = nearer ++ place :: outer →
      (∀ near ∈ nearer, given history near name = []) →
        (given other place name).head? = (given history place name).head?) :
    nearest? other scope name = nearest? history scope name := by
  unfold nearest?
  rw [sameScopes]
  generalize chain (opened history) scope = places at agree
  induction places with
  | nil => rfl
  | cons place outer ih =>
      rw [List.findSome?_cons, List.findSome?_cons, agree [] place outer rfl nofun]
      cases here : (given history place name).head? with
      | some value => rfl
      | none =>
          apply ih
          intro nearer further beyond split unset
          apply agree (place :: nearer) further beyond (by rw [split, List.cons_append])
          simpa [List.head?_eq_none_iff.1 here] using unset

section Removed

variable {later earlier : Scoping} {place : FrameId} {target : String} {value : Value}

theorem opened_remove :
    opened (later ++ earlier) = opened (later ++ .set place target value :: earlier) := by
  simp [opened, List.filterMap_cons, ScopeStep.opened?]

theorem given_remove (different : ¬ (place = scope ∧ target = name)) :
    given (later ++ earlier) scope name =
      given (later ++ .set place target value :: earlier) scope name := by
  simp [given, ScopeStep.given?, different]

theorem isValid_remove (valid : isValid (later ++ .set place target value :: earlier) = true) :
    isValid (later ++ earlier) = true := by
  induction later with
  | nil => exact (isValid_cons_iff.1 valid).2
  | cons step later ih =>
      rw [List.cons_append, isValid_cons_iff, ← opened_remove] at valid
      exact isValid_cons_iff.2 ⟨valid.1, ih valid.2⟩

/-- A value that cannot be seen from a scope might as well not have been given. -/
theorem lookup_remove (valid : isValid (later ++ .set place target value :: earlier) = true)
    (inside : scope < (opened (later ++ .set place target value :: earlier)).length)
    (unseen : ∀ nearer outer,
      chain (opened (later ++ .set place target value :: earlier)) scope =
          nearer ++ place :: outer →
        ∃ near ∈ nearer, given (later ++ .set place target value :: earlier) near name ≠ []) :
    (store (later ++ earlier)).lookup scope name =
      (store (later ++ .set place target value :: earlier)).lookup scope name := by
  rw [(search_nearest? valid inside name).2,
    (search_nearest? (isValid_remove valid) (by rwa [opened_remove]) name).2]
  apply nearest?_congr opened_remove
  intro nearer seen outer split unset
  rw [given_remove]
  rintro ⟨rfl, _⟩
  obtain ⟨near, member, isSet⟩ := unseen nearer outer split
  exact isSet (unset near member)

end Removed

theorem lt_of_mem_chain {scopes : List (Option FrameId)} {place : FrameId}
    (member : place ∈ chain scopes scope) : place < scopes.length := by
  induction scopes generalizing scope with
  | nil => cases member
  | cons around older ih =>
      apply Nat.lt_succ_of_le
      rw [chain] at member
      split at member
      · next newest =>
          rcases List.mem_cons.1 member with rfl | further
          · exact Nat.le_of_eq newest
          · cases around with
            | none => cases further
            | some parent => exact Nat.le_of_lt (ih further)
      · exact Nat.le_of_lt (ih member)

/-- No scope lies around itself. -/
theorem nodup_chain (scopes : List (Option FrameId)) (scope : FrameId) :
    (chain scopes scope).Nodup := by
  induction scopes generalizing scope with
  | nil => exact List.nodup_nil
  | cons around older ih =>
      rw [chain]
      split
      · next newest =>
          cases around with
          | none => exact List.nodup_singleton scope
          | some parent =>
              refine List.nodup_cons.2 ⟨fun member => ?_, ih parent⟩
              exact Nat.lt_irrefl _ (newest ▸ lt_of_mem_chain member)
      · exact ih scope

/-- The chain of a scope meets a place once, so there is one way to split it there. -/
theorem nearer_unique {scopes : List (Option FrameId)} {place : FrameId}
    {nearer outer nearerToo outerToo : List FrameId}
    (split : chain scopes scope = nearer ++ place :: outer)
    (splitToo : chain scopes scope = nearerToo ++ place :: outerToo) : nearer = nearerToo := by
  have once := nodup_chain scopes scope
  rw [split, List.nodup_middle, List.nodup_cons, List.mem_append, not_or] at once
  rw [split] at splitToo
  exact ((List.append_cons_inj_of_notMem once.1.1 once.1.2).1 splitToo).1

end Scoping

/-! ## Scopes of calls -/

/-- Giving a name a value in the newest frame is the same as having opened it with that value. -/
theorem Store.bind_newest (store : Store) (bindings : List (String × Value))
    (parent : Option FrameId) (name : String) (value : Value) :
    (store.addFrame bindings parent).2.bind store.frames.size name value =
      (store.addFrame ((name, value) :: bindings) parent).2 := by
  have modified : (store.frames.push ⟨bindings, parent⟩).modify store.frames.size
      (·.bind name value) = store.frames.push ⟨(name, value) :: bindings, parent⟩ := by
    apply Array.ext
    · simp
    · intro index _ inBounds
      rw [Array.size_push, Nat.lt_succ_iff] at inBounds
      rcases Nat.lt_or_eq_of_le inBounds with old | rfl
      · simp [Array.getElem_modify, Array.getElem_push, old, Nat.ne_of_gt old]
      · simp [Array.getElem_modify, Frame.bind]
  simp [Store.bind, Store.addFrame, modified]

namespace Scoping

/-- The steps of entering a function, newest first: a scope is opened inside the one that the
function captured, and the parameters are given their arguments in order. -/
def entering (scope : FrameId) (closure : Closure) (arguments : List Value) : Scoping :=
  ((closure.parameters.zip arguments).map fun pair => ScopeStep.set scope pair.1 pair.2).reverse ++
    [.opens (some closure.scope)]

/-- The store in which the body of a function runs. -/
def entered (store : Store) (closure : Closure) (arguments : List Value) : Store :=
  (entering store.frames.size closure arguments).foldr ScopeStep.apply store

/-- Entering a function opens a frame that binds its parameters, the last one as the newest. -/
theorem entered_eq_addFrame (store : Store) (closure : Closure) (arguments : List Value) :
    entered store closure arguments =
      (store.addFrame (closure.parameters.zip arguments).reverse (some closure.scope)).2 := by
  have bindAll (pairs bindings : List (String × Value)) :
      pairs.foldl (fun after pair => after.bind store.frames.size pair.1 pair.2)
          (store.addFrame bindings (some closure.scope)).2 =
        (store.addFrame (pairs.reverse ++ bindings) (some closure.scope)).2 := by
    induction pairs generalizing bindings with
    | nil => rfl
    | cons pair others ih => simp [Store.bind_newest, ih]
  have bound := bindAll (closure.parameters.zip arguments) []
  rw [List.append_nil] at bound
  rw [entered, entering, List.foldr_append, List.foldr_reverse, List.foldl_map]
  exact bound

/-- What a call does to scopes. -/
structure CallLaws (library : Library) (apply : Evaluate.Applier) (closure : Closure)
    (arguments : List Value) (store : Store) : Prop where
  /-- The body of a function runs in the scope that the steps of entering it open. -/
  runs : Evaluate.invoke library apply closure arguments store =
    (do
      let result ← Evaluate.block library apply store.frames.size .null closure.body
      return result.settled : Run Value) (entered store closure arguments)
  /-- There, a parameter stands for the argument of its last occurrence, whatever the scopes around
  bind. -/
  passed : ∀ before name behind argumentsBefore argument argumentsBehind,
    closure.parameters = before ++ name :: behind →
    arguments = argumentsBefore ++ argument :: argumentsBehind →
    before.length = argumentsBefore.length → name ∉ behind →
      (entered store closure arguments).lookup store.frames.size name = some argument

theorem callLaws (library : Library) (apply : Evaluate.Applier) (closure : Closure)
    (arguments : List Value) (store : Store) :
    CallLaws library apply closure arguments store where
  runs := by
    rw [entered_eq_addFrame]
    rfl
  passed := by
    rintro before name behind argumentsBefore argument argumentsBehind split rfl aligned last
    rw [entered_eq_addFrame, split]
    exact Store.lookup_addFrame store (Frame.lookup_parameters aligned last) _

/-! ## The laws of names -/

/-- What a name stands for in a scope at the end of a history. -/
structure NameLaws (history : Scoping) (scope : FrameId) (name : String) : Prop where
  /-- The search outwards ends, with the newest value in the nearest scope that has any. -/
  ends : (store history).Search name scope (nearest? history scope name)
  /-- Looking the name up gives the answer of the search. -/
  found : (store history).lookup scope name = nearest? history scope name
  /-- A name that was given null last is not missing. -/
  null : (given history scope name).head? = some .null →
    (store history).lookup scope name = some .null
  /-- Values given off the chain do not matter. -/
  offChain : ∀ later place target value earlier,
    history = later ++ .set place target value :: earlier →
    place ∉ chain (opened history) scope →
      (store (later ++ earlier)).lookup scope name = (store history).lookup scope name
  /-- Values given further out do not matter where a nearer scope has the name, whenever it got
  it. -/
  shadowed : ∀ later place target value earlier nearer outer near,
    history = later ++ .set place target value :: earlier →
    chain (opened history) scope = nearer ++ place :: outer →
    near ∈ nearer → given history near name ≠ [] →
      (store (later ++ earlier)).lookup scope name = (store history).lookup scope name
  /-- The order in which different scopes and names were given values does not matter. -/
  reordered : ∀ other, isValid other = true → opened other = opened history →
    (∀ place target, given other place target = given history place target) →
      (store other).lookup scope name = (store history).lookup scope name

variable {history : Scoping} {scope : FrameId}

/-- At the end of every history of scopes, a name stands for the value that it was given last in
the nearest scope, going outwards, in which it was ever given one, and for nothing if there is none;
what was given elsewhere or out of sight, and in which order, does not matter.  A call opens its
scope and binds its parameters by such steps. -/
theorem names_of_history (valid : isValid history = true)
    (inside : scope < (opened history).length) (name : String) :
    NameLaws history scope name ∧
      ∀ library apply closure arguments store,
        CallLaws library apply closure arguments store := by
  obtain ⟨ends, found⟩ := search_nearest? valid inside name
  refine ⟨⟨ends, found, ?_, ?_, ?_, ?_⟩, callLaws⟩
  · intro isNull
    obtain ⟨frame, _, stands⟩ := exists_stands valid inside
    rw [found, nearest?, stands.chain, List.findSome?_cons, isNull]
  · rintro later place target value earlier rfl off
    apply lookup_remove valid inside
    intro nearer outer onChain
    exact absurd (onChain ▸ List.mem_append_right nearer List.mem_cons_self) off
  · rintro later place target value earlier nearer outer near rfl onChain member isSet
    apply lookup_remove valid inside
    intro nearerToo outerToo onChainToo
    exact ⟨near, nearer_unique onChain onChainToo ▸ member, isSet⟩
  · intro other otherValid sameScopes sameValues
    rw [found, (search_nearest? otherValid (by rwa [sameScopes]) name).2]
    apply nearest?_congr sameScopes
    intro nearer place outer _ _
    rw [sameValues]

/-- Three scopes inside each other and a root apart from them; the two outer ones are given values
after the innermost one was opened. -/
def sample : Scoping :=
  [.set 0 "x" (.integer 3), .set 3 "x" (.integer 9), .set 1 "x" .null, .opens none,
    .opens (some 1), .opens (some 0), .set 0 "x" (.integer 1), .opens none]

/-- The steps of the sample with two values in the other order. -/
def swappedSample : Scoping :=
  [.set 0 "x" (.integer 3), .set 1 "x" .null, .set 3 "x" (.integer 9), .opens none,
    .opens (some 1), .opens (some 0), .set 0 "x" (.integer 1), .opens none]

/-- A function with a parameter named twice. -/
def twiceNamed : Closure := ⟨["x", "y", "x"], [], 2⟩

theorem names_of_history_sample :
    chain (opened sample) 2 = [2, 1, 0] ∧
      (store sample).lookup 2 "x" = some .null ∧ (store sample).lookup 1 "x" = some .null ∧
      (store sample).lookup 2 "y" = none ∧
      (store (sample.eraseIdx 1)).lookup 2 "x" = (store sample).lookup 2 "x" ∧
      (store sample.tail).lookup 2 "x" = (store sample).lookup 2 "x" ∧
      (store swappedSample).lookup 2 "x" = (store sample).lookup 2 "x" ∧
      (entered (store sample) twiceNamed [.integer 5, .integer 6, .integer 7]).lookup 4 "x" =
        some (.integer 7) := by
  obtain ⟨laws, calls⟩ := @names_of_history sample 2 (by decide) (by decide) "x"
  refine ⟨by decide, laws.found, ?_, ?_, ?_, ?_, ?_, ?_⟩
  · exact (@names_of_history sample 1 (by decide) (by decide) "x").1.null rfl
  · exact (@names_of_history sample 2 (by decide) (by decide) "y").1.found
  · exact laws.offChain [.set 0 "x" (.integer 3)] 3 "x" (.integer 9) _ rfl (by decide)
  · exact laws.shadowed [] 0 "x" (.integer 3) _ [2, 1] [] 1 rfl (by decide) (by decide) nofun
  · refine laws.reordered swappedSample (by decide) rfl fun place target => ?_
    simp only [sample, swappedSample, given_set]
    grind
  · exact (calls Library.standard (Evaluate.applyWithin Library.standard 0) twiceNamed
      [.integer 5, .integer 6, .integer 7] (store sample)).passed ["x", "y"] "x" []
        [.integer 5, .integer 6] (.integer 7) [] rfl rfl rfl nofun

end Scoping

end Scriptlet
