import Scriptlet.Proofs.Evaluate.Accounting
import Scriptlet.Proofs.Evaluate.Purity

/-!
# Identity and persistence of composites

The history of a session is the list of all moments of all programs run in it, the one under way
included.  In it, a composite is never changed: whatever carries one identity is one and the same
value, at every moment.  Literals and the builtins that make arrays yield identities that nothing
carried before; names, parameters, indexing and the other builtins hand on what is there.  So the
comparison of composites by identity is right: equal identities mean equal contents.
-/

namespace Scriptlet

open Evaluate

/-- What an index stands for in a collection: the element at a position, counted from zero, or the
value of the one entry with a key; and null where there is none. -/
inductive Value.Selects : Value → Value → Value → Prop
  | element {identity : Identity} {elements : List Value} {position : Int64} {element : Value}
      (notNegative : 0 ≤ position.toInt)
      (there : elements[position.toInt.toNat]? = some element) :
      Selects (.array identity elements) (.integer position) element
  | noElement {identity : Identity} {elements : List Value} {position : Int64}
      (outside : position.toInt < 0 ∨ elements.length ≤ position.toInt) :
      Selects (.array identity elements) (.integer position) .null
  | entry {identity : Identity} {entries : List (Key × Value)} {key : Key} {value : Value}
      (only : ∀ other, (key, other) ∈ entries ↔ other = value) :
      Selects (.dictionary identity entries) (.ofKey key) value
  | noEntry {identity : Identity} {entries : List (Key × Value)} {key : Key}
      (missing : ∀ value, (key, value) ∉ entries) :
      Selects (.dictionary identity entries) (.ofKey key) .null

namespace Session

/-- The moments of running a source text in a session: none if the text is rejected. -/
def moments (session : Session) (depth : Nat) (source : String) : List Moment :=
  match Program.ofSource source with
  | .error _ => []
  | .ok tree =>
      Activation.moments session.library ⟨.program session.root tree, depth, session.store⟩

/-- The sessions that arise from a new one by running source texts that end, with all moments of
these runs. -/
inductive History (library : Library) : Session → List Moment → Prop
  | start : History library (Session.start library) []
  | run {session next : Session} {past : List Moment} {depth : Nat} {source : String}
      {outcome : Except SourceError Value} (reached : History library session past)
      (ended : session.run depth source = some (outcome, next)) :
      History library next (past ++ session.moments depth source)

/-- What a history says about the identities of composites. -/
structure IdentityLaws (library : Library) (history : List Moment) : Prop where
  /-- What carries one identity has one content, at all moments. -/
  contents : ∀ moment ∈ history, ∀ other ∈ history, ∀ identity composite another,
    (identity, composite) ∈ moment.composites → (identity, another) ∈ other.composites →
      composite = another
  /-- A literal and a builtin that makes an array yield an identity that nothing carried before. -/
  fresh : ∀ earlier activation result after later,
    history = earlier ++ .ended activation result after :: later →
    activation.task.makes = true → result.interrupts = false →
      ∃ identity, result.identity? = some identity ∧
        ∀ moment ∈ earlier, ∀ composite, (identity, composite) ∉ moment.composites
  /-- After a binding, the name stands for the very value of its expression. -/
  bound : ∀ scope name expr depth store result after,
    .ended ⟨.statement scope (.bind name expr), depth, store⟩ result after ∈ history →
    result.interrupts = false →
      ∃ value middle,
        Activation.Passes library ⟨.expression scope expr, depth, store⟩ value middle ∧
        after.lookup scope name = some value
  /-- A name that is bound yields the very value it is bound to. -/
  named : ∀ scope name depth store result after value,
    .ended ⟨.expression scope (.identifier name), depth, store⟩ result after ∈ history →
    store.lookup scope name = some value → result = value
  /-- In the body of a function, a parameter stands for the very argument; the last one counts if
  several parameters have one name. -/
  passed : ∀ identity closure arguments depth store,
    .started ⟨.application (.function identity closure) arguments, depth + 1, store⟩ ∈ history →
    closure.parameters.length = arguments.length →
      ∃ scope entered, .started ⟨.block scope closure.body, depth, entered⟩ ∈ history ∧
        ∀ before name behind argumentsBefore argument argumentsBehind,
          closure.parameters = before ++ name :: behind →
          arguments = argumentsBefore ++ argument :: argumentsBehind →
          before.length = argumentsBefore.length → name ∉ behind →
            entered.lookup scope name = some argument
  /-- Indexing yields the very element at a position or the very value of an entry. -/
  indexed : ∀ scope collection position depth store result after,
    .ended ⟨.expression scope (.index collection position), depth, store⟩ result after ∈ history →
    result.interrupts = false →
      ∃ value middle index,
        Activation.Passes library ⟨.expression scope collection, depth, store⟩ value middle ∧
        Activation.Passes library ⟨.expression scope position, depth, middle⟩ index after ∧
        value.Selects index result
  /-- The builtins `first` and `last` yield the very element. -/
  first : ∀ name identity elements depth store result after,
    .ended ⟨.application (.builtin name .first) [.array identity elements], depth, store⟩
      result after ∈ history → result = elements.head?.getD .null ∧ after = store
  last : ∀ name identity elements depth store result after,
    .ended ⟨.application (.builtin name .last) [.array identity elements], depth, store⟩
      result after ∈ history → result = elements.getLast?.getD .null ∧ after = store
  /-- Composites of one type are equal for the language exactly if they carry one identity, and then
  they have equal contents. -/
  compared : ∀ activation result after op left right identity other,
    .ended activation result after ∈ history →
    activation.Performs library (.binary op left right) → left.type = right.type →
    left.identity? = some identity → right.identity? = some other →
      (op = .equal → result = .boolean (decide (identity = other))) ∧
      (op = .notEqual → result = .boolean (!decide (identity = other))) ∧
      (identity = other → left = right ∧ left.equals right = true)

end Session

/-! ## One ledger for a session -/

namespace Session

variable {library : Library} {session : Session} {past : List Moment}

theorem History.library_eq (reached : History library session past) :
    session.library = library := by
  induction reached with
  | start => rfl
  | @run session next past depth source outcome _ ended ih =>
      rcases eq_or_runProgram_of_run ended with rfl | ⟨program, value, ran, _⟩
      · exact ih
      · obtain ⟨⟨result, store⟩, _, resultEq⟩ := Option.map_eq_some_iff.1 ran
        cases resultEq
        exact ih

/-- One ledger accounts for the whole past of a session. -/
structure Kept (ledger : Ledger) (session : Session) (past : List Moment) : Prop where
  store : session.store.Filed ledger
  moments : ∀ moment ∈ past, moment.Filed ledger ∧
    moment.store.nextIdentity ≤ session.store.nextIdentity
  ordered : past.Pairwise fun earlier later => later.NotBefore earlier.store.nextIdentity

/-- A run goes on with the ledger of the past. -/
theorem Kept.accounts {ledger : Ledger} (kept : Kept ledger session past) (depth : Nat)
    (source : String) :
    Accounts ledger session.store.nextIdentity (session.moments depth source) := by
  unfold Session.moments
  split
  · exact .nil
  · next tree _ =>
      have startFiled : (Moment.started
          ⟨.program session.root tree, depth, session.store⟩).Filed ledger := ⟨kept.store, nofun⟩
      exact Activation.accounted _ _ ledger startFiled

/-- One ledger accounts for the past and a run. -/
theorem Kept.whole {ledger : Ledger} (kept : Kept ledger session past) (depth : Nat)
    (source : String) : Accounts ledger 0 (past ++ session.moments depth source) := by
  refine Accounts.append (fun _ _ => rfl) (Nat.zero_le _) ?_ kept.ordered
    (fun moment member => (kept.moments moment member).2) (kept.accounts depth source)
  intro moment member
  exact ⟨⟨Nat.zero_le _, fun _ _ => Nat.zero_le _⟩, (kept.moments moment member).1⟩

theorem History.kept (reached : History library session past) :
    ∃ ledger, Kept ledger session past := by
  induction reached with
  | start =>
      refine ⟨fun _ => .null, ?_, nofun, .nil⟩
      intro frame frameMember binding member
      cases Array.mem_singleton.1 frameMember
      cases member
  | @run session next past depth source outcome _ ended ih =>
      obtain ⟨ledger, kept⟩ := ih
      obtain ⟨final, _, wholeFiled, wholeOrdered⟩ := kept.whole depth source
      obtain ⟨_, _, runFiled, runOrdered⟩ := kept.accounts depth source
      cases parsed : Program.ofSource source with
      | error error =>
          have none : session.moments depth source = [] := by rw [Session.moments, parsed]
          rw [Session.run, parsed] at ended
          cases ended
          rw [none, List.append_nil]
          exact ⟨ledger, kept⟩
      | ok tree =>
          have all : session.moments depth source = Activation.moments session.library
              ⟨.program session.root tree, depth, session.store⟩ := by
            rw [Session.moments, parsed]
          rw [Session.run, parsed] at ended
          obtain ⟨⟨value, _⟩, ran, resultEq⟩ := Option.map_eq_some_iff.1 ended
          cases resultEq
          rw [all] at runOrdered runFiled wholeFiled wholeOrdered ⊢
          obtain ⟨lastMember, notAfter⟩ :=
            Accounts.moments_of_run runOrdered (run_of_runProgram ran)
          have lastFiled := (wholeFiled _ (List.mem_append_right _ lastMember)).2
          refine ⟨final, lastFiled.store, ?_, wholeOrdered⟩
          intro moment member
          refine ⟨(wholeFiled moment member).2, ?_⟩
          rcases List.mem_append.1 member with inPast | inRun
          · exact Nat.le_trans (kept.moments moment inPast).2 (runFiled _ lastMember).1.store
          · exact notAfter moment inRun

/-! ## What the moments of a history belong to -/

/-- The activation whose start or end a moment is. -/
def activationOf : Moment → Activation
  | .started activation => activation
  | .ended activation _ _ => activation

/-- Every moment of a history comes with its whole evaluation, which refers only to what its store
has given out. -/
def Rooted (library : Library) (history : List Moment) : Prop :=
  ∀ moment ∈ history, ∃ root : Activation, root.Closed ∧ moment ∈ root.moments library ∧
    ∀ other ∈ root.moments library, other ∈ history

theorem Rooted.append {history more : List Moment} (rooted : Rooted library history)
    (rootedMore : Rooted library more) : Rooted library (history ++ more) := by
  intro moment member
  rcases List.mem_append.1 member with member | member
  · obtain ⟨root, closed, within, all⟩ := rooted moment member
    exact ⟨root, closed, within, fun other inside => List.mem_append_left _ (all other inside)⟩
  · obtain ⟨root, closed, within, all⟩ := rootedMore moment member
    exact ⟨root, closed, within, fun other inside => List.mem_append_right _ (all other inside)⟩

theorem rooted_moments (reached : session.Reachable library) (depth : Nat) (source : String) :
    Rooted session.library (session.moments depth source) := by
  unfold moments
  split
  · exact nofun
  · next tree _ =>
      intro moment member
      exact ⟨_, closed_of_reachable reached tree depth, member, fun _ => id⟩

theorem History.reachable (reached : History library session past) : session.Reachable library := by
  induction reached with
  | start => exact .start
  | run _ ended ih => exact .run ih ended

theorem History.rooted (reached : History library session past) : Rooted library past := by
  induction reached with
  | start => exact nofun
  | @run session next past depth source outcome reached ended ih =>
      have rootedRun := rooted_moments reached.reachable depth source
      rw [reached.library_eq] at rootedRun
      exact ih.append rootedRun

variable {history : List Moment} {activation : Activation} {result : Value} {after : Store}

theorem Rooted.within (rooted : Rooted library history) {moment : Moment}
    (member : moment ∈ history) :
    (activationOf moment).Closed ∧
      (∀ other ∈ (activationOf moment).moments library, other ∈ history) ∧
      ∀ result after, moment = .ended (activationOf moment) result after →
        (activationOf moment).run library = some (result, after) := by
  obtain ⟨root, closed, inRoot, all⟩ := rooted moment member
  obtain ⟨inner, within, shown⟩ := Activation.mem_moments_iff.1 inRoot
  have innerAll : ∀ other ∈ inner.moments library, other ∈ history := by
    intro other inside
    obtain ⟨further, deeper, shown⟩ := Activation.mem_moments_iff.1 inside
    exact all other (Activation.mem_moments_iff.2 ⟨further, within.trans deeper, shown⟩)
  rcases shown with rfl | shown
  · exact ⟨closed.of_within within, innerAll, nofun⟩
  · obtain ⟨value, store, ended, rfl⟩ := Activation.mem_ending_iff.1 shown
    refine ⟨closed.of_within within, innerAll, ?_⟩
    rintro result after ⟨⟩
    exact ended

theorem Rooted.run (rooted : Rooted library history)
    (member : .ended activation result after ∈ history) :
    activation.run library = some (result, after) :=
  (rooted.within member).2.2 result after rfl

/-- The result of a part is at hand at a moment of the history. -/
theorem Rooted.passed (rooted : Rooted library history)
    (member : .ended activation result after ∈ history) {child : Activation} {value : Value}
    {last : Store} (calls : Activation.Calls library activation child)
    (passed : child.Passes library value last) : .ended child value last ∈ history := by
  refine (rooted.within member).2.1 _ (Activation.mem_moments_iff.2 ⟨child, .single calls, .inr ?_⟩)
  exact Activation.mem_ending_iff.2 ⟨value, last, passed.1, rfl⟩

end Session

/-! ## What is handed on -/

theorem Store.lookup_bind {store : Store} {scope : FrameId} (inStore : scope < store.frames.size)
    (name : String) (value : Value) :
    (store.bind scope name value).lookup scope name = some value := by
  have found : (store.bind scope name value).frames[scope]? =
      some ((store.frames[scope]).bind name value) := by
    simp [Store.bind, Array.getElem_modify, inStore]
  rw [Store.lookup, found]
  simp

theorem Store.lookup_addFrame (store : Store) {bindings : List (String × Value)} {name : String}
    {value : Value} (found : bindings.lookup name = some value) (parent : Option FrameId) :
    (store.addFrame bindings parent).2.lookup store.frames.size name = some value := by
  rw [Store.lookup]
  simp [Store.addFrame, Frame.find?, found]

/-- A store that refers to a frame has it. -/
theorem Store.Supports.inStore {store : Store} {scope : FrameId}
    (supports : store.Supports fun naming => naming.frame scope = scope) :
    scope < store.frames.size := by
  -- Moving all that the store has not given out moves no frame that it refers to.
  have fixed := (supports _ (Renaming.shift_fixes store
    ⟨store.frames.push ⟨[], none⟩, store.nextIdentity⟩)).2
  by_contra outside
  change Renaming.raise _ _ scope = scope at fixed
  rw [Renaming.raise, if_neg outside, Array.size_push] at fixed
  omega

theorem Value.selects_elementAt (identity : Identity) (elements : List Value) (position : Int64) :
    (Value.array identity elements).Selects (.integer position)
      (Value.elementAt elements position) := by
  have isNegative : position < 0 ↔ position.toInt < 0 := Int64.lt_iff_toInt_lt
  by_cases negative : position < 0
  · rw [Value.elementAt, if_pos negative]
    exact .noElement (.inl (isNegative.1 negative))
  · rw [Value.elementAt, if_neg negative]
    rw [isNegative, Int.not_lt] at negative
    cases there : elements[position.toInt.toNat]? with
    | some element => exact .element negative there
    | none =>
        have outside := List.getElem?_eq_none_iff.1 there
        exact .noElement (.inr (Int.le_toNat negative |>.1 outside))

theorem Value.selects_find? (identity : Identity) {entries : Entries Value}
    (distinct : entries.keys.Nodup) (key : Key) :
    (Value.dictionary identity entries).Selects (.ofKey key)
      ((entries.find? key).getD .null) := by
  cases found : entries.find? key with
  | some value =>
      refine .entry fun other => ⟨fun member => ?_, ?_⟩
      · rw [Entries.find?_of_mem distinct member] at found
        exact Option.some.inj found
      · rintro rfl
        exact Entries.mem_of_find? found
  | none =>
      refine .noEntry fun value member => ?_
      rw [Entries.find?_of_mem distinct member] at found
      cases found

/-- Indexing yields what the index stands for, unless the collection has no such indices. -/
theorem Value.selects_atIndex {collection index : Value}
    (distinct : collection.hasDistinctKeys = true)
    (handed : (collection.atIndex index).interrupts = false) :
    collection.Selects index (collection.atIndex index) := by
  cases collection with
  | array identity elements =>
      cases index with
      | integer position => exact Value.selects_elementAt identity elements position
      | _ => cases handed
  | dictionary identity entries =>
      rw [Value.hasDistinctKeys, Bool.and_eq_true, decide_eq_true_eq] at distinct
      cases usable : index.key? with
      | some key =>
          rw [Value.atIndex, usable, ← Value.ofKey_of_key? usable]
          exact Value.selects_find? identity distinct.1 key
      | none =>
          rw [Value.atIndex, usable] at handed
          cases handed
  | _ => cases handed

/-- The newest binding of a parameter is that of the last argument for it. -/
theorem Frame.lookup_parameters {before behind : List String} {name : String}
    {valuesBefore valuesBehind : List Value} {value : Value}
    (aligned : before.length = valuesBefore.length) (last : name ∉ behind) :
    ((before ++ name :: behind).zip (valuesBefore ++ value :: valuesBehind)).reverse.lookup name =
      some value := by
  have notBehind : (behind.zip valuesBehind).reverse.lookup name = none := by
    rw [List.lookup_eq_none_iff]
    intro pair member
    rw [bne_iff_ne]
    rintro rfl
    exact last (List.of_mem_zip (List.mem_reverse.1 member)).1
  rw [List.zip_append aligned, List.zip_cons_cons, List.reverse_append, List.reverse_cons,
    List.append_assoc, List.lookup_append, notBehind]
  simp

namespace Session

variable {library : Library} {session : Session} {past history : List Moment}

theorem Rooted.bound (rooted : Rooted library history) {scope : FrameId} {name : String}
    {expr : Expr} {depth : Nat} {store after : Store} {result : Value}
    (member : .ended ⟨.statement scope (.bind name expr), depth, store⟩ result after ∈ history)
    (passed : result.interrupts = false) :
    ∃ value middle, Activation.Passes library ⟨.expression scope expr, depth, store⟩ value middle ∧
      after.lookup scope name = some value := by
  obtain ⟨value, middle, ended, ⟨interrupts, rfl, _⟩ | ⟨handed, concluded⟩⟩ :=
    Run.andThen_eq_some.1 (rooted.run member)
  · rw [passed] at interrupts
    cases interrupts
  · have calls : Activation.Calls library ⟨.statement scope (.bind name expr), depth, store⟩
        ⟨.expression scope expr, depth, store⟩ := .bound
    have closed := (rooted.within member).1.of_calls calls
    have inStore := (closed.of_run ended).mono fun naming fixed =>
      (Task.rename_eq_self_iff rfl).1 fixed.1
    cases concluded
    exact ⟨value, middle, ⟨ended, handed⟩, Store.lookup_bind inStore.inStore name value⟩

theorem Rooted.indexed (rooted : Rooted library history) {scope : FrameId}
    {collection position : Expr} {depth : Nat} {store after : Store} {result : Value}
    (member : .ended ⟨.expression scope (.index collection position), depth, store⟩ result after ∈
      history) (passed : result.interrupts = false) :
    ∃ value middle index,
      Activation.Passes library ⟨.expression scope collection, depth, store⟩ value middle ∧
      Activation.Passes library ⟨.expression scope position, depth, middle⟩ index after ∧
      result = value.atIndex index := by
  obtain ⟨value, middle, ended, ⟨interrupts, rfl, _⟩ | ⟨handed, continued⟩⟩ :=
    Run.andThen_eq_some.1 (rooted.run member)
  · rw [passed] at interrupts
    cases interrupts
  · obtain ⟨index, last, indexEnded, ⟨interrupts, rfl, _⟩ | ⟨indexHanded, concluded⟩⟩ :=
      Run.andThen_eq_some.1 continued
    · rw [passed] at interrupts
      cases interrupts
    · cases concluded
      exact ⟨value, middle, index, ⟨ended, handed⟩, ⟨indexEnded, indexHanded⟩, rfl⟩

theorem Rooted.body (rooted : Rooted library history) {identity : Identity} {closure : Closure}
    {arguments : List Value} {depth : Nat} {store : Store}
    (member : .started ⟨.application (.function identity closure) arguments, depth + 1, store⟩ ∈
      history) (fits : closure.parameters.length = arguments.length) :
    .started ⟨.block store.frames.size closure.body, depth,
      (store.addFrame (closure.parameters.zip arguments).reverse (some closure.scope)).2⟩ ∈
        history :=
  (rooted.within member).2.1 _ (Activation.mem_moments_iff.2
    ⟨_, .single (.body fits rfl), .inl rfl⟩)

/-- Composites of one type are compared by their identities. -/
theorem comparison_of_identities {left right : Value} {identity other : Identity}
    (sameType : left.type = right.type) (leftCarries : left.identity? = some identity)
    (rightCarries : right.identity? = some other) :
    BinaryOp.equal.apply left right = .boolean (decide (identity = other)) ∧
      BinaryOp.notEqual.apply left right = .boolean (!decide (identity = other)) := by
  cases left with
  | array own elements =>
      cases right with
      | array another others =>
          cases leftCarries
          cases rightCarries
          simp [BinaryOp.apply, BinaryOp.applyOthers, Value.isIdentical, sameType,
            beq_eq_decide]
      | _ => cases sameType
  | dictionary own entries =>
      cases right with
      | dictionary another others =>
          cases leftCarries
          cases rightCarries
          simp [BinaryOp.apply, BinaryOp.applyOthers, Value.isIdentical, sameType,
            beq_eq_decide]
      | _ => cases sameType
  | function own closure =>
      cases right with
      | function another otherClosure =>
          cases leftCarries
          cases rightCarries
          simp [BinaryOp.apply, BinaryOp.applyOthers, Value.isIdentical, sameType,
            beq_eq_decide]
      | _ => cases sameType
  | _ => cases leftCarries

/-- In the history of every session, the run under way included, composites keep their contents, new
ones have new identities, and all else hands on what is there. -/
theorem identityLaws_of_history (reached : History library session past) (depth : Nat)
    (source : String) : IdentityLaws library (past ++ session.moments depth source) := by
  obtain ⟨ledger, kept⟩ := reached.kept
  obtain ⟨final, _, filed, ordered⟩ := kept.whole depth source
  have rooted : Rooted library (past ++ session.moments depth source) := by
    have rootedRun := rooted_moments reached.reachable depth source
    rw [reached.library_eq] at rootedRun
    exact reached.rooted.append rootedRun
  refine ⟨?_, ?_, ?_, ?_, ?_, ?_, ?_, ?_, ?_⟩
  · intro moment member other otherMember identity composite another inMoment inOther
    have listed := ((filed moment member).2.of_mem inMoment).2.1
    have otherListed := ((filed other otherMember).2.of_mem inOther).2.1
    exact listed.symm.trans otherListed
  · intro earlier activation result after later split makes passed
    rw [split] at filed ordered rooted
    have member : .ended activation result after ∈
        earlier ++ .ended activation result after :: later :=
      List.mem_append_right _ List.mem_cons_self
    obtain ⟨identity, carries⟩ :=
      Activation.identity?_of_makes makes (rooted.run member) passed
    refine ⟨identity, carries, ?_⟩
    intro moment inEarlier composite inside
    -- All that was there before has an identity below the clock of its time, which the new identity
    -- is not.
    have notBefore := (List.pairwise_append.1 ordered).2.2 moment inEarlier _ List.mem_cons_self
    have isMade : identity ∈ (Moment.ended activation result after).made? := by
      rw [Moment.made?, if_pos makes, carries]
      rfl
    have below := ((filed moment (List.mem_append_left _ inEarlier)).2.of_mem inside).1
    exact Nat.not_lt.2 (notBefore.made identity isMade) below
  · intro scope name expr depth store result after member passed
    exact rooted.bound member passed
  · intro scope name depth store result after value member found
    have same : some (resolve library store scope name, store) = some (result, after) :=
      (identifier_eq name).symm.trans (rooted.run member)
    cases same
    rw [resolve, found]
  · intro identity closure arguments depth store member fits
    refine ⟨_, _, rooted.body member fits, ?_⟩
    rintro before name behind argumentsBefore argument argumentsBehind split argumentsSplit aligned
      last
    apply Store.lookup_addFrame
    rw [split, argumentsSplit]
    exact Frame.lookup_parameters aligned last
  · intro scope collection position depth store result after member passed
    obtain ⟨value, middle, index, valuePassed, indexPassed, rfl⟩ := rooted.indexed member passed
    have ended := rooted.passed member .collection valuePassed
    have distinct := ((filed _ ended).2.values value (List.mem_singleton_self value)).distinct
    exact ⟨value, middle, index, valuePassed, indexPassed,
      Value.selects_atIndex distinct passed⟩
  · intro name identity elements depth store result after member
    have ended := rooted.run member
    cases depth <;> cases ended <;> exact ⟨rfl, rfl⟩
  · intro name identity elements depth store result after member
    have ended := rooted.run member
    cases depth <;> cases ended <;> exact ⟨rfl, rfl⟩
  · intro activation result after op left right identity other member performs sameType leftCarries
      rightCarries
    have comparison := comparison_of_identities sameType leftCarries rightCarries
    have ended := rooted.run member
    cases performs with
    | @binary _ _ _ _ _ _ _ middle _ last passedLeft passedRight =>
        have applied : some (op.apply left right, last) = some (result, after) :=
          ((Run.andThen_of_passed passedLeft.1 passedLeft.2).trans
            (Run.andThen_of_passed passedRight.1 passedRight.2)).symm.trans ended
        cases applied
        refine ⟨?_, ?_, ?_⟩
        · rintro rfl
          exact comparison.1
        · rintro rfl
          exact comparison.2
        · rintro rfl
          have leftListed := (filed _ (rooted.passed member .left passedLeft)).2.of_mem
            (Moment.mem_composites_result leftCarries)
          have rightMember := rooted.passed member (.right passedLeft) passedRight
          have rightListed := (filed _ rightMember).2.of_mem
            (Moment.mem_composites_result rightCarries)
          obtain rfl : left = right := leftListed.2.1.symm.trans rightListed.2.1
          exact ⟨rfl, left.equals_of_contents_eq left leftListed.2.2 rfl⟩

/-- A source text that binds an array, a longer one that holds it, and a function. -/
def holdingSource : String :=
  "let a = [1, [2]]; let b = push(a, a); let f = fn(x) \x7b x \x7d; f(a)"

/-- A source text that compares what the other text has bound. -/
def comparingSource : String :=
  "let d = \x7b\"k\": a\x7d; [d[\"k\"] == b[2], first(tail(tail(b))) == a, a[1] == [2], b != a]"

theorem identityLaws_of_two_runs :
    ∃ outcome next, (Session.start Library.standard).run 2 holdingSource = some (outcome, next) ∧
      (next.run 2 comparingSource).map (fun step => step.1.map Value.inspect) =
        some (.ok "[true, true, false, true]") ∧
      IdentityLaws Library.standard
        ([] ++ (Session.start Library.standard).moments 2 holdingSource ++
          next.moments 2 comparingSource) := by
  have compared : ((Session.start Library.standard).run 2 holdingSource).bind (fun step =>
      (step.2.run 2 comparingSource).map fun last => last.1.map Value.inspect) =
        some (.ok "[true, true, false, true]") := by
    decide +kernel
  obtain ⟨⟨outcome, next⟩, ended, shown⟩ := Option.bind_eq_some_iff.1 compared
  exact ⟨outcome, next, ended, shown, identityLaws_of_history (.run .start ended) 2 _⟩

end Session

end Scriptlet
