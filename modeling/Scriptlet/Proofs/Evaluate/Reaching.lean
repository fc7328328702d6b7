import Scriptlet.Proofs.Evaluate.FrameLaw

/-!
# Evaluation followed through a program

To show what a given program computes, its evaluation is followed from one expression to the next, by
what is seen from the scope.  The computations that are followed here end, and they add frames but
change none that is there; so what is seen from a scope stays the same while they run, and their
results can be put together.
-/

namespace Scriptlet

/-! ## What is seen from a scope -/

namespace Store

/-- All frames of the earlier store are in the later one, unchanged. -/
abbrev Extends (before after : Store) : Prop := before.Keeps none [] after

/-- What is seen from a scope: the value of each name, if it has one. -/
structure Shows (store : Store) (scope : FrameId) (view : String → Option Value) : Prop where
  inStore : scope < store.frames.size
  lookup : ∀ name, store.lookup scope name = view name

variable {before after store : Store} {scope : FrameId} {view : String → Option Value}

/-- A name has its value in the frame itself, or else in the frame around it. -/
theorem lookup_eq {frame : Frame} (found : store.frames[scope]? = some frame) (name : String) :
    store.lookup scope name = (frame.find? name).or
      (frame.parent.bind fun parent =>
        if parent < scope then store.lookup parent name else none) := by
  rw [Store.lookup, found]
  cases own : frame.find? name <;> cases enclosed : frame.parent <;> simp [own, enclosed]

/-- What is looked up from a scope depends only on the frame of the scope and older ones. -/
theorem lookup_congr (same : ∀ frame ≤ scope, after.frames[frame]? = before.frames[frame]?)
    (name : String) : after.lookup scope name = before.lookup scope name := by
  induction scope using Nat.strongRecOn with
  | _ scope ih =>
      cases found : before.frames[scope]? with
      | none =>
          have foundAfter := (same scope (Nat.le_refl _)).trans found
          rw [Store.lookup, Store.lookup, found, foundAfter]
      | some frame =>
          rw [lookup_eq found, lookup_eq ((same scope (Nat.le_refl _)).trans found)]
          cases frame.parent with
          | none => rfl
          | some parent =>
              simp only [Option.bind_some]
              split
              · next older =>
                  rw [ih parent older fun frame le => same frame (Nat.le_trans le (Nat.le_of_lt older))]
              · rfl

theorem Extends.lookup (keeps : before.Extends after) (inStore : scope < before.frames.size)
    (name : String) : after.lookup scope name = before.lookup scope name := by
  apply lookup_congr
  intro frame le
  have found := Array.getElem?_eq_getElem (Nat.lt_of_le_of_lt le inStore)
  obtain ⟨new, isNew, same, _⟩ := keeps frame _ found
  rw [isNew, found, same nofun]

theorem Extends.size_le (keeps : before.Extends after) :
    before.frames.size ≤ after.frames.size := by
  apply Nat.le_of_not_lt
  intro smaller
  obtain ⟨new, found, _⟩ := keeps after.frames.size _ (Array.getElem?_eq_getElem smaller)
  obtain ⟨inBounds, _⟩ := Array.getElem?_eq_some_iff.1 found
  exact Nat.lt_irrefl _ inBounds

/-- Frames that are there do not change when a name is bound in one that was not there. -/
theorem Extends.bind_new (keeps : before.Extends after) (new : before.frames.size ≤ scope)
    (name : String) (value : Value) : before.Extends (after.bind scope name value) := by
  intro frame old found
  obtain ⟨same, isSame, unchanged, rebinds⟩ := keeps frame old found
  obtain ⟨inBounds, _⟩ := Array.getElem?_eq_some_iff.1 found
  have elsewhere : scope ≠ frame := Nat.ne_of_gt (Nat.lt_of_lt_of_le inBounds new)
  refine ⟨same, ?_, unchanged, rebinds⟩
  simp [Store.bind, Array.getElem?_modify, elsewhere, isSame]

namespace Shows

theorem later (shows : before.Shows scope view) (keeps : before.Extends after) :
    after.Shows scope view where
  inStore := Nat.lt_of_lt_of_le shows.inStore keeps.size_le
  lookup name := (keeps.lookup shows.inStore name).trans (shows.lookup name)

/-- A new frame shows its own bindings, and else what the frame around it shows. -/
theorem addFrame (shows : store.Shows scope view) (bindings : List (String × Value)) :
    (store.addFrame bindings (some scope)).2.Shows store.frames.size
      fun name => (bindings.lookup name).or (view name) where
  inStore := by simp [Store.addFrame]
  lookup name := by
    have around := (shows.later (Keeps.addFrame store bindings (some scope))).lookup name
    have found : (store.addFrame bindings (some scope)).2.frames[store.frames.size]? =
        some ⟨bindings, some scope⟩ := by
      simp [Store.addFrame]
    rw [lookup_eq found]
    simp only [Frame.find?, Option.bind_some, if_pos shows.inStore, around]

theorem bind (shows : store.Shows scope view) (name : String) (value : Value) :
    (store.bind scope name value).Shows scope
      fun other => if other = name then some value else view other where
  inStore := by simpa [Store.bind] using shows.inStore
  lookup other := by
    have inStore := shows.inStore
    have found := Array.getElem?_eq_getElem inStore
    have bound : (store.bind scope name value).frames[scope]? =
        some (store.frames[scope].bind name value) := by
      simp [Store.bind, Array.getElem?_modify, found]
    have others : ∀ parent, parent < scope →
        (store.bind scope name value).lookup parent other = store.lookup parent other := by
      intro parent older
      apply lookup_congr
      intro frame le
      simp [Store.bind, Array.getElem?_modify, Nat.ne_of_gt (Nat.lt_of_le_of_lt le older)]
    rw [← shows.lookup, lookup_eq bound, lookup_eq found, Frame.find?_bind, Frame.parent_bind]
    split
    · rfl
    · cases store.frames[scope].parent with
      | none => rfl
      | some parent => simp +contextual [others]

end Shows

end Store

/-! ## Computations that end and change no frame -/

/-- Started on a store, a computation ends, with a result that is accepted, and leaves all frames as
they are. -/
def Run.Reaches {α : Type} (run : Run α) (before : Store) (accepts : α → Prop) : Prop :=
  ∃ result after, run before = some (result, after) ∧ before.Extends after ∧ accepts result

namespace Run.Reaches

variable {α β : Type} {accepts : α → Prop} {approves : β → Prop} {before : Store}

theorem pure {value : α} (accepted : accepts value) : (pure value : Run α).Reaches before accepts :=
  ⟨value, before, rfl, .refl before, accepted⟩

theorem mono {run : Run α} {allows : α → Prop} (reaches : run.Reaches before accepts)
    (weaker : ∀ value, accepts value → allows value) : run.Reaches before allows := by
  obtain ⟨result, after, ended, keeps, accepted⟩ := reaches
  exact ⟨result, after, ended, keeps, weaker result accepted⟩

theorem bind {first : Run α} {next : α → Run β} (reaches : first.Reaches before accepts)
    (continued : ∀ value middle, before.Extends middle → accepts value →
      (next value).Reaches middle approves) :
    (first >>= next).Reaches before approves := by
  obtain ⟨value, middle, ended, keeps, accepted⟩ := reaches
  obtain ⟨result, last, endedNext, keepsNext, approved⟩ := continued value middle keeps accepted
  exact ⟨result, last, bind_eq_some.2 ⟨value, middle, ended, endedNext⟩, keeps.trans keepsNext,
    approved⟩

/-- A value that interrupts is the result; any other one is handed on. -/
theorem andThen {first : Run Value} {next : Value → Run Value} {allows accepts : Value → Prop}
    (reaches : first.Reaches before allows)
    (interrupted : ∀ value, allows value → value.interrupts = true → accepts value)
    (continued : ∀ value middle, before.Extends middle → allows value →
      value.interrupts = false → (next value).Reaches middle accepts) :
    (first.andThen next).Reaches before accepts := by
  refine reaches.bind fun value middle keeps allowed => ?_
  split
  · next interrupts => exact .pure (interrupted value allowed interrupts)
  · next passes => exact continued value middle keeps allowed (Bool.eq_false_iff.2 passes)

theorem andThen_of_eq {first : Run Value} {next : Value → Run Value} {value : Value}
    {accepts : Value → Prop} (passes : value.interrupts = false)
    (reaches : first.Reaches before (· = value))
    (continued : ∀ middle, before.Extends middle → (next value).Reaches middle accepts) :
    (first.andThen next).Reaches before accepts := by
  refine reaches.andThen ?_ ?_
  · rintro _ rfl interrupts
    rw [passes] at interrupts
    cases interrupts
  · rintro _ middle keeps rfl _
    exact continued middle keeps

theorem newArray {elements : List Value} {accepts : Value → Prop}
    (accepted : ∀ identity, accepts (.array identity elements)) :
    (Run.newArray elements).Reaches before accepts :=
  ⟨_, _, rfl, .of_frames_eq rfl, accepted before.nextIdentity⟩

theorem newFunction {closure : Closure} {accepts : Value → Prop}
    (accepted : ∀ identity, accepts (.function identity closure)) :
    (Run.newFunction closure).Reaches before accepts :=
  ⟨_, _, rfl, .of_frames_eq rfl, accepted before.nextIdentity⟩

end Run.Reaches

namespace Evaluate

section

variable {library : Library} {apply : Applier} {scope : FrameId} {before : Store}
variable {view : String → Option Value} {accepts : Value → Prop}

theorem reaches_name (shows : before.Shows scope view) {name : String} {value : Value}
    (found : view name = some value) (accepted : accepts value) :
    (expression library apply scope (.identifier name)).Reaches before accepts := by
  refine ⟨value, before, ?_, .refl before, accepted⟩
  change identifier library scope name before = _
  rw [identifier_eq, resolve, shows.lookup, found]

theorem reaches_builtin (shows : before.Shows scope view) {name : String} {builtin : Builtin}
    (free : view name = none) (provided : library.find? name = some builtin)
    (accepted : accepts (.builtin name builtin)) :
    (expression library apply scope (.identifier name)).Reaches before accepts := by
  refine ⟨.builtin name builtin, before, ?_, .refl before, accepted⟩
  change identifier library scope name before = _
  rw [identifier_eq, resolve, shows.lookup, free, provided]

theorem reaches_function (parameters : List String) (body : Block) :
    (expression library apply scope (.function parameters body)).Reaches before
      fun value => ∃ made, value = .function made ⟨parameters, body, scope⟩ :=
  .newFunction fun made => ⟨made, rfl⟩

theorem reaches_binary {left right : Expr} {a b : Value} (op : BinaryOp)
    (leftPasses : a.interrupts = false) (rightPasses : b.interrupts = false)
    (leftReaches : (expression library apply scope left).Reaches before (· = a))
    (rightReaches : ∀ middle, before.Extends middle →
      (expression library apply scope right).Reaches middle (· = b)) :
    (expression library apply scope (.binary left op right)).Reaches before (· = op.apply a b) := by
  refine leftReaches.andThen_of_eq leftPasses fun middle keeps => ?_
  exact (rightReaches middle keeps).andThen_of_eq rightPasses fun _ _ => .pure rfl

/-- The first of some expressions interrupts, or the others are evaluated after it. -/
theorem reaches_expressions_cons {expr : Expr} {rest : List Expr} {allows : Value → Prop}
    {accepts : Except Value (List Value) → Prop}
    (first : (expression library apply scope expr).Reaches before allows)
    (interrupted : ∀ value, allows value → value.interrupts = true → accepts (.error value))
    (others : ∀ value middle, before.Extends middle → allows value →
      value.interrupts = false → (expressions library apply scope rest).Reaches middle
        fun outcome => accepts (outcome.map (value :: ·))) :
    (expressions library apply scope (expr :: rest)).Reaches before accepts := by
  refine first.bind fun value middle keeps allowed => ?_
  split
  · next interrupts => exact .pure (interrupted value allowed interrupts)
  · next passes =>
      refine (others value middle keeps allowed (Bool.eq_false_iff.2 passes)).bind ?_
      rintro (interruption | values) last _ accepted
      · exact .pure accepted
      · exact .pure accepted

theorem reaches_expressions_cons_of_eq {expr : Expr} {rest : List Expr} {value : Value}
    {accepts : Except Value (List Value) → Prop} (passes : value.interrupts = false)
    (first : (expression library apply scope expr).Reaches before (· = value))
    (others : ∀ middle, before.Extends middle → (expressions library apply scope rest).Reaches middle
      fun outcome => accepts (outcome.map (value :: ·))) :
    (expressions library apply scope (expr :: rest)).Reaches before accepts := by
  refine reaches_expressions_cons first ?_ ?_
  · rintro _ rfl interrupts
    rw [passes] at interrupts
    cases interrupts
  · rintro _ middle keeps rfl _
    exact others middle keeps

/-- A call of a function that is known: the arguments interrupt it, or the function is applied to
their values. -/
theorem reaches_call {callee : Expr} {arguments : List Expr} {function : Value}
    (passes : function.interrupts = false)
    (found : (expression library apply scope callee).Reaches before (· = function))
    (evaluated : ∀ middle, before.Extends middle →
      (expressions library apply scope arguments).Reaches middle fun outcome =>
        match outcome with
        | .error interruption => accepts interruption
        | .ok values => ∀ later, before.Extends later →
            (apply function values).Reaches later accepts) :
    (expression library apply scope (.call callee arguments)).Reaches before accepts := by
  refine found.andThen_of_eq passes fun middle keeps => (evaluated middle keeps).bind ?_
  rintro (interruption | values) last keepsLast allowed
  · exact .pure allowed
  · exact allowed last (keeps.trans keepsLast)

theorem reaches_block_singleton {expr : Expr}
    (reaches : (expression library apply scope expr).Reaches before accepts) :
    (block library apply scope .null [.expression expr]).Reaches before accepts := by
  have same : block library apply scope .null [.expression expr] =
      expression library apply scope expr := Run.andThen_pure _
  rw [same]
  exact reaches

/-- A call runs the body of its function in a new frame, which only the call itself may change. -/
theorem reaches_invoke_of_block {closure : Closure} {arguments : List Value} {result : Value}
    {after : Store}
    (ended : block library apply before.frames.size .null closure.body
      (before.addFrame (closure.parameters.zip arguments).reverse (some closure.scope)).2 =
        some (result, after))
    (keeps : before.Extends after) (accepted : accepts result.settled) :
    (invoke library apply closure arguments).Reaches before accepts :=
  ⟨result.settled, after, Run.bind_eq_some.2 ⟨_, _, rfl, Run.bind_eq_some.2 ⟨_, _, ended, rfl⟩⟩,
    keeps, accepted⟩

/-- The body of a function is run in a scope that shows the arguments over what the scope of the
function shows. -/
theorem reaches_invoke {closure : Closure} {arguments : List Value}
    (shows : before.Shows closure.scope view)
    (body : ∀ scope store, before.Extends store →
      (store.Shows scope fun name =>
        ((closure.parameters.zip arguments).reverse.lookup name).or (view name)) →
      (block library apply scope .null closure.body).Reaches store fun value =>
        accepts value.settled) :
    (invoke library apply closure arguments).Reaches before accepts := by
  have entered : before.Extends _ := Store.Keeps.addFrame before
    (closure.parameters.zip arguments).reverse (some closure.scope)
  obtain ⟨result, after, ended, keeps, accepted⟩ := body _ _ entered (shows.addFrame _)
  exact reaches_invoke_of_block ended (entered.trans keeps) accepted

/-- A function that first binds a function of its own sees this one under its name from then on. -/
theorem reaches_invoke_of_binding {closure : Closure} {arguments : List Value} {name : String}
    {parameters : List String} {inner : Block} {last : Expr}
    (bodyEq : closure.body = [.bind name (.function parameters inner), .expression last])
    (shows : before.Shows closure.scope view)
    (body : ∀ scope store identity, before.Extends store →
      (store.Shows scope fun other =>
        if other = name then some (.function identity ⟨parameters, inner, scope⟩) else
          ((closure.parameters.zip arguments).reverse.lookup other).or (view other)) →
      (expression library apply scope last).Reaches store fun value => accepts value.settled) :
    (invoke library apply closure arguments).Reaches before accepts := by
  -- The inner function captures the frame of the call before its own name is bound there.
  let entered : Store :=
    (before.addFrame (closure.parameters.zip arguments).reverse (some closure.scope)).2
  let function : Value := .function before.nextIdentity ⟨parameters, inner, before.frames.size⟩
  let made : Store := { entered with nextIdentity := before.nextIdentity + 1 }
  have keepsMade : before.Extends made :=
    (Store.Keeps.addFrame before _ (some closure.scope)).trans (.of_frames_eq rfl)
  have showsMade : made.Shows before.frames.size _ :=
    (shows.addFrame (closure.parameters.zip arguments).reverse).later (.of_frames_eq rfl)
  have keeps := keepsMade.bind_new (Nat.le_refl _) name function
  obtain ⟨result, after, ended, keepsLast, accepted⟩ :=
    body _ _ before.nextIdentity keeps (showsMade.bind name function)
  refine reaches_invoke_of_block ?_ (keeps.trans keepsLast) accepted
  rw [bodyEq]
  refine block_cons_eq_some.2 ⟨.null, made.bind before.frames.size name function, rfl, .inr ⟨rfl, ?_⟩⟩
  exact (congrFun (Run.andThen_pure _) _).trans ended

end

theorem applyWithin_builtin (library : Library) (depth : Nat) (name : String) (operation : Builtin)
    (arguments : List Value) :
    applyWithin library depth (.builtin name operation) arguments = operation.call arguments := by
  cases depth <;> rfl

theorem applyWithin_function (library : Library) (depth : Nat) (identity : Identity)
    {closure : Closure} {arguments : List Value}
    (fits : closure.parameters.length = arguments.length) :
    applyWithin library (depth + 1) (.function identity closure) arguments =
      invoke library (applyWithin library depth) closure arguments :=
  if_pos fits

/-- A builtin that is called with the value of a name. -/
theorem reaches_builtin_call {library : Library} {depth : Nat} {scope : FrameId} {before : Store}
    {view : String → Option Value} {accepts : Value → Prop} (shows : before.Shows scope view)
    {name argument : String} {operation : Builtin} {value : Value} (free : view name = none)
    (provided : library.find? name = some operation) (found : view argument = some value)
    (passes : value.interrupts = false)
    (called : ∀ middle, before.Extends middle → (operation.call [value]).Reaches middle accepts) :
    (expression library (applyWithin library depth) scope
      (.call (.identifier name) [.identifier argument])).Reaches before accepts := by
  refine reaches_call rfl (reaches_builtin shows free provided rfl) fun middle keeps => ?_
  refine reaches_expressions_cons_of_eq passes (reaches_name (shows.later keeps) found rfl) ?_
  intro last _
  refine .pure fun later keepsLater => ?_
  rw [applyWithin_builtin]
  exact called later keepsLater

end Evaluate

end Scriptlet
