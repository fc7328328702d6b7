import Scriptlet.Proofs.Evaluate.CallTree
import Scriptlet.Session

/-!
# Errors and pending returns are never data

A value is *plain* when neither an error nor a pending return occurs in it, at any depth of arrays
and dictionaries.  In a session that starts with an empty root scope, every value that is bound,
stored in an array or a dictionary, or handed to an operator, a function or a builtin is plain, in
every store of every call tree.  An error or a pending return exists only on its way out of an
evaluation, bare, and a pending return goes no further than the call or program it belongs to.
-/

namespace Scriptlet

/-! ## Plain values -/

mutual

/-- Whether neither an error nor a pending return occurs in a value. -/
def Value.isPlain : Value → Bool
  | .array _ elements => Value.allPlain elements
  | .dictionary _ entries => Value.entriesPlain entries
  | .returned _ => false
  | .error _ => false
  | _ => true
  termination_by structural value => value

/-- Whether all values of a list are plain. -/
def Value.allPlain : List Value → Bool
  | [] => true
  | value :: rest => value.isPlain && Value.allPlain rest
  termination_by structural values => values

/-- Whether all values of a dictionary are plain. -/
def Value.entriesPlain : List (Key × Value) → Bool
  | [] => true
  | (_, value) :: rest => value.isPlain && Value.entriesPlain rest
  termination_by structural entries => entries

end

namespace Value

/-- What a call or a program may result in: a plain value or an error. -/
def isSettled : Value → Bool
  | error _ => true
  | value => value.isPlain

/-- What the evaluation of an expression, a statement or a block may result in: a plain value, an
error, or the pending return of a plain value. -/
def isOutcome : Value → Bool
  | returned value => value.isPlain
  | value => value.isSettled

@[simp] theorem allPlain_iff {values : List Value} :
    allPlain values = true ↔ ∀ value ∈ values, value.isPlain = true := by
  induction values with
  | nil => simp [allPlain]
  | cons value rest ih => simp [allPlain, ih]

@[simp] theorem entriesPlain_iff {entries : List (Key × Value)} :
    entriesPlain entries = true ↔ ∀ entry ∈ entries, entry.2.isPlain = true := by
  induction entries with
  | nil => simp [entriesPlain]
  | cons entry rest ih =>
      obtain ⟨key, value⟩ := entry
      simp only [entriesPlain, Bool.and_eq_true, ih, List.forall_mem_cons]

theorem isSettled_of_isPlain {value : Value} (plain : value.isPlain = true) :
    value.isSettled = true := by
  cases value <;> first | rfl | exact plain

theorem isOutcome_of_isSettled {value : Value} (settled : value.isSettled = true) :
    value.isOutcome = true := by
  cases value <;> first | exact settled | simp [isSettled, isPlain] at settled

/-- An outcome that is handed on is plain. -/
theorem isPlain_of_passed {value : Value} (outcome : value.isOutcome = true)
    (passed : value.interrupts = false) : value.isPlain = true := by
  cases value with
  | returned | error => simp [interrupts] at passed
  | _ => exact outcome

theorem isSettled_settled {value : Value} (outcome : value.isOutcome = true) :
    value.settled.isSettled = true := by
  cases value with
  | returned value => exact isSettled_of_isPlain outcome
  | _ => exact outcome

theorem settled_of_isSettled {value : Value} (settled : value.isSettled = true) :
    value.settled = value := by
  cases value with
  | returned value => cases settled
  | _ => rfl

theorem isPlain_of_mem_insert {entries : Entries Value} {key : Key} {value : Value}
    (plain : ∀ entry ∈ entries, entry.2.isPlain = true) (valuePlain : value.isPlain = true) :
    ∀ entry ∈ entries.insert key value, entry.2.isPlain = true := by
  induction entries with
  | nil => simpa [Entries.insert] using valuePlain
  | cons entry rest ih =>
      rw [List.forall_mem_cons] at plain
      unfold Entries.insert
      split
      · exact List.forall_mem_cons.2 ⟨valuePlain, plain.2⟩
      · exact List.forall_mem_cons.2 ⟨plain.1, ih plain.2⟩

theorem isPlain_of_find? {entries : Entries Value} {key : Key} {value : Value}
    (plain : ∀ entry ∈ entries, entry.2.isPlain = true) (found : entries.find? key = some value) :
    value.isPlain = true := by
  induction entries with
  | nil => simp at found
  | cons entry rest ih =>
      rw [List.forall_mem_cons] at plain
      unfold Entries.find? at found
      split at found
      · cases found
        exact plain.1
      · exact ih plain.2 found

end Value

/-! ## Plain stores -/

/-- Every binding of every frame is plain. -/
def Store.Plain (store : Store) : Prop :=
  ∀ frame ∈ store.frames, ∀ binding ∈ frame.bindings, binding.2.isPlain = true

namespace Store

theorem plain_empty : empty.Plain := by
  intro frame member
  simp [empty] at member

theorem Plain.addFrame {store : Store} (plain : store.Plain) {bindings : List (String × Value)}
    (bindingsPlain : ∀ binding ∈ bindings, binding.2.isPlain = true) (parent : Option FrameId) :
    (store.addFrame bindings parent).2.Plain := by
  intro frame member
  simp only [Store.addFrame, Array.mem_push] at member
  rcases member with member | rfl
  · exact plain frame member
  · exact bindingsPlain

theorem Plain.bind {store : Store} (plain : store.Plain) (scope : FrameId) (name : String)
    {value : Value} (valuePlain : value.isPlain = true) : (store.bind scope name value).Plain := by
  intro frame member
  obtain ⟨index, inBounds, rfl⟩ := Array.mem_iff_getElem.1 member
  simp only [Store.bind, Array.size_modify] at inBounds
  simp only [Store.bind, Array.getElem_modify]
  split
  · exact List.forall_mem_cons.2 ⟨valuePlain, plain _ (Array.getElem_mem inBounds)⟩
  · exact plain _ (Array.getElem_mem inBounds)

theorem Plain.lookup {store : Store} (plain : store.Plain) {scope : FrameId} {name : String}
    {value : Value} (found : store.lookup scope name = some value) : value.isPlain = true := by
  fun_induction store.lookup scope name with
  | case1 => cases found
  | case2 scope frame frameFound own ownFound =>
      cases found
      obtain ⟨front, back, bindingsEq, _⟩ := List.lookup_eq_some_iff.1 ownFound
      exact plain frame (Array.mem_of_getElem? frameFound) (name, value) (by simp [bindingsEq])
  | case3 => cases found
  | case4 scope frame _ _ parent _ _ ih => exact ih found
  | case5 => cases found

end Store

/-! ## Computations that keep data plain -/

/-- Started on a plain store, a computation that ends leaves one and has an accepted result. -/
def Run.KeepsPlain {α : Type} (accepts : α → Prop) (run : Run α) : Prop :=
  ∀ before result after, before.Plain → run before = some (result, after) →
    after.Plain ∧ accepts result

/-- The computations of evaluation: their results are outcomes. -/
abbrev Run.HasOutcome : Run Value → Prop := Run.KeepsPlain fun value => value.isOutcome = true

/-- The computations of calls: their results are settled. -/
abbrev Run.Settles : Run Value → Prop := Run.KeepsPlain fun value => value.isSettled = true

namespace Run

variable {α β : Type}

theorem KeepsPlain.pure {accepts : α → Prop} {value : α} (accepted : accepts value) :
    KeepsPlain accepts (Pure.pure value) := by
  intro before result after plain ended
  obtain ⟨rfl, rfl⟩ := pure_eq_some.1 ended
  exact ⟨plain, accepted⟩

theorem KeepsPlain.bind {accepts : α → Prop} {acceptsNext : β → Prop} {first : Run α}
    {next : α → Run β} (firstKeeps : KeepsPlain accepts first)
    (nextKeeps : ∀ value, accepts value → KeepsPlain acceptsNext (next value)) :
    KeepsPlain acceptsNext (first >>= next) := by
  intro before result after plain ended
  obtain ⟨value, middle, firstEnded, nextEnded⟩ := bind_eq_some.1 ended
  obtain ⟨middlePlain, accepted⟩ := firstKeeps before value middle plain firstEnded
  exact nextKeeps value accepted middle result after middlePlain nextEnded

theorem KeepsPlain.mono {accepts weaker : α → Prop} {run : Run α} (keeps : KeepsPlain accepts run)
    (weaken : ∀ value, accepts value → weaker value) : KeepsPlain weaker run := by
  intro before result after plain ended
  obtain ⟨afterPlain, accepted⟩ := keeps before result after plain ended
  exact ⟨afterPlain, weaken result accepted⟩

theorem HasOutcome.andThen {first : Run Value} {next : Value → Run Value}
    (firstOutcome : HasOutcome first)
    (nextOutcome : ∀ value, value.isPlain = true → HasOutcome (next value)) :
    HasOutcome (first.andThen next) := by
  apply KeepsPlain.bind firstOutcome
  intro value outcome
  split
  · exact KeepsPlain.pure outcome
  · next passed =>
      exact nextOutcome value (Value.isPlain_of_passed outcome (Bool.eq_false_iff.2 passed))

theorem Settles.hasOutcome {run : Run Value} (settles : Settles run) : HasOutcome run :=
  settles.mono fun _ => Value.isOutcome_of_isSettled

theorem keepsPlain_newIdentity : KeepsPlain (fun _ => True) newIdentity := by
  intro before result after plain ended
  cases ended
  exact ⟨plain, True.intro⟩

theorem settles_newArray {elements : List Value}
    (plain : ∀ value ∈ elements, value.isPlain = true) : Settles (newArray elements) := by
  apply KeepsPlain.bind keepsPlain_newIdentity
  intro identity _
  exact KeepsPlain.pure (Value.allPlain_iff.2 plain)

theorem settles_newDictionary {entries : Entries Value}
    (plain : ∀ entry ∈ entries, entry.2.isPlain = true) : Settles (newDictionary entries) := by
  apply KeepsPlain.bind keepsPlain_newIdentity
  intro identity _
  exact KeepsPlain.pure (Value.entriesPlain_iff.2 plain)

theorem settles_newFunction (closure : Closure) : Settles (newFunction closure) := by
  apply KeepsPlain.bind keepsPlain_newIdentity
  intro identity _
  exact KeepsPlain.pure rfl

theorem keepsPlain_bindName (scope : FrameId) (name : String) {value : Value}
    (valuePlain : value.isPlain = true) :
    KeepsPlain (fun _ => True) (bindName scope name value) := by
  intro before result after plain ended
  cases ended
  exact ⟨plain.bind scope name valuePlain, True.intro⟩

theorem keepsPlain_newFrame {bindings : List (String × Value)}
    (bindingsPlain : ∀ binding ∈ bindings, binding.2.isPlain = true) (parent : Option FrameId) :
    KeepsPlain (fun _ => True) (newFrame bindings parent) := by
  intro before result after plain ended
  cases ended
  exact ⟨plain.addFrame bindingsPlain parent, True.intro⟩

end Run

/-! ## Operators and builtins -/

theorem UnaryOp.isSettled_apply (op : UnaryOp) (operand : Value) :
    (op.apply operand).isSettled = true := by
  cases op <;> cases operand <;> rfl

theorem BinaryOp.isSettled_apply (op : BinaryOp) (left right : Value) :
    (op.apply left right).isSettled = true := by
  unfold BinaryOp.apply
  split
  · cases op with
    | divide =>
        simp only [applyIntegers]
        split <;> rfl
    | _ => rfl
  · cases op <;> rfl
  · unfold applyOthers
    split
    · cases op <;> rfl
    · rfl

theorem Value.isPlain_elementAt {elements : List Value}
    (plain : ∀ value ∈ elements, value.isPlain = true) (position : Int64) :
    (elementAt elements position).isPlain = true := by
  unfold elementAt
  split
  · rfl
  · cases found : elements[position.toInt.toNat]? with
    | none => rfl
    | some value => exact plain value (List.mem_of_getElem? found)

theorem Value.isSettled_atIndex {collection : Value} (plain : collection.isPlain = true)
    (index : Value) : (collection.atIndex index).isSettled = true := by
  unfold atIndex
  split
  · exact isSettled_of_isPlain (isPlain_elementAt (allPlain_iff.1 plain) _)
  · split
    · next key _ =>
        cases found : Entries.find? _ key with
        | none => rfl
        | some value =>
            exact isSettled_of_isPlain (isPlain_of_find? (entriesPlain_iff.1 plain) found)
    · rfl
  · rfl

/-- A builtin that is given plain arguments settles: it hands on elements of an argument or makes a
new array of them. -/
theorem Builtin.settles_call (builtin : Builtin) {arguments : List Value}
    (plain : ∀ value ∈ arguments, value.isPlain = true) : (builtin.call arguments).Settles := by
  have elementsPlain : ∀ {identity elements others},
      arguments = .array identity elements :: others →
        ∀ value ∈ elements, value.isPlain = true := by
    intro identity elements others argumentsEq
    rw [argumentsEq, List.forall_mem_cons] at plain
    exact Value.allPlain_iff.1 plain.1
  cases builtin with
  | len =>
      change (callLen arguments).Settles
      unfold callLen
      split <;> exact Run.KeepsPlain.pure rfl
  | first =>
      change (callFirst arguments).Settles
      unfold callFirst
      split
      · next elements =>
          apply Run.KeepsPlain.pure
          cases found : elements.head? with
          | none => rfl
          | some value =>
              exact Value.isSettled_of_isPlain
                (elementsPlain rfl value (List.mem_of_mem_head? found))
      · exact Run.KeepsPlain.pure rfl
      · exact Run.KeepsPlain.pure rfl
  | last =>
      change (callLast arguments).Settles
      unfold callLast
      split
      · next elements =>
          apply Run.KeepsPlain.pure
          cases found : elements.getLast? with
          | none => rfl
          | some value =>
              exact Value.isSettled_of_isPlain
                (elementsPlain rfl value (List.mem_of_getLast? found))
      · exact Run.KeepsPlain.pure rfl
      · exact Run.KeepsPlain.pure rfl
  | tail =>
      change (callTail arguments).Settles
      unfold callTail
      split
      · next elements =>
          apply Run.settles_newArray
          intro value member
          exact elementsPlain rfl value (List.mem_of_mem_tail member)
      · exact Run.KeepsPlain.pure rfl
      · exact Run.KeepsPlain.pure rfl
  | push =>
      change (callPush arguments).Settles
      unfold callPush
      split
      · next elements added =>
          apply Run.settles_newArray
          intro value member
          rcases List.mem_append.1 member with member | member
          · exact elementsPlain rfl value member
          · exact plain value (List.mem_cons_of_mem _ member)
      · exact Run.KeepsPlain.pure rfl
      · exact Run.KeepsPlain.pure rfl

/-! ## Evaluation -/

namespace Evaluate

variable {library : Library} {apply : Applier} {scope : FrameId}

/-- An applier that settles on plain callees and arguments. -/
def Settling (apply : Applier) : Prop :=
  ∀ callee arguments, callee.isPlain = true → (∀ value ∈ arguments, value.isPlain = true) →
    (apply callee arguments).Settles

/-- What evaluating a row of parts may result in: an outcome that interrupts it, or all of them. -/
def RowOutcome {α : Type} (complete : α → Prop) : Except Value α → Prop
  | .error interruption => interruption.isOutcome = true
  | .ok values => complete values

theorem hasOutcome_identifier (name : String) : (identifier library scope name).HasOutcome := by
  intro before result after plain ended
  rw [identifier_eq] at ended
  cases ended
  refine ⟨plain, Value.isOutcome_of_isSettled ?_⟩
  unfold resolve
  split
  · next found => exact Value.isSettled_of_isPlain (plain.lookup found)
  · rfl
  · rfl

mutual

theorem hasOutcome_expression (settling : Settling apply) :
    ∀ expr : Expr, (expression library apply scope expr).HasOutcome
  | .identifier name => hasOutcome_identifier name
  | .integer _ => Run.KeepsPlain.pure rfl
  | .boolean _ => Run.KeepsPlain.pure rfl
  | .string _ => Run.KeepsPlain.pure rfl
  | .array elements => by
      apply Run.KeepsPlain.bind (keepsPlain_expressions settling elements)
      intro outcome accepted
      cases outcome with
      | error interruption => exact Run.KeepsPlain.pure accepted
      | ok values => exact (Run.settles_newArray accepted).hasOutcome
  | .dictionary pairs => by
      apply Run.KeepsPlain.bind (keepsPlain_entries settling pairs [] (by simp))
      intro outcome accepted
      cases outcome with
      | error interruption => exact Run.KeepsPlain.pure accepted
      | ok found => exact (Run.settles_newDictionary accepted).hasOutcome
  | .unary op operand => by
      apply (hasOutcome_expression settling operand).andThen
      intro value _
      exact Run.KeepsPlain.pure (Value.isOutcome_of_isSettled (op.isSettled_apply value))
  | .binary left op right => by
      apply (hasOutcome_expression settling left).andThen
      intro a _
      apply (hasOutcome_expression settling right).andThen
      intro b _
      exact Run.KeepsPlain.pure (Value.isOutcome_of_isSettled (op.isSettled_apply a b))
  | .conditional condition consequence none => by
      apply (hasOutcome_expression settling condition).andThen
      intro value _
      split
      · exact hasOutcome_block settling .null rfl consequence
      · exact Run.KeepsPlain.pure rfl
  | .conditional condition consequence (some alternative) => by
      apply (hasOutcome_expression settling condition).andThen
      intro value _
      split
      · exact hasOutcome_block settling .null rfl consequence
      · exact hasOutcome_block settling .null rfl alternative
  | .function parameters body => (Run.settles_newFunction ⟨parameters, body, scope⟩).hasOutcome
  | .call callee arguments => by
      apply (hasOutcome_expression settling callee).andThen
      intro function functionPlain
      apply Run.KeepsPlain.bind (keepsPlain_expressions settling arguments)
      intro outcome accepted
      cases outcome with
      | error interruption => exact Run.KeepsPlain.pure accepted
      | ok values => exact (settling function values functionPlain accepted).hasOutcome
  | .index collection position => by
      apply (hasOutcome_expression settling collection).andThen
      intro value valuePlain
      apply (hasOutcome_expression settling position).andThen
      intro index _
      exact Run.KeepsPlain.pure
        (Value.isOutcome_of_isSettled (Value.isSettled_atIndex valuePlain index))

theorem keepsPlain_expressions (settling : Settling apply) :
    ∀ exprs : List Expr, (expressions library apply scope exprs).KeepsPlain
      (RowOutcome fun values => ∀ value ∈ values, value.isPlain = true)
  | [] => Run.KeepsPlain.pure (by simp [RowOutcome])
  | expr :: rest => by
      apply Run.KeepsPlain.bind (hasOutcome_expression settling expr)
      intro value outcome
      split
      · exact Run.KeepsPlain.pure outcome
      · next passed =>
          have plain := Value.isPlain_of_passed outcome (Bool.eq_false_iff.2 passed)
          apply Run.KeepsPlain.bind (keepsPlain_expressions settling rest)
          intro others accepted
          cases others with
          | error interruption => exact Run.KeepsPlain.pure accepted
          | ok values => exact Run.KeepsPlain.pure (List.forall_mem_cons.2 ⟨plain, accepted⟩)

theorem keepsPlain_entries (settling : Settling apply) :
    ∀ (pairs : List (Expr × Expr)) (found : Entries Value),
      (∀ entry ∈ found, entry.2.isPlain = true) →
        (entries library apply scope pairs found).KeepsPlain
          (RowOutcome fun entries : Entries Value => ∀ entry ∈ entries, entry.2.isPlain = true)
  | [], found, foundPlain => Run.KeepsPlain.pure foundPlain
  | (keyExpr, valueExpr) :: rest, found, foundPlain => by
      apply Run.KeepsPlain.bind (hasOutcome_expression settling keyExpr)
      intro index indexOutcome
      split
      · exact Run.KeepsPlain.pure indexOutcome
      · apply Run.KeepsPlain.bind (hasOutcome_expression settling valueExpr)
        intro value outcome
        split
        · exact Run.KeepsPlain.pure outcome
        · next passed =>
            have plain := Value.isPlain_of_passed outcome (Bool.eq_false_iff.2 passed)
            split
            · exact Run.KeepsPlain.pure rfl
            · exact keepsPlain_entries settling rest _
                (Value.isPlain_of_mem_insert foundPlain plain)

theorem hasOutcome_statement (settling : Settling apply) :
    ∀ stmt : Stmt, (statement library apply scope stmt).HasOutcome
  | .bind name value => by
      apply (hasOutcome_expression settling value).andThen
      intro bound plain
      apply Run.KeepsPlain.bind (Run.keepsPlain_bindName scope name plain)
      intro _ _
      exact Run.KeepsPlain.pure rfl
  | .returns value => by
      apply (hasOutcome_expression settling value).andThen
      intro result plain
      exact Run.KeepsPlain.pure plain
  | .expression value => hasOutcome_expression settling value

theorem hasOutcome_block (settling : Settling apply) (start : Value)
    (startPlain : start.isPlain = true) :
    ∀ stmts : List Stmt, (block library apply scope start stmts).HasOutcome
  | [] => Run.KeepsPlain.pure
      (Value.isOutcome_of_isSettled (Value.isSettled_of_isPlain startPlain))
  | stmt :: rest => by
      apply (hasOutcome_statement settling stmt).andThen
      intro value plain
      exact hasOutcome_block settling value plain rest

end

theorem settling_applyWith {run : Closure → List Value → Run Value}
    (settles : ∀ closure arguments, (∀ value ∈ arguments, value.isPlain = true) →
      (run closure arguments).Settles) : Settling (applyWith run) := by
  intro callee arguments calleePlain argumentsPlain
  cases callee with
  | function identity closure =>
      change (if closure.parameters.length = arguments.length then run closure arguments
        else pure _ : Run Value).Settles
      split
      · exact settles closure arguments argumentsPlain
      · exact Run.KeepsPlain.pure rfl
  | builtin name operation => exact operation.settles_call argumentsPlain
  | _ => exact Run.KeepsPlain.pure rfl

/-- The frame of a call binds plain arguments, so its body has an outcome, which settles. -/
theorem settles_invoke (settling : Settling apply) (closure : Closure) {arguments : List Value}
    (argumentsPlain : ∀ value ∈ arguments, value.isPlain = true) :
    (invoke library apply closure arguments).Settles := by
  have bindingsPlain : ∀ binding ∈ (closure.parameters.zip arguments).reverse,
      binding.2.isPlain = true := by
    intro binding member
    exact argumentsPlain binding.2 (List.of_mem_zip (List.mem_reverse.1 member)).2
  apply Run.KeepsPlain.bind (Run.keepsPlain_newFrame bindingsPlain (some closure.scope))
  intro scope _
  apply Run.KeepsPlain.bind (hasOutcome_block settling .null rfl closure.body)
  intro result outcome
  exact Run.KeepsPlain.pure (Value.isSettled_settled outcome)

theorem settling_applyWithin (library : Library) (depth : Nat) :
    Settling (applyWithin library depth) := by
  induction depth with
  | zero =>
      apply settling_applyWith
      intro closure arguments _ before result after _ ended
      cases ended
  | succ depth ih =>
      apply settling_applyWith
      intro closure arguments argumentsPlain
      exact settles_invoke ih closure argumentsPlain

theorem settles_program (library : Library) (depth : Nat) (scope : FrameId) (tree : Program) :
    (program library depth scope tree).Settles := by
  apply Run.KeepsPlain.bind
    (hasOutcome_block (settling_applyWithin library depth) .null rfl tree.statements)
  intro result outcome
  exact Run.KeepsPlain.pure (Value.isSettled_settled outcome)

theorem plain_of_expressions {depth : Nat} {exprs : List Expr} {values : List Value}
    {before after : Store} (plain : before.Plain)
    (ended : expressions library (applyWithin library depth) scope exprs before =
      some (.ok values, after)) :
    after.Plain ∧ ∀ value ∈ values, value.isPlain = true :=
  keepsPlain_expressions (settling_applyWithin library depth) exprs before _ after plain ended

theorem plain_of_entries {depth : Nat} {pairs : List (Expr × Expr)} {found : Entries Value}
    {before after : Store} (plain : before.Plain)
    (ended : entries library (applyWithin library depth) scope pairs [] before =
      some (.ok found, after)) :
    after.Plain :=
  (keepsPlain_entries (settling_applyWithin library depth) pairs [] (by simp) before _ after plain
    ended).1

/-! ## Call trees -/

/-- The results that the evaluation of a task may have: only calls and programs answer a pending
return. -/
def Task.Permits : Task → Value → Prop
  | application .., result => result.isSettled = true
  | program .., result => result.isSettled = true
  | _, result => result.isOutcome = true

/-- Everything that an activation starts from is plain: the store, and for a call the callee and
the arguments. -/
structure Activation.Plain (activation : Activation) : Prop where
  store : activation.store.Plain
  operands : ∀ callee arguments, activation.task = .application callee arguments →
    callee.isPlain = true ∧ ∀ value ∈ arguments, value.isPlain = true

namespace Activation

theorem plain_of_store {task : Task} {depth : Nat} {store : Store} (plain : store.Plain)
    (noCall : ∀ callee arguments, task ≠ .application callee arguments) :
    Plain ⟨task, depth, store⟩ :=
  ⟨plain, fun callee arguments isCall => absurd isCall (noCall callee arguments)⟩

/-- The result lemma: a plain activation that ends has a permitted result and leaves a plain
store. -/
theorem Plain.permits_of_run {library : Library} {activation : Activation}
    (plain : activation.Plain) {result : Value} {after : Store}
    (ended : activation.run library = some (result, after)) :
    after.Plain ∧ activation.task.Permits result := by
  obtain ⟨task, depth, store⟩ := activation
  have settling := settling_applyWithin library depth
  cases task with
  | expression scope expr =>
      exact hasOutcome_expression settling expr store result after plain.store ended
  | statement scope stmt =>
      exact hasOutcome_statement settling stmt store result after plain.store ended
  | block scope stmts =>
      exact hasOutcome_block settling .null rfl stmts store result after plain.store ended
  | application callee arguments =>
      obtain ⟨calleePlain, argumentsPlain⟩ := plain.operands callee arguments rfl
      exact settling callee arguments calleePlain argumentsPlain store result after
        plain.store ended
  | program scope tree =>
      exact settles_program library depth scope tree store result after plain.store ended

theorem Passes.isPlain {library : Library} {scope : FrameId} {expr : Expr} {depth : Nat}
    {store after : Store} {value : Value}
    (passed : Passes library ⟨.expression scope expr, depth, store⟩ value after)
    (plain : store.Plain) : after.Plain ∧ value.isPlain = true := by
  obtain ⟨afterPlain, outcome⟩ :=
    (plain_of_store plain (by simp)).permits_of_run passed.1
  exact ⟨afterPlain, Value.isPlain_of_passed outcome passed.2⟩

/-- The step lemma: what a plain activation starts is plain. -/
theorem Plain.of_calls {library : Library} {parent child : Activation} (plain : parent.Plain)
    (calls : Calls library parent child) : child.Plain := by
  have storePlain := plain.store
  cases calls with
  | element evaluated =>
      exact plain_of_store (plain_of_expressions storePlain evaluated).1 (by simp)
  | key inserted => exact plain_of_store (plain_of_entries storePlain inserted) (by simp)
  | entryValue inserted passed =>
      have middlePlain := plain_of_entries storePlain inserted
      exact plain_of_store (passed.isPlain middlePlain).1 (by simp)
  | operand | left | condition | callee | collection | bound | returned | evaluated =>
      exact plain_of_store storePlain (by simp)
  | right passed | position passed =>
      exact plain_of_store (passed.isPlain storePlain).1 (by simp)
  | consequence passed _ | alternative passed _ =>
      exact plain_of_store (passed.isPlain storePlain).1 (by simp)
  | argument passed evaluated =>
      have middlePlain := (passed.isPlain storePlain).1
      exact plain_of_store (plain_of_expressions middlePlain evaluated).1 (by simp)
  | application passed evaluated =>
      obtain ⟨middlePlain, functionPlain⟩ := passed.isPlain storePlain
      obtain ⟨lastPlain, valuesPlain⟩ := plain_of_expressions middlePlain evaluated
      refine ⟨lastPlain, ?_⟩
      rintro callee arguments ⟨⟩
      exact ⟨functionPlain, valuesPlain⟩
  | statement passed | topLevel passed =>
      apply plain_of_store _ (by simp)
      exact ((plain_of_store storePlain (by simp)).permits_of_run passed.1).1
  | body fits created =>
      obtain ⟨_, argumentsPlain⟩ := plain.operands _ _ rfl
      apply plain_of_store _ (by simp)
      cases created
      apply storePlain.addFrame
      intro binding member
      exact argumentsPlain binding.2 (List.of_mem_zip (List.mem_reverse.1 member)).2

/-- The run lemma: every activation of a plain activation's call tree is plain. -/
theorem Plain.of_within {library : Library} {root activation : Activation} (plain : root.Plain)
    (within : activation.Within library root) : activation.Plain := by
  induction within with
  | refl => exact plain
  | tail _ calls ih => exact ih.of_calls calls

theorem Plain.operands_of_performs {library : Library} {activation : Activation}
    {operation : Operation} (plain : activation.Plain)
    (performs : activation.Performs library operation) :
    ∀ operand ∈ operation.operands, operand.isPlain = true := by
  cases performs with
  | unary passed =>
      have operandPlain := (passed.isPlain plain.store).2
      simpa [Operation.operands] using operandPlain
  | binary passedLeft passedRight | index passedLeft passedRight =>
      obtain ⟨middlePlain, leftPlain⟩ := passedLeft.isPlain plain.store
      obtain ⟨_, rightPlain⟩ := passedRight.isPlain middlePlain
      simp [Operation.operands, leftPlain, rightPlain]
  | call =>
      obtain ⟨calleePlain, argumentsPlain⟩ := plain.operands _ _ rfl
      exact List.forall_mem_cons.2 ⟨calleePlain, argumentsPlain⟩
  | builtin =>
      obtain ⟨_, argumentsPlain⟩ := plain.operands _ _ rfl
      exact argumentsPlain

end Activation

end Evaluate

/-! ## Sessions -/

namespace Session

/-- The sessions that arise from a new one by running source texts that end. -/
inductive Reachable (library : Library) : Session → Prop
  | start : Reachable library (Session.start library)
  | run {session next : Session} {depth : Nat} {source : String}
      {outcome : Except SourceError Value} (reached : Reachable library session)
      (ended : session.run depth source = some (outcome, next)) : Reachable library next

/-- Running a source text changes nothing or is the run of a program. -/
theorem eq_or_runProgram_of_run {session next : Session} {depth : Nat} {source : String}
    {outcome : Except SourceError Value} (ended : session.run depth source = some (outcome, next)) :
    next = session ∨
      ∃ program value, session.runProgram depth program = some (value, next) ∧
        outcome = .ok value := by
  unfold run at ended
  split at ended
  · cases ended
    exact .inl rfl
  · next program _ =>
      obtain ⟨⟨value, _⟩, ran, resultEq⟩ := Option.map_eq_some_iff.1 ended
      cases resultEq
      exact .inr ⟨program, value, ran, rfl⟩

theorem run_of_runProgram {session next : Session} {depth : Nat} {program : Program} {value : Value}
    (ran : session.runProgram depth program = some (value, next)) :
    Evaluate.program session.library depth session.root program session.store =
      some (value, next.store) := by
  obtain ⟨⟨result, store⟩, ended, resultEq⟩ := Option.map_eq_some_iff.1 ran
  cases resultEq
  exact ended

theorem plain_of_reachable {library : Library} {session : Session}
    (reached : session.Reachable library) : session.store.Plain := by
  induction reached with
  | start => exact Store.plain_empty.addFrame (by simp) none
  | @run session next depth source outcome _ ended ih =>
      rcases eq_or_runProgram_of_run ended with rfl | ⟨program, value, ran, _⟩
      · exact ih
      · exact (Evaluate.settles_program _ _ _ _ _ _ _ ih (run_of_runProgram ran)).1

open Evaluate in
/-- In every session, bindings are plain; and in the call tree of every program run in it, every
activation starts on and leaves a plain store, has a result that its task permits, and applies
operators, functions and builtins to plain values only, where every operation that ends is performed
or interrupted by a part.  When the run ends, every activation has a result. -/
theorem data_plain_of_reachable {library : Library} {session : Session}
    (reached : session.Reachable library) :
    session.store.Plain ∧
      ∀ (tree : Program) (depth : Nat) (activation : Activation),
        activation.Within session.library ⟨.program session.root tree, depth, session.store⟩ →
          activation.store.Plain ∧
            ((session.runProgram depth tree).isSome = true →
              (activation.run session.library).isSome = true) ∧
            (∀ result after, activation.run session.library = some (result, after) →
              after.Plain ∧ activation.task.Permits result) ∧
            (∀ operation, activation.Performs session.library operation →
              (∀ operand ∈ operation.operands, operand.isPlain = true) ∧
                ∃ store, activation.run session.library =
                  operation.perform session.library activation.depth store) ∧
            (activation.task.isOperation = true → ∀ result after,
              activation.run session.library = some (result, after) →
                (result.interrupts = true ∧ ∃ child,
                    Activation.Calls session.library activation child ∧
                      child.run session.library = some (result, after)) ∨
                  ∃ operation, activation.Performs session.library operation) := by
  have storePlain := plain_of_reachable reached
  refine ⟨storePlain, ?_⟩
  intro tree depth activation within
  have plain := (Activation.plain_of_store storePlain (by simp)).of_within within
  refine ⟨plain.store, ?_, ?_, ?_, ?_⟩
  · intro ended
    rw [runProgram, perform, Option.isSome_map] at ended
    exact within.ends ended
  · intro result after ended
    exact plain.permits_of_run ended
  · intro operation performs
    exact ⟨plain.operands_of_performs performs, performs.run_eq⟩
  · intro isOperation result after ended
    exact Activation.interrupted_or_performs isOperation ended

theorem data_plain_after_return_and_error :
    ∃ outcome next, (Session.start Library.standard).run 2
        "let f = fn(x) \x7b if (x) \x7b return [x]; \x7d 2 \x7d; let a = f(1); let b = a + 1;" =
          some (outcome, next) ∧ next.store.Plain := by
  have ends : ((Session.start Library.standard).run 2
      "let f = fn(x) \x7b if (x) \x7b return [x]; \x7d 2 \x7d; let a = f(1); let b = a + 1;"
        ).isSome = true := by
    decide +kernel
  obtain ⟨⟨outcome, next⟩, ended⟩ := Option.isSome_iff_exists.1 ends
  exact ⟨outcome, next, ended, (data_plain_of_reachable (.run .start ended)).1⟩

end Session

end Scriptlet
