import Scriptlet.Proofs.Evaluate.PlainData

/-!
# Interruptions end what they interrupt

An error that arises anywhere in the call tree of a run is the result of the run, and the store that
it left is the store that the run leaves; a pending return does the same to the nearest call around
it, or to the program if no call is around it.  To say that nothing happens after an interruption,
this module also lists what an activation starts in the order in which it starts it: only the last
of these can be interrupted.
-/

namespace Scriptlet

namespace Evaluate

namespace Activation

variable {library : Library} {activation child parent root : Activation}

/-! ## What an activation starts, in order -/

/-- An activation ends with an error or a pending return. -/
def Interrupted (library : Library) (activation : Activation) : Prop :=
  ∃ value after, activation.run library = some (value, after) ∧ value.interrupts = true

/-- An activation, and what is started after it: nothing, unless it ends with a value that is handed
on. -/
def thenStart (library : Library) (first : Activation)
    (next : Value → Store → List Activation) : List Activation :=
  first :: match first.run library with
    | some (value, after) => if value.interrupts then [] else next value after
    | none => []

/-- The expressions of a row that are started. -/
def startRow (library : Library) (depth : Nat) (scope : FrameId) :
    List Expr → Store → List Activation
  | [], _ => []
  | expr :: rest, store =>
      thenStart library ⟨.expression scope expr, depth, store⟩ fun _ after =>
        startRow library depth scope rest after

/-- The keys and values of a dictionary literal that are started. -/
def startPairs (library : Library) (depth : Nat) (scope : FrameId) :
    List (Expr × Expr) → Store → List Activation
  | [], _ => []
  | (keyExpr, valueExpr) :: rest, store =>
      thenStart library ⟨.expression scope keyExpr, depth, store⟩ fun index middle =>
        thenStart library ⟨.expression scope valueExpr, depth, middle⟩ fun _ after =>
          if index.key?.isSome then startPairs library depth scope rest after else []

/-- The statements of a row that are started. -/
def startStatements (library : Library) (depth : Nat) (scope : FrameId) :
    List Stmt → Store → List Activation
  | [], _ => []
  | stmt :: rest, store =>
      thenStart library ⟨.statement scope stmt, depth, store⟩ fun _ after =>
        startStatements library depth scope rest after

/-- The application of a callee, once all arguments are there. -/
def startApplication (library : Library) (depth : Nat) (scope : FrameId) (arguments : List Expr)
    (function : Value) (store : Store) : List Activation :=
  match expressions library (applyWithin library depth) scope arguments store with
  | some (.ok values, after) => [⟨.application function values, depth, after⟩]
  | _ => []

/-- What the evaluation of an expression starts. -/
def startExpression (library : Library) (depth : Nat) (scope : FrameId) (store : Store) :
    Expr → List Activation
  | .array elements => startRow library depth scope elements store
  | .dictionary pairs => startPairs library depth scope pairs store
  | .unary _ operand =>
      thenStart library ⟨.expression scope operand, depth, store⟩ fun _ _ => []
  | .binary left _ right =>
      thenStart library ⟨.expression scope left, depth, store⟩ fun _ middle =>
        [⟨.expression scope right, depth, middle⟩]
  | .conditional condition consequence alternative =>
      thenStart library ⟨.expression scope condition, depth, store⟩ fun value middle =>
        if value.isTruthy then [⟨.block scope consequence, depth, middle⟩]
        else alternative.toList.map fun stmts => ⟨.block scope stmts, depth, middle⟩
  | .call callee arguments =>
      thenStart library ⟨.expression scope callee, depth, store⟩ fun function middle =>
        startRow library depth scope arguments middle ++
          startApplication library depth scope arguments function middle
  | .index collection position =>
      thenStart library ⟨.expression scope collection, depth, store⟩ fun _ middle =>
        [⟨.expression scope position, depth, middle⟩]
  | _ => []

/-- What the application of a callee starts: the body of a function, in a frame of its own. -/
def startBody (store : Store) : Nat → Value → List Value → List Activation
  | depth + 1, .function _ closure, arguments =>
      if closure.parameters.length = arguments.length then
        let (scope, entered) :=
          store.addFrame (closure.parameters.zip arguments).reverse (some closure.scope)
        [⟨.block scope closure.body, depth, entered⟩]
      else []
  | _, _, _ => []

/-- The activations that one activation starts directly, in the order in which it starts them. -/
def started (library : Library) : Activation → List Activation
  | ⟨.expression scope expr, depth, store⟩ => startExpression library depth scope store expr
  | ⟨.statement scope stmt, depth, store⟩ => [⟨.expression scope stmt.value, depth, store⟩]
  | ⟨.block scope stmts, depth, store⟩ => startStatements library depth scope stmts store
  | ⟨.application callee arguments, depth, store⟩ => startBody store depth callee arguments
  | ⟨.program scope tree, depth, store⟩ =>
      startStatements library depth scope tree.statements store

theorem mem_thenStart_iff {first : Activation} {next : Value → Store → List Activation} :
    child ∈ thenStart library first next ↔
      child = first ∨ ∃ value after, Passes library first value after ∧ child ∈ next value after := by
  unfold thenStart Passes
  rw [List.mem_cons]
  apply or_congr_right
  cases ended : first.run library with
  | none => simp
  | some step =>
      obtain ⟨value, after⟩ := step
      cases interrupts : value.interrupts with
      | true => simp +contextual [interrupts]
      | false =>
          simp only [Option.some.injEq, Prod.mk.injEq, interrupts, Bool.false_eq_true, if_false]
          constructor
          · intro member
            exact ⟨value, after, ⟨⟨rfl, rfl⟩, interrupts⟩, member⟩
          · rintro ⟨_, _, ⟨⟨rfl, rfl⟩, _⟩, member⟩
            exact member

theorem mem_startRow_iff {depth : Nat} {scope : FrameId} {exprs : List Expr} {store : Store} :
    child ∈ startRow library depth scope exprs store ↔
      ∃ front expr back values middle, exprs = front ++ expr :: back ∧
        expressions library (applyWithin library depth) scope front store =
          some (.ok values, middle) ∧
        child = ⟨.expression scope expr, depth, middle⟩ := by
  induction exprs generalizing store with
  | nil => simp [startRow]
  | cons expr rest ih =>
      rw [startRow, mem_thenStart_iff]
      constructor
      · rintro (rfl | ⟨value, after, passed, member⟩)
        · exact ⟨[], expr, rest, [], store, rfl, rfl, rfl⟩
        · obtain ⟨front, other, back, values, middle, rfl, ended, rfl⟩ := ih.1 member
          refine ⟨expr :: front, other, back, value :: values, middle, rfl, ?_, rfl⟩
          rw [expressions_cons_of_passed passed.1 passed.2, ended]
          rfl
      · rintro ⟨front, other, back, values, middle, split, ended, rfl⟩
        cases front with
        | nil =>
            cases split
            obtain ⟨_, rfl⟩ := expressions_nil_eq_some.1 ended
            exact .inl rfl
        | cons first front =>
            cases split
            obtain ⟨value, after, firstEnded, continued⟩ := expressions_cons_eq_some.1 ended
            rcases continued with ⟨_, impossible, _⟩ | ⟨passed, others, restEnded, mapped⟩
            · cases impossible
            · cases others with
              | error interruption => cases mapped
              | ok others =>
                  exact .inr ⟨value, after, ⟨firstEnded, passed⟩,
                    ih.2 ⟨front, other, back, others, middle, rfl, restEnded, rfl⟩⟩

theorem mem_startPairs_iff {depth : Nat} {scope : FrameId} {pairs : List (Expr × Expr)}
    {store : Store} (start : Entries Value) :
    child ∈ startPairs library depth scope pairs store ↔
      ∃ front keyExpr valueExpr back found middle,
        pairs = front ++ (keyExpr, valueExpr) :: back ∧
        entries library (applyWithin library depth) scope front start store =
          some (.ok found, middle) ∧
        (child = ⟨.expression scope keyExpr, depth, middle⟩ ∨
          ∃ index last, Passes library ⟨.expression scope keyExpr, depth, middle⟩ index last ∧
            child = ⟨.expression scope valueExpr, depth, last⟩) := by
  induction pairs generalizing start store with
  | nil => simp [startPairs]
  | cons pair rest ih =>
      obtain ⟨keyExpr, valueExpr⟩ := pair
      rw [startPairs, mem_thenStart_iff]
      simp only [mem_thenStart_iff]
      constructor
      · rintro (rfl | ⟨index, middle, passed, rfl | ⟨value, last, handed, member⟩⟩)
        · exact ⟨[], keyExpr, valueExpr, rest, start, store, rfl, rfl, .inl rfl⟩
        · exact ⟨[], keyExpr, valueExpr, rest, start, store, rfl, rfl,
            .inr ⟨index, middle, passed, rfl⟩⟩
        · split at member
          · next usable =>
              obtain ⟨key, keyFound⟩ := Option.isSome_iff_exists.1 usable
              obtain ⟨front, otherKey, otherValue, back, found, store, rfl, ended, started⟩ :=
                (ih (start.insert key value)).1 member
              refine ⟨(keyExpr, valueExpr) :: front, otherKey, otherValue, back, found, store, rfl,
                entries_cons_eq_some.2 ?_, started⟩
              exact ⟨index, middle, passed.1, .inr ⟨passed.2, value, last, handed.1,
                .inr ⟨handed.2, .inr ⟨key, keyFound, ended⟩⟩⟩⟩
          · cases member
      · rintro ⟨front, otherKey, otherValue, back, found, middle, split, ended, started⟩
        cases front with
        | nil =>
            cases split
            obtain ⟨_, rfl⟩ := entries_nil_eq_some.1 ended
            rcases started with rfl | ⟨index, last, passed, rfl⟩
            · exact .inl rfl
            · exact .inr ⟨index, last, passed, .inl rfl⟩
        | cons first front =>
            cases split
            obtain ⟨index, after, keyEnded, continued⟩ := entries_cons_eq_some.1 ended
            rcases continued with ⟨_, impossible, _⟩ | ⟨passed, value, last, valueEnded, continued⟩
            · cases impossible
            · rcases continued with
                ⟨_, impossible, _⟩ | ⟨handed, ⟨_, impossible, _⟩ | ⟨key, keyFound, restEnded⟩⟩
              · cases impossible
              · cases impossible
              · refine .inr ⟨index, after, ⟨keyEnded, passed⟩, .inr ⟨value, last,
                  ⟨valueEnded, handed⟩, ?_⟩⟩
                rw [keyFound, Option.isSome_some, if_pos rfl]
                exact (ih _).2 ⟨front, otherKey, otherValue, back, found, middle, rfl, restEnded,
                  started⟩

theorem mem_startStatements_iff {depth : Nat} {scope : FrameId} {stmts : List Stmt}
    {store : Store} (start : Value) (handed : start.interrupts = false) :
    child ∈ startStatements library depth scope stmts store ↔
      ∃ front stmt back value middle, stmts = front ++ stmt :: back ∧
        block library (applyWithin library depth) scope start front store = some (value, middle) ∧
        value.interrupts = false ∧ child = ⟨.statement scope stmt, depth, middle⟩ := by
  induction stmts generalizing start store with
  | nil => simp [startStatements]
  | cons stmt rest ih =>
      rw [startStatements, mem_thenStart_iff]
      constructor
      · rintro (rfl | ⟨value, after, passed, member⟩)
        · exact ⟨[], stmt, rest, start, store, rfl, rfl, handed, rfl⟩
        · obtain ⟨front, other, back, last, middle, rfl, ended, lastPassed, rfl⟩ :=
            (ih value passed.2).1 member
          exact ⟨stmt :: front, other, back, last, middle, rfl,
            block_cons_eq_some.2 ⟨value, after, passed.1, .inr ⟨passed.2, ended⟩⟩, lastPassed, rfl⟩
      · rintro ⟨front, other, back, last, middle, split, ended, lastPassed, rfl⟩
        cases front with
        | nil =>
            cases split
            obtain ⟨_, rfl⟩ := block_nil_eq_some.1 ended
            exact .inl rfl
        | cons first front =>
            cases split
            obtain ⟨value, after, firstEnded, continued⟩ := block_cons_eq_some.1 ended
            rcases continued with ⟨interrupts, rfl, _⟩ | ⟨passed, restEnded⟩
            · rw [lastPassed] at interrupts
              cases interrupts
            · exact .inr ⟨value, after, ⟨firstEnded, passed⟩,
                (ih value passed).2 ⟨front, other, back, last, middle, rfl, restEnded, lastPassed, rfl⟩⟩

theorem mem_startApplication_iff {depth : Nat} {scope : FrameId} {arguments : List Expr}
    {function : Value} {store : Store} :
    child ∈ startApplication library depth scope arguments function store ↔
      ∃ values after, expressions library (applyWithin library depth) scope arguments store =
          some (.ok values, after) ∧ child = ⟨.application function values, depth, after⟩ := by
  unfold startApplication
  split
  · next values after ended =>
      simp only [List.mem_singleton, ended, Option.some.injEq, Prod.mk.injEq, Except.ok.injEq]
      constructor
      · rintro rfl
        exact ⟨values, after, ⟨rfl, rfl⟩, rfl⟩
      · rintro ⟨_, _, ⟨rfl, rfl⟩, rfl⟩
        rfl
  · next notOk =>
      simp only [List.not_mem_nil, false_iff]
      rintro ⟨values, after, ended, _⟩
      exact notOk values after ended

theorem mem_started_of_calls (calls : Calls library parent child) :
    child ∈ parent.started library := by
  cases calls with
  | element evaluated => exact mem_startRow_iff.2 ⟨_, _, _, _, _, rfl, evaluated, rfl⟩
  | key inserted => exact (mem_startPairs_iff []).2 ⟨_, _, _, _, _, _, rfl, inserted, .inl rfl⟩
  | entryValue inserted passed =>
      exact (mem_startPairs_iff []).2 ⟨_, _, _, _, _, _, rfl, inserted, .inr ⟨_, _, passed, rfl⟩⟩
  | operand | left | callee | collection => exact mem_thenStart_iff.2 (.inl rfl)
  | condition => exact mem_thenStart_iff.2 (.inl rfl)
  | right passed | position passed =>
      exact mem_thenStart_iff.2 (.inr ⟨_, _, passed, List.mem_singleton_self _⟩)
  | consequence passed holds =>
      refine mem_thenStart_iff.2 (.inr ⟨_, _, passed, ?_⟩)
      rw [if_pos holds]
      exact List.mem_singleton_self _
  | alternative passed fails =>
      refine mem_thenStart_iff.2 (.inr ⟨_, _, passed, ?_⟩)
      rw [fails]
      exact List.mem_singleton_self _
  | argument passed evaluated =>
      refine mem_thenStart_iff.2 (.inr ⟨_, _, passed, List.mem_append_left _ ?_⟩)
      exact mem_startRow_iff.2 ⟨_, _, _, _, _, rfl, evaluated, rfl⟩
  | application passed evaluated =>
      refine mem_thenStart_iff.2 (.inr ⟨_, _, passed, List.mem_append_right _ ?_⟩)
      exact mem_startApplication_iff.2 ⟨_, _, evaluated, rfl⟩
  | bound | returned | evaluated => exact List.mem_singleton_self _
  | statement passed | topLevel passed =>
      exact (mem_startStatements_iff .null rfl).2 ⟨_, _, _, _, _, rfl, passed.1, passed.2, rfl⟩
  | body fits created =>
      cases created
      change _ ∈ (if _ then _ else _)
      rw [if_pos fits]
      exact List.mem_singleton_self _

theorem calls_of_mem_started (member : child ∈ parent.started library) :
    Calls library parent child := by
  obtain ⟨task, depth, store⟩ := parent
  cases task with
  | expression scope expr =>
      cases expr with
      | array elements =>
          obtain ⟨_, _, _, _, _, rfl, evaluated, rfl⟩ := mem_startRow_iff.1 member
          exact .element evaluated
      | dictionary pairs =>
          obtain ⟨_, _, _, _, _, _, rfl, inserted, rfl | ⟨_, _, passed, rfl⟩⟩ :=
            (mem_startPairs_iff []).1 member
          · exact .key inserted
          · exact .entryValue inserted passed
      | unary op operand =>
          rcases mem_thenStart_iff.1 member with rfl | ⟨_, _, _, impossible⟩
          · exact .operand
          · cases impossible
      | binary left op right =>
          rcases mem_thenStart_iff.1 member with rfl | ⟨_, _, passed, member⟩
          · exact .left
          · cases List.mem_singleton.1 member
            exact .right passed
      | conditional condition consequence alternative =>
          rcases mem_thenStart_iff.1 member with rfl | ⟨value, middle, passed, member⟩
          · exact .condition
          · split at member
            · next holds =>
                cases List.mem_singleton.1 member
                exact .consequence passed holds
            · next fails =>
                obtain ⟨stmts, chosen, rfl⟩ := List.mem_map.1 member
                cases Option.mem_toList.1 chosen
                exact .alternative passed (Bool.eq_false_iff.2 fails)
      | call callee arguments =>
          rcases mem_thenStart_iff.1 member with rfl | ⟨_, _, passed, member⟩
          · exact .callee
          · rcases List.mem_append.1 member with member | member
            · obtain ⟨_, _, _, _, _, rfl, evaluated, rfl⟩ := mem_startRow_iff.1 member
              exact .argument passed evaluated
            · obtain ⟨_, _, evaluated, rfl⟩ := mem_startApplication_iff.1 member
              exact .application passed evaluated
      | index collection position =>
          rcases mem_thenStart_iff.1 member with rfl | ⟨_, _, passed, member⟩
          · exact .collection
          · cases List.mem_singleton.1 member
            exact .position passed
      | _ => cases member
  | statement scope stmt =>
      cases List.mem_singleton.1 member
      cases stmt with
      | bind name value => exact .bound
      | returns value => exact .returned
      | expression value => exact .evaluated
  | block scope stmts =>
      obtain ⟨_, _, _, _, _, rfl, ended, passed, rfl⟩ := (mem_startStatements_iff .null rfl).1 member
      exact .statement ⟨ended, passed⟩
  | application callee arguments =>
      change child ∈ startBody store depth callee arguments at member
      unfold startBody at member
      split at member
      · split at member
        · next fits =>
            cases List.mem_singleton.1 member
            exact .body fits rfl
        · cases member
      · cases member
  | program scope tree =>
      obtain ⟨stmts⟩ := tree
      obtain ⟨_, _, _, _, _, rfl, ended, passed, rfl⟩ := (mem_startStatements_iff .null rfl).1 member
      exact .topLevel ⟨ended, passed⟩

/-- The list and the relation agree on what is started. -/
theorem calls_iff_mem_started : Calls library parent child ↔ child ∈ parent.started library :=
  ⟨mem_started_of_calls, calls_of_mem_started⟩

/-! ## Nothing is started after an interruption -/

/-- Only the last of some activations can be interrupted. -/
def EndWithInterruption (library : Library) (activations : List Activation) : Prop :=
  activations.Pairwise fun earlier _ => ¬ earlier.Interrupted library

theorem Passes.not_interrupted {value : Value} {after : Store}
    (passed : Passes library activation value after) : ¬ activation.Interrupted library := by
  rintro ⟨other, last, ended, interrupts⟩
  rw [passed.1] at ended
  cases ended
  rw [passed.2] at interrupts
  cases interrupts

theorem endWithInterruption_singleton : EndWithInterruption library [activation] :=
  List.pairwise_singleton _ _

theorem endWithInterruption_thenStart {first : Activation}
    {next : Value → Store → List Activation}
    (nextEnds : ∀ value after, EndWithInterruption library (next value after)) :
    EndWithInterruption library (thenStart library first next) := by
  unfold thenStart
  cases ended : first.run library with
  | none => exact endWithInterruption_singleton
  | some step =>
      obtain ⟨value, after⟩ := step
      cases interrupts : value.interrupts with
      | true =>
          simp only [interrupts, if_true]
          exact endWithInterruption_singleton
      | false =>
          simp only [interrupts, Bool.false_eq_true, if_false]
          have passed : Passes library first value after := ⟨ended, interrupts⟩
          exact List.Pairwise.cons (fun _ _ => passed.not_interrupted) (nextEnds value after)

theorem endWithInterruption_startRow (depth : Nat) (scope : FrameId) (exprs : List Expr)
    (store : Store) : EndWithInterruption library (startRow library depth scope exprs store) := by
  induction exprs generalizing store with
  | nil => exact List.Pairwise.nil
  | cons expr rest ih => exact endWithInterruption_thenStart fun _ after => ih after

theorem endWithInterruption_startPairs (depth : Nat) (scope : FrameId)
    (pairs : List (Expr × Expr)) (store : Store) :
    EndWithInterruption library (startPairs library depth scope pairs store) := by
  induction pairs generalizing store with
  | nil => exact List.Pairwise.nil
  | cons pair rest ih =>
      apply endWithInterruption_thenStart
      intro index middle
      apply endWithInterruption_thenStart
      intro value after
      split
      · exact ih after
      · exact List.Pairwise.nil

theorem endWithInterruption_startStatements (depth : Nat) (scope : FrameId) (stmts : List Stmt)
    (store : Store) :
    EndWithInterruption library (startStatements library depth scope stmts store) := by
  induction stmts generalizing store with
  | nil => exact List.Pairwise.nil
  | cons stmt rest ih => exact endWithInterruption_thenStart fun _ after => ih after

/-- A callee is applied only when no argument was interrupted. -/
theorem not_interrupted_of_startApplication {depth : Nat} {scope : FrameId}
    {arguments : List Expr} {function : Value} {store : Store}
    (applied : child ∈ startApplication library depth scope arguments function store)
    (started : activation ∈ startRow library depth scope arguments store) :
    ¬ activation.Interrupted library := by
  rintro ⟨value, after, ended, interrupts⟩
  obtain ⟨values, last, evaluated, _⟩ := mem_startApplication_iff.1 applied
  obtain ⟨front, expr, back, before, middle, rfl, frontEvaluated, rfl⟩ := mem_startRow_iff.1 started
  rw [(awaits_expressions frontEvaluated).interrupted ended interrupts] at evaluated
  cases evaluated

theorem endWithInterruption_started (library : Library) (activation : Activation) :
    EndWithInterruption library (activation.started library) := by
  obtain ⟨task, depth, store⟩ := activation
  cases task with
  | expression scope expr =>
      cases expr with
      | array elements => exact endWithInterruption_startRow depth scope elements store
      | dictionary pairs => exact endWithInterruption_startPairs depth scope pairs store
      | unary op operand => exact endWithInterruption_thenStart fun _ _ => List.Pairwise.nil
      | binary left op right =>
          exact endWithInterruption_thenStart fun _ _ => endWithInterruption_singleton
      | conditional condition consequence alternative =>
          apply endWithInterruption_thenStart
          intro value middle
          split
          · exact endWithInterruption_singleton
          · cases alternative with
            | none => exact List.Pairwise.nil
            | some stmts => exact endWithInterruption_singleton
      | call callee arguments =>
          apply endWithInterruption_thenStart
          intro function middle
          refine List.pairwise_append.2
            ⟨endWithInterruption_startRow depth scope arguments middle, ?_, ?_⟩
          · unfold startApplication
            split
            · exact endWithInterruption_singleton
            · exact List.Pairwise.nil
          · intro argument started application applied
            exact not_interrupted_of_startApplication applied started
      | index collection position =>
          exact endWithInterruption_thenStart fun _ _ => endWithInterruption_singleton
      | _ => exact List.Pairwise.nil
  | statement scope stmt => exact endWithInterruption_singleton
  | block scope stmts => exact endWithInterruption_startStatements depth scope stmts store
  | application callee arguments =>
      change EndWithInterruption library (startBody store depth callee arguments)
      unfold startBody
      split
      · split
        · exact endWithInterruption_singleton
        · exact List.Pairwise.nil
      · exact List.Pairwise.nil
  | program scope tree =>
      exact endWithInterruption_startStatements depth scope tree.statements store

end Activation

/-! ## Interruptions on their way out -/

/-- Whether a task answers a pending return: calls and programs do. -/
def Task.answersReturn : Task → Bool
  | application .. | program .. => true
  | _ => false

theorem Task.answer_error (task : Task) (message : String) :
    task.answer (.error message) = .error message := by
  cases task <;> rfl

theorem Task.answer_returned (task : Task) (value : Value) :
    task.answer (.returned value) = if task.answersReturn then value else .returned value := by
  cases task <;> rfl

namespace Activation

variable {library : Library} {activation child owner outer root : Activation}
variable {message : String} {value : Value} {after : Store}

/-- An activation is started by another one, or is it, with no call in between. -/
def Inside (library : Library) (activation outer : Activation) : Prop :=
  Relation.ReflTransGen (fun parent child =>
    Calls library parent child ∧ parent.task.answersReturn = false) outer activation

/-- The owner of an activation is the nearest call around it, or the program if no call is. -/
def Owns (library : Library) (owner activation : Activation) : Prop :=
  owner.task.answersReturn = true ∧
    ∃ child, Calls library owner child ∧ activation.Inside library child

/-- What is started outside of a program's own activation has an owner. -/
theorem eq_or_exists_owner (answers : root.task.answersReturn = true)
    (within : activation.Within library root) :
    activation = root ∨
      ∃ owner : Activation, owner.Within library root ∧ owner.Owns library activation := by
  induction within with
  | refl => exact .inl rfl
  | @tail parent child reached calls ih =>
      refine .inr ?_
      cases parentAnswers : parent.task.answersReturn with
      | true => exact ⟨parent, reached, parentAnswers, child, calls, .refl⟩
      | false =>
          rcases ih with rfl | ⟨owner, ownerWithin, ownerAnswers, first, firstCalls, inside⟩
          · rw [answers] at parentAnswers
            cases parentAnswers
          · exact ⟨owner, ownerWithin, ownerAnswers, first, firstCalls,
              inside.tail ⟨calls, parentAnswers⟩⟩

/-- An error is the result of everything around it, and the store it left stays as it is. -/
theorem Within.run_of_error (within : activation.Within library outer)
    (ended : activation.run library = some (.error message, after)) :
    outer.run library = some (.error message, after) := by
  induction within using Relation.ReflTransGen.head_induction_on with
  | refl => exact ended
  | head calls _ ih =>
      have answered := calls.awaits.interrupted ih rfl
      rwa [Task.answer_error] at answered

/-- A pending return is the result of everything around it up to the next call. -/
theorem Inside.run_of_returned (inside : activation.Inside library outer)
    (ended : activation.run library = some (.returned value, after)) :
    outer.run library = some (.returned value, after) := by
  induction inside using Relation.ReflTransGen.head_induction_on with
  | refl => exact ended
  | head step _ ih =>
      have answered := step.1.awaits.interrupted ih rfl
      rwa [Task.answer_returned, step.2] at answered

/-- A pending return is answered by its owner. -/
theorem Owns.run_of_returned (owns : owner.Owns library activation)
    (ended : activation.run library = some (.returned value, after)) :
    owner.run library = some (value, after) := by
  obtain ⟨answers, child, calls, inside⟩ := owns
  have answered := calls.awaits.interrupted (inside.run_of_returned ended) rfl
  rwa [Task.answer_returned, answers] at answered

end Activation

end Evaluate

namespace Session

open Evaluate in
/-- Whatever happens in the call tree of a program: an error is the result of everything around it
and of the program, with the store that it left; a pending return has an owner, which results in the
value returned, with the store that was left; and an activation starts nothing after one that was
interrupted. -/
theorem run_of_interruption {session : Session} (plain : session.store.Plain) {depth : Nat}
    {tree : Program} {activation : Activation}
    (within : activation.Within session.library
      ⟨.program session.root tree, depth, session.store⟩) :
    (∀ message after, activation.run session.library = some (.error message, after) →
      session.runProgram depth tree = some (.error message, { session with store := after }) ∧
        ∀ outer, activation.Within session.library outer →
          outer.run session.library = some (.error message, after)) ∧
    (∀ value after, activation.run session.library = some (.returned value, after) →
      (∃ owner : Activation,
        owner.Within session.library ⟨.program session.root tree, depth, session.store⟩ ∧
          owner.Owns session.library activation) ∧
      (∀ owner : Activation, owner.Owns session.library activation →
        owner.run session.library = some (value, after)) ∧
      ∀ outer, activation.Inside session.library outer →
        outer.run session.library = some (.returned value, after)) ∧
    (∀ child, Activation.Calls session.library activation child ↔
      child ∈ activation.started session.library) ∧
    ∀ front child back, activation.started session.library = front ++ child :: back →
      child.Interrupted session.library → back = [] := by
  refine ⟨?_, ?_, fun child => Activation.calls_iff_mem_started, ?_⟩
  · intro message after ended
    refine ⟨?_, fun outer around => around.run_of_error ended⟩
    have programEnded : Evaluate.program session.library depth session.root tree session.store =
        some (.error message, after) := within.run_of_error ended
    rw [runProgram, perform, programEnded]
    rfl
  · intro value after ended
    refine ⟨?_, fun owner owns => owns.run_of_returned ended,
      fun outer inside => inside.run_of_returned ended⟩
    rcases Activation.eq_or_exists_owner rfl within with rfl | owned
    · -- The program itself never ends with a pending return.
      have programPlain : Activation.Plain ⟨.program session.root tree, depth, session.store⟩ :=
        Activation.plain_of_store plain (by simp)
      have settled : (Value.returned value).isSettled = true :=
        (programPlain.permits_of_run ended).2
      exact absurd settled (by simp [Value.isSettled, Value.isPlain])
    · exact owned
  · intro front child back split interrupted
    have ends := Activation.endWithInterruption_started session.library activation
    rw [split] at ends
    cases back with
    | nil => rfl
    | cons later back =>
        have followed := (List.pairwise_append.1 ends).2.1
        exact absurd interrupted
          (List.rel_of_pairwise_cons followed List.mem_cons_self)

/-- A program that returns from a block inside a call, and then fails before it reads a name that
nothing binds. -/
def interruptedSample : Program := ⟨[
  .expression (.array [
    .call (.function [] [
      .expression (.conditional (.boolean true) [.returns (.boolean true)] none),
      .expression (.identifier "y")]) [],
    .unary .negate (.boolean true),
    .identifier "y"])]⟩

open Evaluate Activation in
theorem run_of_interruption_sample :
    (∃ after, (start Library.standard).runProgram 1 interruptedSample =
      some (.error "Unknown operator: -BOOLEAN", { start Library.standard with store := after })) ∧
    ∃ owner : Activation, owner.Within Library.standard
        ⟨.program 0 interruptedSample, 1, (start Library.standard).store⟩ ∧
      ∃ after, owner.run Library.standard = some (.boolean true, after) := by
  have plain : (start Library.standard).store.Plain := Store.plain_empty.addFrame (by simp) none
  -- The statement, the array and the second element lead to the error.
  have failing : ∃ activation : Activation, ∃ after,
      activation.Within Library.standard
        ⟨.program 0 interruptedSample, 1, (start Library.standard).store⟩ ∧
      activation.run Library.standard = some (.error "Unknown operator: -BOOLEAN", after) :=
    ⟨_, _, .head (calls_iff_mem_started.2 (.head _)) (.head (calls_iff_mem_started.2 (.head _))
      (.single (calls_iff_mem_started.2 (.tail _ (.head _))))), rfl⟩
  -- The first element, its application, its body and the block in it lead to the pending return.
  have returning : ∃ activation : Activation, ∃ after,
      activation.Within Library.standard
        ⟨.program 0 interruptedSample, 1, (start Library.standard).store⟩ ∧
      activation.run Library.standard = some (.returned (.boolean true), after) :=
    ⟨_, _, .head (calls_iff_mem_started.2 (.head _)) (.head (calls_iff_mem_started.2 (.head _))
      (.head (calls_iff_mem_started.2 (.head _))
        (.head (calls_iff_mem_started.2 (.tail _ (.head _)))
          (.head (calls_iff_mem_started.2 (.head _)) (.head (calls_iff_mem_started.2 (.head _))
            (.head (calls_iff_mem_started.2 (.head _))
              (.head (calls_iff_mem_started.2 (.tail _ (.head _)))
                (.single (calls_iff_mem_started.2 (.head _)))))))))), rfl⟩
  obtain ⟨activation, after, within, ended⟩ := failing
  obtain ⟨other, last, otherWithin, otherEnded⟩ := returning
  obtain ⟨⟨owner, ownerWithin, owns⟩, answered, _⟩ :=
    (run_of_interruption plain otherWithin).2.1 _ _ otherEnded
  exact ⟨⟨after, ((run_of_interruption plain within).1 _ _ ended).1⟩, owner, ownerWithin, last,
    answered owner owns⟩

end Session

end Scriptlet
