import Scriptlet.Evaluate

/-!
# Computations in sequence

When a computation over the store ends, so do the parts it is made of, and each starts on the store
that the one before it left.  The first half of this module states that for the ways in which
evaluation combines computations; the second half for expressions, pairs and statements in a row,
which are evaluated up to the first that interrupts.
-/

namespace Scriptlet

namespace Run

variable {α β : Type} {before after : Store}

@[simp] theorem pure_eq_some {value result : α} :
    (pure value : Run α) before = some (result, after) ↔ value = result ∧ before = after := by
  change some (value, before) = some (result, after) ↔ _
  simp only [Option.some.injEq, Prod.mk.injEq]

theorem bind_eq_some {first : Run α} {next : α → Run β} {result : β} :
    (first >>= next) before = some (result, after) ↔
      ∃ value middle, first before = some (value, middle) ∧
        next value middle = some (result, after) := by
  change (first before).bind (fun step => next step.1 step.2) = some (result, after) ↔ _
  simp only [Option.bind_eq_some_iff, Prod.exists]

/-- A value either interrupts, and is the result, or is handed on. -/
theorem andThen_eq_some {first : Run Value} {next : Value → Run Value} {result : Value} :
    (first.andThen next) before = some (result, after) ↔
      ∃ value middle, first before = some (value, middle) ∧
        (value.interrupts = true ∧ value = result ∧ middle = after ∨
          value.interrupts = false ∧ next value middle = some (result, after)) := by
  simp only [andThen, bind_eq_some]
  apply exists_congr
  intro value
  apply exists_congr
  intro middle
  cases interrupts : value.interrupts <;> simp

theorem andThen_of_passed {first : Run Value} {next : Value → Run Value} {value : Value}
    {middle : Store} (ended : first before = some (value, middle))
    (passed : value.interrupts = false) : (first.andThen next) before = next value middle := by
  change (first before).bind (fun step => (if step.1.interrupts then pure step.1 else next step.1 :
    Run Value) step.2) = _
  rw [ended, Option.bind_some, passed]
  rfl

theorem andThen_congr {first : Run Value} {next other : Value → Run Value}
    (agree : ∀ value, value.interrupts = false → next value = other value) :
    first.andThen next = first.andThen other := by
  unfold andThen
  congr
  funext value
  cases interrupts : value.interrupts with
  | true => rfl
  | false => exact agree value interrupts

theorem andThen_assoc (first : Run Value) (next last : Value → Run Value) :
    (first.andThen next).andThen last = first.andThen fun value => (next value).andThen last := by
  simp only [andThen, bind_assoc]
  congr
  funext value
  cases interrupts : value.interrupts with
  | true => simp [interrupts]
  | false => rfl

theorem andThen_pure (first : Run Value) : first.andThen Pure.pure = first := by
  simp [andThen]

/-! ## Waiting for a part -/

/-- A whole that waits for one of its parts: it has no end unless the part has one, and an
interruption of the part ends it at once, with an answer of its own. -/
def Awaits (part : Option (Value × Store)) (answer : Value → α)
    (whole : Option (α × Store)) : Prop :=
  ∃ continuation : Value → Store → Option (α × Store),
    whole = part.bind (fun step => continuation step.1 step.2) ∧
      ∀ value store, value.interrupts = true → continuation value store = some (answer value, store)

namespace Awaits

variable {part : Option (Value × Store)}

theorem refl (part : Option (Value × Store)) : Awaits part id part := by
  refine ⟨fun value store => some (value, store), ?_, fun _ _ _ => rfl⟩
  cases part <;> rfl

theorem bind {answer : Value → α} {final : Value → β} {first : Run α} {next : α → Run β}
    (awaits : Awaits part answer (first before))
    (handsOn : ∀ value store, value.interrupts = true →
      next (answer value) store = some (final value, store)) :
    Awaits part final ((first >>= next) before) := by
  obtain ⟨continuation, factors, interrupted⟩ := awaits
  refine ⟨fun value store => (continuation value store).bind fun step => next step.1 step.2, ?_, ?_⟩
  · change (first before).bind (fun step => next step.1 step.2) = _
    rw [factors, Option.bind_assoc]
  · intro value store interrupts
    change (continuation value store).bind (fun step => next step.1 step.2) = _
    rw [interrupted value store interrupts, Option.bind_some]
    exact handsOn value store interrupts

theorem andThen {first : Run Value} {next : Value → Run Value}
    (awaits : Awaits part id (first before)) : Awaits part id ((first.andThen next) before) := by
  apply awaits.bind
  intro value store interrupts
  rw [id, interrupts]
  rfl

theorem of_ended {answer : Value → β} {first : Run α} {next : α → Run β} {value : α}
    {middle : Store} (ended : first before = some (value, middle))
    (awaits : Awaits part answer (next value middle)) :
    Awaits part answer ((first >>= next) before) := by
  change Awaits part answer ((first before).bind fun step => next step.1 step.2)
  rw [ended]
  exact awaits

theorem of_passed {answer : Value → Value} {first : Run Value} {next : Value → Run Value}
    {value : Value} {middle : Store} (ended : first before = some (value, middle))
    (passed : value.interrupts = false) (awaits : Awaits part answer (next value middle)) :
    Awaits part answer ((first.andThen next) before) := by
  rw [andThen_of_passed ended passed]
  exact awaits

theorem map {answer : Value → α} {whole : Option (α × Store)} (awaits : Awaits part answer whole)
    (f : α → β) :
    Awaits part (f ∘ answer) (whole.map fun step => (f step.1, step.2)) := by
  obtain ⟨continuation, rfl, interrupted⟩ := awaits
  refine ⟨fun value store => (continuation value store).map fun step => (f step.1, step.2), ?_, ?_⟩
  · rw [Option.map_bind]
    rfl
  · intro value store interrupts
    change (continuation value store).map (fun step => (f step.1, step.2)) = _
    rw [interrupted value store interrupts]
    rfl

theorem ends {answer : Value → α} {whole : Option (α × Store)} (awaits : Awaits part answer whole)
    (ended : whole.isSome = true) : part.isSome = true := by
  obtain ⟨continuation, rfl, _⟩ := awaits
  cases part with
  | none => exact ended
  | some step => rfl

theorem interrupted {answer : Value → α} {whole : Option (α × Store)} {value : Value}
    {store : Store} (awaits : Awaits part answer whole) (ended : part = some (value, store))
    (interrupts : value.interrupts = true) : whole = some (answer value, store) := by
  obtain ⟨continuation, rfl, interrupted⟩ := awaits
  rw [ended, Option.bind_some]
  exact interrupted value store interrupts

end Awaits

end Run

namespace Evaluate

variable {library : Library} {apply : Applier} {scope : FrameId} {before middle after : Store}

/-- What an identifier stands for in a store. -/
def resolve (library : Library) (store : Store) (scope : FrameId) (name : String) : Value :=
  match store.lookup scope name, library.find? name with
  | some value, _ => value
  | none, some builtin => .builtin name builtin
  | none, none => (RuntimeError.identifierNotFound name).toValue

theorem identifier_eq (name : String) :
    identifier library scope name before = some (resolve library before scope name, before) := by
  have found : Run.lookup scope name before = some (before.lookup scope name, before) := rfl
  refine Run.bind_eq_some.2 ⟨_, _, found, ?_⟩
  unfold resolve
  cases before.lookup scope name with
  | some value => rfl
  | none => cases library.find? name <;> rfl

/-! ## Expressions in a row -/

theorem expressions_nil_eq_some {outcome : Except Value (List Value)} :
    expressions library apply scope [] before = some (outcome, after) ↔
      .ok [] = outcome ∧ before = after := by
  simp only [expressions, Run.pure_eq_some]

theorem expressions_cons_eq_some {expr : Expr} {rest : List Expr}
    {outcome : Except Value (List Value)} :
    expressions library apply scope (expr :: rest) before = some (outcome, after) ↔
      ∃ value middle, expression library apply scope expr before = some (value, middle) ∧
        (value.interrupts = true ∧ .error value = outcome ∧ middle = after ∨
          value.interrupts = false ∧ ∃ others,
            expressions library apply scope rest middle = some (others, after) ∧
              others.map (value :: ·) = outcome) := by
  simp only [expressions, Run.bind_eq_some]
  apply exists_congr
  intro value
  apply exists_congr
  intro middle
  apply and_congr_right
  intro _
  cases interrupts : value.interrupts with
  | true => simp
  | false =>
      simp only [Bool.false_eq_true, if_false, Run.bind_eq_some, false_and, true_and, false_or]
      constructor
      · rintro ⟨others, store, ended, concluded⟩
        cases others with
        | error interruption | ok values =>
            simp only [Run.pure_eq_some] at concluded
            obtain ⟨rfl, rfl⟩ := concluded
            exact ⟨_, ended, rfl⟩
      · rintro ⟨others, ended, rfl⟩
        refine ⟨others, after, ended, ?_⟩
        cases others <;> rfl

theorem expressions_cons_of_passed {expr : Expr} {rest : List Expr} {value : Value}
    (ended : expression library apply scope expr before = some (value, middle))
    (passed : value.interrupts = false) :
    expressions library apply scope (expr :: rest) before =
      (expressions library apply scope rest middle).map fun step =>
        (step.1.map (value :: ·), step.2) := by
  apply Option.ext
  intro step
  obtain ⟨outcome, last⟩ := step
  rw [expressions_cons_eq_some]
  simp only [ended, passed, Option.some.injEq, Prod.mk.injEq, Bool.false_eq_true, false_and,
    true_and, false_or, and_assoc, exists_eq_left', exists_and_left, Option.map_eq_some_iff,
    Prod.exists, exists_eq_right_right]

/-- After a front whose values are known, only the rest is left to evaluate. -/
theorem expressions_append_of_ok {front back : List Expr} {values : List Value}
    (ended : expressions library apply scope front before = some (.ok values, middle)) :
    expressions library apply scope (front ++ back) before =
      (expressions library apply scope back middle).map fun step =>
        (step.1.map (values ++ ·), step.2) := by
  induction front generalizing before values with
  | nil =>
      rw [expressions_nil_eq_some] at ended
      obtain ⟨valuesEq, rfl⟩ := ended
      cases valuesEq
      rw [List.nil_append]
      cases expressions library apply scope back before with
      | none => rfl
      | some step => obtain ⟨outcome | outcome, store⟩ := step <;> rfl
  | cons expr front ih =>
      rw [expressions_cons_eq_some] at ended
      obtain ⟨value, store, first, continued⟩ := ended
      rcases continued with ⟨_, impossible, _⟩ | ⟨passed, others, rest, mapped⟩
      · cases impossible
      · cases others with
        | error interruption => cases mapped
        | ok others =>
            injection mapped with valuesEq
            subst valuesEq
            rw [List.cons_append, expressions_cons_of_passed first passed, ih rest]
            cases expressions library apply scope back middle with
            | none => rfl
            | some step => obtain ⟨outcome | outcome, store⟩ := step <;> rfl

theorem awaits_expressions {front back : List Expr} {expr : Expr} {values : List Value}
    (ended : expressions library apply scope front before = some (.ok values, middle)) :
    Run.Awaits (expression library apply scope expr middle) .error
      (expressions library apply scope (front ++ expr :: back) before) := by
  rw [expressions_append_of_ok ended]
  have awaits : Run.Awaits (expression library apply scope expr middle) Except.error
      (expressions library apply scope (expr :: back) middle) := by
    apply (Run.Awaits.refl _).bind
    intro value store interrupts
    rw [id, interrupts]
    rfl
  exact awaits.map (Except.map (values ++ ·))

/-! ## Pairs in a row -/

theorem entries_nil_eq_some {found : Entries Value} {outcome : Except Value (Entries Value)} :
    entries library apply scope [] found before = some (outcome, after) ↔
      .ok found = outcome ∧ before = after := by
  simp only [entries, Run.pure_eq_some]

theorem entries_cons_eq_some {keyExpr valueExpr : Expr} {rest : List (Expr × Expr)}
    {found : Entries Value} {outcome : Except Value (Entries Value)} :
    entries library apply scope ((keyExpr, valueExpr) :: rest) found before =
        some (outcome, after) ↔
      ∃ index middle, expression library apply scope keyExpr before = some (index, middle) ∧
        (index.interrupts = true ∧ .error index = outcome ∧ middle = after ∨
          index.interrupts = false ∧ ∃ value last,
            expression library apply scope valueExpr middle = some (value, last) ∧
              (value.interrupts = true ∧ .error value = outcome ∧ last = after ∨
                value.interrupts = false ∧
                  (index.key? = none ∧
                      .error (RuntimeError.unusableKey index.type).toValue = outcome ∧
                        last = after ∨
                    ∃ key, index.key? = some key ∧
                      entries library apply scope rest (found.insert key value) last =
                        some (outcome, after)))) := by
  simp only [entries, Run.bind_eq_some]
  apply exists_congr
  intro index
  apply exists_congr
  intro middle
  apply and_congr_right
  intro _
  cases interrupts : index.interrupts with
  | true => simp
  | false =>
      simp only [Bool.false_eq_true, if_false, Run.bind_eq_some, false_and, true_and, false_or]
      apply exists_congr
      intro value
      apply exists_congr
      intro last
      apply and_congr_right
      intro _
      cases interrupts : value.interrupts with
      | true => simp
      | false => cases index.key? <;> simp

/-- After a front whose pairs are inserted, only the rest is left to insert. -/
theorem entries_append_of_ok {front back : List (Expr × Expr)} {start found : Entries Value}
    (ended : entries library apply scope front start before = some (.ok found, middle)) :
    entries library apply scope (front ++ back) start before =
      entries library apply scope back found middle := by
  induction front generalizing before start with
  | nil =>
      rw [entries_nil_eq_some] at ended
      obtain ⟨foundEq, rfl⟩ := ended
      cases foundEq
      rfl
  | cons pair front ih =>
      obtain ⟨keyExpr, valueExpr⟩ := pair
      rw [entries_cons_eq_some] at ended
      obtain ⟨index, store, first, continued⟩ := ended
      rcases continued with ⟨_, impossible, _⟩ | ⟨passed, value, last, second, continued⟩
      · cases impossible
      · rcases continued with
          ⟨_, impossible, _⟩ | ⟨handed, ⟨_, impossible, _⟩ | ⟨key, usable, rest⟩⟩
        · cases impossible
        · cases impossible
        · rw [← ih rest]
          apply Option.ext
          intro step
          obtain ⟨outcome, final⟩ := step
          rw [List.cons_append, entries_cons_eq_some]
          simp only [first, second, passed, handed, usable, Option.some.injEq, Prod.mk.injEq,
            Bool.false_eq_true, reduceCtorEq, false_and, true_and, false_or, and_assoc,
            exists_eq_left', exists_and_left]

theorem entries_cons_of_passed {keyExpr valueExpr : Expr} {rest : List (Expr × Expr)}
    {found : Entries Value} {index value : Value}
    (keyEnded : expression library apply scope keyExpr before = some (index, middle))
    (keyPassed : index.interrupts = false)
    (valueEnded : expression library apply scope valueExpr middle = some (value, after))
    (valuePassed : value.interrupts = false) :
    entries library apply scope ((keyExpr, valueExpr) :: rest) found before =
      match index.key? with
      | none => some (.error (RuntimeError.unusableKey index.type).toValue, after)
      | some key => entries library apply scope rest (found.insert key value) after := by
  cases usable : index.key? with
  | none =>
      exact entries_cons_eq_some.2 ⟨index, middle, keyEnded, .inr ⟨keyPassed, value, after,
        valueEnded, .inr ⟨valuePassed, .inl ⟨usable, rfl, rfl⟩⟩⟩⟩
  | some key =>
      have inserted : entries library apply scope [(keyExpr, valueExpr)] found before =
          some (.ok (found.insert key value), after) :=
        entries_cons_eq_some.2 ⟨index, middle, keyEnded, .inr ⟨keyPassed, value, after,
          valueEnded, .inr ⟨valuePassed, .inr ⟨key, usable, rfl⟩⟩⟩⟩
      exact entries_append_of_ok inserted

theorem awaits_key {front back : List (Expr × Expr)} {keyExpr valueExpr : Expr}
    {start found : Entries Value}
    (ended : entries library apply scope front start before = some (.ok found, middle)) :
    Run.Awaits (expression library apply scope keyExpr middle) .error
      (entries library apply scope (front ++ (keyExpr, valueExpr) :: back) start before) := by
  rw [entries_append_of_ok ended]
  apply (Run.Awaits.refl _).bind
  intro value store interrupts
  rw [id, interrupts]
  rfl

theorem awaits_entryValue {front back : List (Expr × Expr)} {keyExpr valueExpr : Expr}
    {start found : Entries Value} {index : Value} {last : Store}
    (ended : entries library apply scope front start before = some (.ok found, middle))
    (keyEnded : expression library apply scope keyExpr middle = some (index, last))
    (passed : index.interrupts = false) :
    Run.Awaits (expression library apply scope valueExpr last) .error
      (entries library apply scope (front ++ (keyExpr, valueExpr) :: back) start before) := by
  rw [entries_append_of_ok ended]
  apply Run.Awaits.of_ended keyEnded
  rw [passed]
  apply (Run.Awaits.refl _).bind
  intro value store interrupts
  rw [id, interrupts]
  rfl

/-! ## Statements in a row -/

theorem block_nil_eq_some {start result : Value} :
    block library apply scope start [] before = some (result, after) ↔
      start = result ∧ before = after := by
  simp only [block, Run.pure_eq_some]

theorem block_cons_eq_some {stmt : Stmt} {rest : List Stmt} {start result : Value} :
    block library apply scope start (stmt :: rest) before = some (result, after) ↔
      ∃ value middle, statement library apply scope stmt before = some (value, middle) ∧
        (value.interrupts = true ∧ value = result ∧ middle = after ∨
          value.interrupts = false ∧
            block library apply scope value rest middle = some (result, after)) := by
  simp only [block, Run.andThen_eq_some]

/-- After a front that does not interrupt, only the rest is left to run. -/
theorem block_append_of_passed {front back : List Stmt} {start value : Value}
    (ended : block library apply scope start front before = some (value, middle))
    (passed : value.interrupts = false) :
    block library apply scope start (front ++ back) before =
      block library apply scope value back middle := by
  induction front generalizing before start with
  | nil =>
      rw [block_nil_eq_some] at ended
      obtain ⟨rfl, rfl⟩ := ended
      rfl
  | cons stmt front ih =>
      rw [block_cons_eq_some] at ended
      obtain ⟨first, store, run, continued⟩ := ended
      rcases continued with ⟨interrupts, rfl, _⟩ | ⟨handed, rest⟩
      · rw [passed] at interrupts
        cases interrupts
      · rw [← ih rest]
        apply Option.ext
        intro step
        obtain ⟨result, final⟩ := step
        rw [List.cons_append, block_cons_eq_some]
        simp only [run, handed, Option.some.injEq, Prod.mk.injEq, Bool.false_eq_true, false_and,
          true_and, false_or, and_assoc, exists_eq_left', exists_and_left]

/-- Statements after others are run unless those interrupt. -/
theorem block_append {start : Value} (handed : start.interrupts = false) (front back : List Stmt) :
    block library apply scope start (front ++ back) =
      (block library apply scope start front).andThen fun value =>
        block library apply scope value back := by
  induction front generalizing start with
  | nil => simp [block, Run.andThen, handed]
  | cons stmt front ih =>
      simp only [List.cons_append, block, Run.andThen_assoc]
      exact Run.andThen_congr fun value passed => ih passed

/-- What interrupts a block interrupts one of its statements. -/
theorem exists_statement_of_block {start value : Value} {stmts : List Stmt} {before after : Store}
    (handed : start.interrupts = false) (interrupts : value.interrupts = true)
    (ended : block library apply scope start stmts before = some (value, after)) :
    ∃ front stmt back result middle, stmts = front ++ stmt :: back ∧
      block library apply scope start front before = some (result, middle) ∧
      result.interrupts = false ∧ statement library apply scope stmt middle = some (value, after) := by
  induction stmts generalizing start before with
  | nil =>
      obtain ⟨rfl, _⟩ := block_nil_eq_some.1 ended
      rw [handed] at interrupts
      cases interrupts
  | cons stmt rest ih =>
      obtain ⟨result, middle, run, ⟨_, rfl, rfl⟩ | ⟨passed, continued⟩⟩ :=
        block_cons_eq_some.1 ended
      · exact ⟨[], stmt, rest, start, before, rfl, rfl, handed, run⟩
      · obtain ⟨front, last, back, lastResult, lastMiddle, rfl, frontEnded, frontPassed, lastRun⟩ :=
          ih passed continued
        exact ⟨stmt :: front, last, back, lastResult, lastMiddle, rfl,
          block_cons_eq_some.2 ⟨result, middle, run, .inr ⟨passed, frontEnded⟩⟩, frontPassed,
          lastRun⟩

theorem awaits_statement {front back : List Stmt} {stmt : Stmt} {start value : Value}
    (ended : block library apply scope start front before = some (value, middle))
    (passed : value.interrupts = false) :
    Run.Awaits (statement library apply scope stmt middle) id
      (block library apply scope start (front ++ stmt :: back) before) := by
  rw [block_append_of_passed ended passed]
  exact (Run.Awaits.refl _).andThen

end Evaluate

end Scriptlet
