import Scriptlet.Proofs.Evaluate.Ledger

/-!
# Every evaluation is accounted for

For each kind of task: if one ledger accounts for all that the task starts, one ledger accounts for
the task.  The parts are followed in the order in which they are started; the ledger grows from part
to part, and what earlier parts have yielded stays filed in it while it waits to be used.
-/

namespace Scriptlet

theorem Run.Awaits.unfinished {α : Type} {part : Option (Value × Store)} {answer : Value → α}
    {whole : Option (α × Store)} (awaits : Awaits part answer whole) (noEnd : part = none) :
    whole = none := by
  obtain ⟨continuation, rfl, _⟩ := awaits
  rw [noEnd]
  rfl

namespace Evaluate

/-- What a row of parts has yielded is filed: an interruption, which has no identity, or the values
of all parts. -/
def RowFiled {α : Type} (complete : Ledger → Identity → α → Prop) (ledger : Ledger)
    (limit : Identity) : Except Value α → Prop
  | .error interruption => interruption.identity? = none ∧ interruption.Filed ledger limit
  | .ok found => complete ledger limit found

/-- The values of a list are filed. -/
def AllFiled (ledger : Ledger) (limit : Identity) (values : List Value) : Prop :=
  ∀ value ∈ values, value.Filed ledger limit

/-- The values of some entries are filed, and their keys are different. -/
def EntriesFiled (ledger : Ledger) (limit : Identity) (found : Entries Value) : Prop :=
  found.keys.Nodup ∧ ∀ entry ∈ found, entry.2.Filed ledger limit

theorem AllFiled.later {earlier later : Ledger} {limit wider : Identity} {values : List Value}
    (filed : AllFiled earlier limit values) (agrees : later.AgreesBelow limit earlier)
    (notLower : limit ≤ wider) : AllFiled later wider values :=
  fun value member => (filed value member).later agrees notLower

theorem entriesFiled_nil {ledger : Ledger} {limit : Identity} : EntriesFiled ledger limit [] :=
  ⟨List.nodup_nil, nofun⟩

theorem EntriesFiled.later {earlier later : Ledger} {limit wider : Identity}
    {found : Entries Value} (filed : EntriesFiled earlier limit found)
    (agrees : later.AgreesBelow limit earlier) (notLower : limit ≤ wider) :
    EntriesFiled later wider found :=
  ⟨filed.1, fun entry member => (filed.2 entry member).later agrees notLower⟩

theorem identity?_of_interrupts {value : Value} (interrupts : value.interrupts = true) :
    value.identity? = none := by
  cases value with
  | array | dictionary | function => cases interrupts
  | _ => rfl

/-- What comes after a whole comes after the last part of it, once the parts before are done. -/
theorem Continues.onward {α : Type} {ledger final : Ledger} {clock later : Identity}
    {yields : Ledger → Identity → α → Prop} {whole part : Option (α × Store)} {rest : List Moment}
    (continues : Continues ledger clock yields whole rest) (same : whole = part)
    (agrees : final.AgreesBelow clock ledger) (notBefore : clock ≤ later) :
    Continues final later yields part rest where
  unfinished noEnd := continues.unfinished (same.trans noEnd)
  finished outcome after further ended agreesFurther notBeforeFurther :=
    continues.finished outcome after further (same.trans ended)
      (agreesFurther.trans notBefore agrees) (Nat.le_trans notBefore notBeforeFurther)

/-- A builtin that is given filed values hands on a filed value, or makes an array of them. -/
theorem call_filed {ledger : Ledger} {store : Store} (operation : Builtin) {arguments : List Value}
    (filed : AllFiled ledger store.nextIdentity arguments) :
    (∃ result, operation.call arguments store = some (result, store) ∧
        result.Filed ledger store.nextIdentity ∧
        (operation = .tail ∨ operation = .push → result.identity? = none)) ∨
      ∃ elements, operation.call arguments store =
          some (.array store.nextIdentity elements,
            { store with nextIdentity := store.nextIdentity + 1 }) ∧
        AllFiled ledger store.nextIdentity elements := by
  have elementsFiled {identity : Identity} {elements others : List Value}
      (given : arguments = .array identity elements :: others) :
      AllFiled ledger store.nextIdentity elements := by
    rw [given] at filed
    exact (Value.filed_array_iff.1 (List.forall_mem_cons.1 filed).1).2.2
  cases operation with
  | len =>
      change (∃ result, Builtin.callLen arguments store = _ ∧ _) ∨ _
      unfold Builtin.callLen
      split <;> exact .inl ⟨_, rfl, Value.filed_of_isAtom rfl, by simp⟩
  | first =>
      change (∃ result, Builtin.callFirst arguments store = _ ∧ _) ∨ _
      unfold Builtin.callFirst
      split
      · exact .inl ⟨_, rfl, Value.filed_getD_null fun value found =>
          elementsFiled rfl value (List.mem_of_mem_head? found), by simp⟩
      · exact .inl ⟨_, rfl, Value.filed_of_isAtom rfl, by simp⟩
      · exact .inl ⟨_, rfl, Value.filed_of_isAtom rfl, by simp⟩
  | last =>
      change (∃ result, Builtin.callLast arguments store = _ ∧ _) ∨ _
      unfold Builtin.callLast
      split
      · exact .inl ⟨_, rfl, Value.filed_getD_null fun value found =>
          elementsFiled rfl value (List.mem_of_getLast? found), by simp⟩
      · exact .inl ⟨_, rfl, Value.filed_of_isAtom rfl, by simp⟩
      · exact .inl ⟨_, rfl, Value.filed_of_isAtom rfl, by simp⟩
  | tail =>
      change (∃ result, Builtin.callTail arguments store = _ ∧ _) ∨ _
      unfold Builtin.callTail
      split
      · exact .inr ⟨_, rfl, fun value member =>
          elementsFiled rfl value (List.mem_of_mem_tail member)⟩
      · exact .inl ⟨_, rfl, Value.filed_of_isAtom rfl, fun _ => rfl⟩
      · exact .inl ⟨_, rfl, Value.filed_of_isAtom rfl, fun _ => rfl⟩
  | push =>
      change (∃ result, Builtin.callPush arguments store = _ ∧ _) ∨ _
      unfold Builtin.callPush
      split
      · refine .inr ⟨_, rfl, fun value member => ?_⟩
        rcases List.mem_append.1 member with old | new
        · exact elementsFiled rfl value old
        · exact filed value (List.mem_cons_of_mem _ new)
      · exact .inl ⟨_, rfl, Value.filed_of_isAtom rfl, fun _ => rfl⟩
      · exact .inl ⟨_, rfl, Value.filed_of_isAtom rfl, fun _ => rfl⟩

namespace Accounts

open Activation

variable {library : Library} {depth : Nat} {scope : FrameId} {store : Store}
variable {ledger : Ledger} {rest : List Moment}

/-- The expressions of a row that are started, and what comes after the row. -/
theorem row {exprs : List Expr}
    (accounted : ∀ child ∈ startRow library depth scope exprs store, child.Accounted library)
    (filed : store.Filed ledger)
    (continues : Continues ledger store.nextIdentity (RowFiled AllFiled)
      (expressions library (applyWithin library depth) scope exprs store) rest) :
    Accounts ledger store.nextIdentity
      ((startRow library depth scope exprs store).flatMap (moments library) ++ rest) := by
  induction exprs generalizing store ledger with
  | nil =>
      exact continues.finished (.ok []) store ledger rfl (fun _ _ => rfl) (Nat.le_refl _) filed
        (List.forall_mem_nil _)
  | cons expr exprs ih =>
      simp only [startRow, mem_thenStart_iff] at accounted
      refine thenStart (accounted _ (.inl rfl)) ⟨filed, List.forall_mem_nil _⟩ ?_ ?_
      · intro noEnd
        have awaits := @awaits_expressions library (applyWithin library depth) scope store store []
          exprs expr [] rfl
        exact continues.unfinished (awaits.unfinished noEnd)
      · intro value after final ended agrees notBefore afterFiled valueFiled
        cases interrupts : value.interrupts with
        | true =>
            have whole : expressions library (applyWithin library depth) scope (expr :: exprs)
                store = some (.error value, after) :=
              expressions_cons_eq_some.2 ⟨value, after, ended, .inl ⟨interrupts, rfl, rfl⟩⟩
            exact continues.finished _ after final whole agrees notBefore afterFiled
              ⟨identity?_of_interrupts interrupts, valueFiled⟩
        | false =>
            have whole := @expressions_cons_of_passed library (applyWithin library depth) scope
              store after expr exprs value ended interrupts
            refine ih (fun child member => ?_) afterFiled ⟨fun noEnd => ?_, ?_⟩
            · exact accounted child (.inr ⟨value, after, ⟨ended, interrupts⟩, member⟩)
            · exact continues.unfinished (by rw [whole, noEnd]; rfl)
            · intro outcome last others endedOthers agreesOthers notBeforeOthers lastFiled
                outcomeFiled
              refine continues.finished (outcome.map (value :: ·)) last others
                (by rw [whole, endedOthers]; rfl) (agreesOthers.trans notBefore agrees)
                (Nat.le_trans notBefore notBeforeOthers) lastFiled ?_
              cases outcome with
              | error interruption => exact outcomeFiled
              | ok values =>
                  exact List.forall_mem_cons.2
                    ⟨valueFiled.later agreesOthers notBeforeOthers, outcomeFiled⟩

/-- The keys and values of a dictionary literal that are started, and what comes after them. -/
theorem pairs {pairs : List (Expr × Expr)} {found : Entries Value}
    (accounted : ∀ child ∈ startPairs library depth scope pairs store, child.Accounted library)
    (filed : store.Filed ledger) (foundFiled : EntriesFiled ledger store.nextIdentity found)
    (continues : Continues ledger store.nextIdentity (RowFiled EntriesFiled)
      (entries library (applyWithin library depth) scope pairs found store) rest) :
    Accounts ledger store.nextIdentity
      ((startPairs library depth scope pairs store).flatMap (moments library) ++ rest) := by
  induction pairs generalizing store ledger found with
  | nil =>
      exact continues.finished (.ok found) store ledger rfl (fun _ _ => rfl) (Nat.le_refl _) filed
        foundFiled
  | cons pair pairs ih =>
      obtain ⟨keyExpr, valueExpr⟩ := pair
      simp only [startPairs, mem_thenStart_iff] at accounted
      refine thenStart (accounted _ (.inl rfl)) ⟨filed, List.forall_mem_nil _⟩ ?_ ?_
      · intro noEnd
        have awaits := @awaits_key library (applyWithin library depth) scope store store [] pairs
          keyExpr valueExpr found found rfl
        exact continues.unfinished (awaits.unfinished noEnd)
      · intro index middle final ended agrees notBefore middleFiled indexFiled
        cases interrupts : index.interrupts with
        | true =>
            have whole : entries library (applyWithin library depth) scope
                ((keyExpr, valueExpr) :: pairs) found store = some (.error index, middle) :=
              entries_cons_eq_some.2 ⟨index, middle, ended, .inl ⟨interrupts, rfl, rfl⟩⟩
            exact continues.finished _ middle final whole agrees notBefore middleFiled
              ⟨identity?_of_interrupts interrupts, indexFiled⟩
        | false =>
            refine thenStart (accounted _ (.inr ⟨index, middle, ⟨ended, interrupts⟩, .inl rfl⟩))
              ⟨middleFiled, List.forall_mem_nil _⟩ ?_ ?_
            · intro noEnd
              have awaits := @awaits_entryValue library (applyWithin library depth) scope store
                store [] pairs keyExpr valueExpr found found index middle rfl ended interrupts
              exact continues.unfinished (awaits.unfinished noEnd)
            · intro value after others valueEnded agreesValue notBeforeValue afterFiled valueFiled
              have agreesBoth := agreesValue.trans notBefore agrees
              have notBeforeBoth := Nat.le_trans notBefore notBeforeValue
              cases handed : value.interrupts with
              | true =>
                  have whole : entries library (applyWithin library depth) scope
                      ((keyExpr, valueExpr) :: pairs) found store = some (.error value, after) :=
                    entries_cons_eq_some.2 ⟨index, middle, ended, .inr ⟨interrupts, value, after,
                      valueEnded, .inl ⟨handed, rfl, rfl⟩⟩⟩
                  exact continues.finished _ after others whole agreesBoth notBeforeBoth afterFiled
                    ⟨identity?_of_interrupts handed, valueFiled⟩
              | false =>
                  have whole := @entries_cons_of_passed library (applyWithin library depth) scope
                    store middle after keyExpr valueExpr pairs found index value ended interrupts
                    valueEnded handed
                  cases usable : index.key? with
                  | none =>
                      rw [usable] at whole
                      exact continues.finished _ after others whole agreesBoth notBeforeBoth
                        afterFiled ⟨rfl, Value.filed_of_isAtom rfl⟩
                  | some key =>
                      rw [usable] at whole
                      have stillFiled := foundFiled.later agreesBoth notBeforeBoth
                      refine ih (fun child member => ?_) afterFiled
                        ⟨Entries.nodup_keys_insert stillFiled.1 key value,
                          Entries.forall_mem_insert stillFiled.2 valueFiled⟩
                        (continues.onward whole agreesBoth notBeforeBoth)
                      refine accounted child (.inr ⟨index, middle, ⟨ended, interrupts⟩,
                        .inr ⟨value, after, ⟨valueEnded, handed⟩, ?_⟩⟩)
                      rw [usable]
                      exact member

/-- The statements of a row that are started, and what comes after them. -/
theorem statements {stmts : List Stmt} {start : Value}
    (accounted : ∀ child ∈ startStatements library depth scope stmts store,
      child.Accounted library)
    (filed : store.Filed ledger) (startFiled : start.Filed ledger store.nextIdentity)
    (continues : Continues ledger store.nextIdentity Value.Filed
      (block library (applyWithin library depth) scope start stmts store) rest) :
    Accounts ledger store.nextIdentity
      ((startStatements library depth scope stmts store).flatMap (moments library) ++ rest) := by
  induction stmts generalizing store ledger start with
  | nil =>
      exact continues.finished start store ledger rfl (fun _ _ => rfl) (Nat.le_refl _) filed
        startFiled
  | cons stmt stmts ih =>
      simp only [startStatements, mem_thenStart_iff] at accounted
      refine thenStart (accounted _ (.inl rfl)) ⟨filed, List.forall_mem_nil _⟩ ?_ ?_
      · intro noEnd
        have awaits : Run.Awaits (statement library (applyWithin library depth) scope stmt store) id
            (block library (applyWithin library depth) scope start (stmt :: stmts) store) :=
          (Run.Awaits.refl _).andThen
        exact continues.unfinished (awaits.unfinished noEnd)
      · intro value after final ended agrees notBefore afterFiled valueFiled
        cases interrupts : value.interrupts with
        | true =>
            have whole : block library (applyWithin library depth) scope start (stmt :: stmts)
                store = some (value, after) :=
              block_cons_eq_some.2 ⟨value, after, ended, .inl ⟨interrupts, rfl, rfl⟩⟩
            exact continues.finished value after final whole agrees notBefore afterFiled valueFiled
        | false =>
            have whole : block library (applyWithin library depth) scope start (stmt :: stmts)
                store = block library (applyWithin library depth) scope value stmts after :=
              Run.andThen_of_passed ended interrupts
            refine ih (fun child member => ?_) afterFiled valueFiled
              (continues.onward whole agrees notBefore)
            exact accounted child (.inr ⟨value, after, ⟨ended, interrupts⟩, member⟩)

end Accounts

/-! ## Activations -/

namespace Activation

variable {library : Library} {activation first : Activation} {ledger : Ledger}
variable {result : Value} {after : Store}

theorem ending_of_run (ended : activation.run library = some (result, after)) :
    activation.ending library = [.ended activation result after] := by
  rw [ending, ended]

theorem ending_of_unfinished (noEnd : activation.run library = none) :
    activation.ending library = [] := by
  rw [ending, noEnd]

/-- The start of an activation comes before all that it starts. -/
theorem accounted_of_parts (accounts : ∀ ledger, (Moment.started activation).Filed ledger →
      Accounts ledger activation.store.nextIdentity
        ((activation.started library).flatMap (moments library) ++ activation.ending library)) :
    activation.Accounted library := by
  intro ledger filed
  rw [moments_eq]
  exact Accounts.cons_started filed (accounts ledger filed)

/-- An activation that ends by handing on what is filed. -/
theorem accounts_ending {clock : Identity} (ended : activation.run library = some (result, after))
    (afterFiled : after.Filed ledger) (resultFiled : result.Filed ledger after.nextIdentity)
    (notMade : activation.task.makes = true → result.identity? = none)
    (notBefore : clock ≤ after.nextIdentity) :
    Accounts ledger clock (activation.ending library) := by
  rw [ending_of_run ended]
  exact Accounts.handedOn afterFiled resultFiled notMade notBefore

theorem accounts_atom {clock : Identity} (ended : activation.run library = some (result, after))
    (afterFiled : after.Filed ledger) (atom : result.isAtom = true)
    (notBefore : clock ≤ after.nextIdentity) :
    Accounts ledger clock (activation.ending library) := by
  refine accounts_ending ended afterFiled (Value.filed_of_isAtom atom) (fun _ => ?_) notBefore
  cases result with
  | array | dictionary | function => cases atom
  | _ => rfl

/-- An activation that ends by making a composite. -/
theorem accounts_made {store : Store} (ended : activation.run library =
      some (result, { store with nextIdentity := store.nextIdentity + 1 }))
    (storeFiled : store.Filed ledger) (carries : result.identity? = some store.nextIdentity)
    (filed : ∀ final : Ledger, final.AgreesBelow store.nextIdentity ledger →
      final store.nextIdentity = result → result.Filed final (store.nextIdentity + 1)) :
    Accounts ledger store.nextIdentity (activation.ending library) := by
  rw [ending_of_run ended]
  exact Accounts.made storeFiled carries filed (Nat.le_refl _)

/-- An interrupted part ends the activation, unless that is a call or a program, with the same
value. -/
theorem accounts_interrupted {child : Activation} {value : Value}
    (calls : Calls library activation child) (handsOn : activation.task.answer = id)
    (ended : child.run library = some (value, after)) (interrupts : value.interrupts = true)
    (afterFiled : after.Filed ledger) (valueFiled : value.Filed ledger after.nextIdentity) :
    Accounts ledger after.nextIdentity (activation.ending library) := by
  have endedToo := calls.awaits.interrupted ended interrupts
  rw [handsOn] at endedToo
  exact accounts_ending endedToo afterFiled valueFiled
    (fun _ => identity?_of_interrupts interrupts) (Nat.le_refl _)

/-- A part and what is started after it. -/
theorem accounts_thenStart {next : Value → Store → List Activation}
    (calls : Calls library activation first) (handsOn : activation.task.answer = id)
    (accounted : first.Accounted library) (filed : (Moment.started first).Filed ledger)
    (passes : ∀ value after final, Passes library first value after →
      Ledger.AgreesBelow first.store.nextIdentity final ledger →
      first.store.nextIdentity ≤ after.nextIdentity → after.Filed final →
      value.Filed final after.nextIdentity →
      Accounts final after.nextIdentity
        ((next value after).flatMap (moments library) ++ activation.ending library)) :
    Accounts ledger first.store.nextIdentity
      ((thenStart library first next).flatMap (moments library) ++ activation.ending library) := by
  refine Accounts.thenStart accounted filed ?_ ?_
  · intro noEnd
    exact ending_of_unfinished (calls.awaits.unfinished noEnd)
  · intro value after final ended agrees notBefore afterFiled valueFiled
    cases interrupts : value.interrupts with
    | true => exact accounts_interrupted calls handsOn ended interrupts afterFiled valueFiled
    | false =>
        exact passes value after final ⟨ended, interrupts⟩ agrees notBefore afterFiled valueFiled

/-- The last part of an activation. -/
theorem accounts_last {last : Activation} (calls : Calls library activation last)
    (handsOn : activation.task.answer = id) (accounted : last.Accounted library)
    (filed : (Moment.started last).Filed ledger)
    (passes : ∀ value after final, Passes library last value after →
      Ledger.AgreesBelow last.store.nextIdentity final ledger →
      last.store.nextIdentity ≤ after.nextIdentity → after.Filed final →
      value.Filed final after.nextIdentity →
      Accounts final after.nextIdentity (activation.ending library)) :
    Accounts ledger last.store.nextIdentity
      ([last].flatMap (moments library) ++ activation.ending library) := by
  have alone : thenStart library last (fun _ _ => []) = [last] := by
    unfold thenStart
    split
    · rw [ite_self]
    · rfl
  rw [← alone]
  exact accounts_thenStart calls handsOn accounted filed passes

variable {scope : FrameId} {depth : Nat} {store : Store}

theorem accounted_expression {expr : Expr}
    (accounted : ∀ child, Calls library ⟨.expression scope expr, depth, store⟩ child →
      child.Accounted library) :
    Accounted library ⟨.expression scope expr, depth, store⟩ := by
  apply accounted_of_parts
  intro ledger filed
  have storeFiled : store.Filed ledger := filed.store
  cases expr with
  | identifier name =>
      refine accounts_ending (identifier_eq name) storeFiled ?_ nofun (Nat.le_refl _)
      unfold resolve
      split
      · next found => exact storeFiled.lookup found
      · exact Value.filed_of_isAtom rfl
      · exact Value.filed_of_isAtom rfl
  | integer numeral =>
      have ended : Activation.run library ⟨.expression scope (.integer numeral), depth, store⟩ =
        some (integer numeral, store) := rfl
      exact accounts_atom ended storeFiled rfl (Nat.le_refl _)
  | boolean value =>
      have ended : Activation.run library ⟨.expression scope (.boolean value), depth, store⟩ =
        some (.boolean value, store) := rfl
      exact accounts_atom ended storeFiled rfl (Nat.le_refl _)
  | string text =>
      have ended : Activation.run library ⟨.expression scope (.string text), depth, store⟩ =
        some (.string text, store) := rfl
      exact accounts_atom ended storeFiled rfl (Nat.le_refl _)
  | array elements =>
      refine Accounts.row (fun child member => accounted child (calls_of_mem_started member))
        storeFiled ⟨?_, ?_⟩
      · intro noEnd
        apply ending_of_unfinished
        change (expressions library (applyWithin library depth) scope elements store).bind _ = none
        rw [noEnd]
        rfl
      · intro outcome after final ended _ _ afterFiled outcomeFiled
        cases outcome with
        | error interruption =>
            exact accounts_ending (Run.bind_eq_some.2 ⟨_, _, ended, rfl⟩) afterFiled outcomeFiled.2
              (fun _ => outcomeFiled.1) (Nat.le_refl _)
        | ok values =>
            refine accounts_made (Run.bind_eq_some.2 ⟨_, _, ended, rfl⟩) afterFiled rfl ?_
            intro ledger agrees listed
            exact Value.filed_array_iff.2
              ⟨Nat.lt_succ_self _, listed, AllFiled.later outcomeFiled agrees (Nat.le_succ _)⟩
  | dictionary pairs =>
      refine Accounts.pairs (fun child member => accounted child (calls_of_mem_started member))
        storeFiled entriesFiled_nil ⟨?_, ?_⟩
      · intro noEnd
        apply ending_of_unfinished
        change (entries library (applyWithin library depth) scope pairs [] store).bind _ = none
        rw [noEnd]
        rfl
      · intro outcome after final ended _ _ afterFiled outcomeFiled
        cases outcome with
        | error interruption =>
            exact accounts_ending (Run.bind_eq_some.2 ⟨_, _, ended, rfl⟩) afterFiled outcomeFiled.2
              (fun _ => outcomeFiled.1) (Nat.le_refl _)
        | ok found =>
            refine accounts_made (Run.bind_eq_some.2 ⟨_, _, ended, rfl⟩) afterFiled rfl ?_
            intro ledger agrees listed
            exact Value.filed_dictionary_iff.2
              ⟨Nat.lt_succ_self _, listed, EntriesFiled.later outcomeFiled agrees (Nat.le_succ _)⟩
  | unary op operand =>
      refine accounts_thenStart .operand rfl (accounted _ .operand) ⟨storeFiled, nofun⟩ ?_
      intro value after final passed _ _ afterFiled _
      exact accounts_atom (Run.andThen_of_passed passed.1 passed.2) afterFiled
        (op.isAtom_apply value) (Nat.le_refl _)
  | binary left op right =>
      refine accounts_thenStart .left rfl (accounted _ .left) ⟨storeFiled, nofun⟩ ?_
      intro a middle _ passedLeft _ _ middleFiled _
      refine accounts_last (.right passedLeft) rfl (accounted _ (.right passedLeft))
        ⟨middleFiled, List.forall_mem_nil _⟩ ?_
      intro b after final passedRight _ _ afterFiled _
      have ended : Activation.run library
          ⟨.expression scope (.binary left op right), depth, store⟩ = some (op.apply a b, after) :=
        (Run.andThen_of_passed passedLeft.1 passedLeft.2).trans
          (Run.andThen_of_passed passedRight.1 passedRight.2)
      exact accounts_atom ended afterFiled (op.isAtom_apply a b) (Nat.le_refl _)
  | conditional condition consequence alternative =>
      refine accounts_thenStart .condition rfl (accounted _ .condition) ⟨storeFiled, nofun⟩ ?_
      intro value middle _ passed _ _ middleFiled _
      cases holds : value.isTruthy with
      | true =>
          refine accounts_last (.consequence passed holds) rfl
            (accounted _ (.consequence passed holds)) ⟨middleFiled, List.forall_mem_nil _⟩ ?_
          intro result after final ended _ _ afterFiled resultFiled
          refine accounts_ending ?_ afterFiled resultFiled nofun (Nat.le_refl _)
          cases alternative with
          | none | some =>
              refine (Run.andThen_of_passed passed.1 passed.2).trans ?_
              rw [if_pos holds]
              exact ended.1
      | false =>
          cases alternative with
          | none =>
              have ended : Activation.run library
                  ⟨.expression scope (.conditional condition consequence none), depth, store⟩ =
                    some (.null, middle) := by
                refine (Run.andThen_of_passed passed.1 passed.2).trans ?_
                rw [holds]
                rfl
              exact accounts_atom ended middleFiled rfl (Nat.le_refl _)
          | some alternative =>
              refine accounts_last (.alternative passed holds) rfl
                (accounted _ (.alternative passed holds)) ⟨middleFiled, List.forall_mem_nil _⟩ ?_
              intro result after final ended _ _ afterFiled resultFiled
              refine accounts_ending ?_ afterFiled resultFiled nofun (Nat.le_refl _)
              refine (Run.andThen_of_passed passed.1 passed.2).trans ?_
              rw [holds]
              exact ended.1
  | function parameters body =>
      have ended : Activation.run library
          ⟨.expression scope (.function parameters body), depth, store⟩ =
        some (.function store.nextIdentity ⟨parameters, body, scope⟩,
          { store with nextIdentity := store.nextIdentity + 1 }) := rfl
      refine accounts_made ended storeFiled rfl ?_
      intro ledger agrees listed
      exact Value.filed_function_iff.2 ⟨Nat.lt_succ_self _, listed⟩
  | call callee arguments =>
      refine accounts_thenStart .callee rfl (accounted _ .callee) ⟨storeFiled, nofun⟩ ?_
      intro function middle _ passed _ _ middleFiled functionFiled
      rw [List.flatMap_append, List.append_assoc]
      refine Accounts.row (fun child member => accounted child (calls_of_mem_started
        (mem_thenStart_iff.2 (.inr ⟨_, _, passed, List.mem_append_left _ member⟩)))) middleFiled
          ⟨?_, ?_⟩
      · intro noEnd
        have unfinished : Activation.run library
            ⟨.expression scope (.call callee arguments), depth, store⟩ = none := by
          refine (Run.andThen_of_passed passed.1 passed.2).trans ?_
          change (expressions library (applyWithin library depth) scope arguments middle).bind _ =
            none
          rw [noEnd]
          rfl
        rw [startApplication, noEnd, ending_of_unfinished unfinished]
        rfl
      · intro outcome last later ended agrees notBefore lastFiled outcomeFiled
        rw [startApplication, ended]
        cases outcome with
        | error interruption =>
            refine accounts_ending ?_ lastFiled outcomeFiled.2 nofun (Nat.le_refl _)
            exact (Run.andThen_of_passed passed.1 passed.2).trans
              (Run.bind_eq_some.2 ⟨_, _, ended, rfl⟩)
        | ok values =>
            refine accounts_last (.application passed ended) rfl
              (accounted _ (.application passed ended)) ⟨lastFiled, ?_⟩ ?_
            · exact List.forall_mem_cons.2 ⟨functionFiled.later agrees notBefore, outcomeFiled⟩
            · intro result after final applied _ _ afterFiled resultFiled
              refine accounts_ending ?_ afterFiled resultFiled nofun (Nat.le_refl _)
              exact (Run.andThen_of_passed passed.1 passed.2).trans
                (Run.bind_eq_some.2 ⟨_, _, ended, applied.1⟩)
  | index collection position =>
      refine accounts_thenStart .collection rfl (accounted _ .collection) ⟨storeFiled, nofun⟩ ?_
      intro value middle earlier passedLeft _ _ middleFiled valueFiled
      refine accounts_last (.position passedLeft) rfl (accounted _ (.position passedLeft))
        ⟨middleFiled, List.forall_mem_nil _⟩ ?_
      intro index after final passedRight agrees notBefore afterFiled _
      have ended : Activation.run library
          ⟨.expression scope (.index collection position), depth, store⟩ =
            some (value.atIndex index, after) :=
        (Run.andThen_of_passed passedLeft.1 passedLeft.2).trans
          (Run.andThen_of_passed passedRight.1 passedRight.2)
      exact accounts_ending ended afterFiled ((valueFiled.later agrees notBefore).atIndex index)
        nofun (Nat.le_refl _)

theorem accounted_statement {stmt : Stmt}
    (accounted : ∀ child, Calls library ⟨.statement scope stmt, depth, store⟩ child →
      child.Accounted library) :
    Accounted library ⟨.statement scope stmt, depth, store⟩ := by
  apply accounted_of_parts
  intro ledger filed
  cases stmt with
  | bind name value =>
      refine accounts_last .bound rfl (accounted _ .bound) ⟨filed.store, nofun⟩ ?_
      intro bound after final passed _ _ afterFiled boundFiled
      have ended : Activation.run library ⟨.statement scope (.bind name value), depth, store⟩ =
          some (.null, after.bind scope name bound) :=
        Run.andThen_of_passed passed.1 passed.2
      exact accounts_atom ended (afterFiled.bind scope name boundFiled) rfl (Nat.le_refl _)
  | returns value =>
      refine accounts_last .returned rfl (accounted _ .returned) ⟨filed.store, nofun⟩ ?_
      intro result after final passed _ _ afterFiled resultFiled
      have ended : Activation.run library ⟨.statement scope (.returns value), depth, store⟩ =
          some (.returned result, after) :=
        Run.andThen_of_passed passed.1 passed.2
      exact accounts_ending ended afterFiled (Value.filed_returned_iff.2 resultFiled) nofun
        (Nat.le_refl _)
  | expression value =>
      refine accounts_last .evaluated rfl (accounted _ .evaluated) ⟨filed.store, nofun⟩ ?_
      intro result after final passed _ _ afterFiled resultFiled
      exact accounts_ending passed.1 afterFiled resultFiled nofun (Nat.le_refl _)

theorem accounted_block {stmts : Block}
    (accounted : ∀ child, Calls library ⟨.block scope stmts, depth, store⟩ child →
      child.Accounted library) :
    Accounted library ⟨.block scope stmts, depth, store⟩ := by
  apply accounted_of_parts
  intro ledger filed
  have startFiled : Value.null.Filed ledger store.nextIdentity := Value.filed_of_isAtom rfl
  refine Accounts.statements (fun child member => accounted child (calls_of_mem_started member))
    filed.store startFiled ⟨fun noEnd => ending_of_unfinished noEnd, ?_⟩
  intro result after final ended _ _ afterFiled resultFiled
  exact accounts_ending ended afterFiled resultFiled nofun (Nat.le_refl _)

theorem accounted_program {tree : Program}
    (accounted : ∀ child, Calls library ⟨.program scope tree, depth, store⟩ child →
      child.Accounted library) :
    Accounted library ⟨.program scope tree, depth, store⟩ := by
  apply accounted_of_parts
  intro ledger filed
  have startFiled : Value.null.Filed ledger store.nextIdentity := Value.filed_of_isAtom rfl
  refine Accounts.statements (fun child member => accounted child (calls_of_mem_started member))
    filed.store startFiled ⟨?_, ?_⟩
  · intro noEnd
    apply ending_of_unfinished
    change (block library (applyWithin library depth) scope .null tree.statements store).bind _ =
      none
    rw [noEnd]
    rfl
  · intro result after final ended _ _ afterFiled resultFiled
    exact accounts_ending (Run.bind_eq_some.2 ⟨_, _, ended, rfl⟩) afterFiled resultFiled.settled
      nofun (Nat.le_refl _)

theorem accounts_builtin {name : String} (operation : Builtin) {arguments : List Value}
    (storeFiled : store.Filed ledger) (filed : AllFiled ledger store.nextIdentity arguments) :
    Accounts ledger store.nextIdentity
      (ending library ⟨.application (.builtin name operation) arguments, depth, store⟩) := by
  have run_eq : Activation.run library
      ⟨.application (.builtin name operation) arguments, depth, store⟩ =
        operation.call arguments store := by
    cases depth <;> rfl
  rcases call_filed operation filed with
    ⟨result, ended, resultFiled, notMade⟩ | ⟨elements, ended, elementsFiled⟩
  · refine accounts_ending (run_eq.trans ended) storeFiled resultFiled (fun makes => ?_)
      (Nat.le_refl _)
    cases operation with
    | tail => exact notMade (.inl rfl)
    | push => exact notMade (.inr rfl)
    | _ => cases makes
  · refine accounts_made (run_eq.trans ended) storeFiled rfl ?_
    intro final agrees listed
    exact Value.filed_array_iff.2
      ⟨Nat.lt_succ_self _, listed, elementsFiled.later agrees (Nat.le_succ _)⟩

/-- The body of a function runs in a frame that binds filed arguments. -/
theorem accounts_body {identity : Identity} {closure : Closure} {arguments : List Value}
    (fits : closure.parameters.length = arguments.length)
    (filed : (Moment.started
      ⟨.application (.function identity closure) arguments, depth + 1, store⟩).Filed ledger)
    (accounted : ∀ child, Calls library
      ⟨.application (.function identity closure) arguments, depth + 1, store⟩ child →
        child.Accounted library) :
    Accounts ledger store.nextIdentity
      ((started library
        ⟨.application (.function identity closure) arguments, depth + 1, store⟩).flatMap
          (moments library) ++
        ending library
          ⟨.application (.function identity closure) arguments, depth + 1, store⟩) := by
  have startsBody : started library
      ⟨.application (.function identity closure) arguments, depth + 1, store⟩ =
        [⟨.block store.frames.size closure.body, depth,
          (store.addFrame (closure.parameters.zip arguments).reverse (some closure.scope)).2⟩] :=
    if_pos fits
  have calls : Calls library ⟨.application (.function identity closure) arguments, depth + 1, store⟩
      ⟨.block store.frames.size closure.body, depth,
        (store.addFrame (closure.parameters.zip arguments).reverse (some closure.scope)).2⟩ :=
    .body fits rfl
  have enteredFiled : (store.addFrame (closure.parameters.zip arguments).reverse
      (some closure.scope)).2.Filed ledger := by
    refine filed.store.addFrame ?_ _
    intro binding member
    exact filed.values binding.2 (List.mem_cons_of_mem _
      (List.of_mem_zip (List.mem_reverse.1 member)).2)
  rw [startsBody, List.flatMap_singleton]
  refine Accounts.followed (accounted _ calls) ⟨enteredFiled, nofun⟩ ⟨?_, ?_⟩
  · intro noEnd
    exact ending_of_unfinished (calls.awaits.unfinished noEnd)
  · intro result after final ended _ _ afterFiled resultFiled
    have applied : Activation.run library
        ⟨.application (.function identity closure) arguments, depth + 1, store⟩ =
          some (result.settled, after) := by
      change (if _ then invoke library (applyWithin library depth) closure arguments else pure _ :
        Run Value) store = _
      rw [if_pos fits]
      exact Run.bind_eq_some.2 ⟨_, _, rfl, Run.bind_eq_some.2 ⟨_, _, ended, rfl⟩⟩
    exact accounts_ending applied afterFiled resultFiled.settled nofun (Nat.le_refl _)

theorem accounted_application {callee : Value} {arguments : List Value}
    (accounted : ∀ child, Calls library ⟨.application callee arguments, depth, store⟩ child →
      child.Accounted library) :
    Accounted library ⟨.application callee arguments, depth, store⟩ := by
  apply accounted_of_parts
  intro ledger filed
  have argumentsFiled : AllFiled ledger store.nextIdentity arguments :=
    (List.forall_mem_cons.1 filed.values).2
  cases callee with
  | function identity closure =>
      by_cases fits : closure.parameters.length = arguments.length
      · cases depth with
        | zero =>
            have noEnd : Activation.run library
                ⟨.application (.function identity closure) arguments, 0, store⟩ = none := by
              change (if _ then Run.unfinished else pure _ : Run Value) store = none
              rw [if_pos fits]
              rfl
            rw [ending_of_unfinished noEnd]
            exact .nil
        | succ depth => exact accounts_body fits filed accounted
      · have startsNothing : started library
            ⟨.application (.function identity closure) arguments, depth, store⟩ = [] := by
          cases depth with
          | zero => rfl
          | succ depth => exact if_neg fits
        have ended : Activation.run library
            ⟨.application (.function identity closure) arguments, depth, store⟩ =
              some ((RuntimeError.wrongArgumentCount closure.parameters.length
                arguments.length).toValue, store) := by
          cases depth with
          | zero | succ =>
              change (if _ then _ else pure _ : Run Value) store = _
              rw [if_neg fits]
              rfl
        rw [startsNothing]
        exact accounts_atom ended filed.store rfl (Nat.le_refl _)
  | builtin name operation =>
      have startsNothing : started library
          ⟨.application (.builtin name operation) arguments, depth, store⟩ = [] := by
        cases depth <;> rfl
      rw [startsNothing]
      exact accounts_builtin operation filed.store argumentsFiled
  | integer | boolean | string | null | array | dictionary | returned | error =>
      cases depth with
      | zero | succ =>
          change Accounts ledger store.nextIdentity [.ended _ _ store]
          exact Accounts.handedOn filed.store (Value.filed_of_isAtom rfl) nofun (Nat.le_refl _)

/-- One ledger accounts for every evaluation. -/
theorem accounted (library : Library) (activation : Activation) : activation.Accounted library := by
  induction activation using moments.induct library with
  | case1 activation ih =>
      have accounted (child : Activation) (calls : Calls library activation child) :
          child.Accounted library := ih child (mem_started_of_calls calls)
      obtain ⟨task, depth, store⟩ := activation
      cases task with
      | expression scope expr => exact accounted_expression accounted
      | statement scope stmt => exact accounted_statement accounted
      | block scope stmts => exact accounted_block accounted
      | application callee arguments => exact accounted_application accounted
      | program scope tree => exact accounted_program accounted

end Activation

/-! ## What is made -/

variable {library : Library} {apply : Applier} {scope : FrameId} {before after : Store}

theorem interrupts_of_expressions {exprs : List Expr} {value : Value}
    (ended : expressions library apply scope exprs before = some (.error value, after)) :
    value.interrupts = true := by
  induction exprs generalizing before with
  | nil => cases (expressions_nil_eq_some.1 ended).1
  | cons expr rest ih =>
      obtain ⟨first, middle, _, ⟨interrupts, same, _⟩ | ⟨_, others, restEnded, mapped⟩⟩ :=
        expressions_cons_eq_some.1 ended
      · cases same
        exact interrupts
      · cases others with
        | error interruption =>
            cases mapped
            exact ih restEnded
        | ok values => cases mapped

theorem interrupts_of_entries {pairs : List (Expr × Expr)} {found : Entries Value} {value : Value}
    (ended : entries library apply scope pairs found before = some (.error value, after)) :
    value.interrupts = true := by
  induction pairs generalizing before found with
  | nil => cases (entries_nil_eq_some.1 ended).1
  | cons pair rest ih =>
      obtain ⟨keyExpr, valueExpr⟩ := pair
      obtain ⟨index, middle, _, ⟨interrupts, same, _⟩ | ⟨_, entry, last, _, continued⟩⟩ :=
        entries_cons_eq_some.1 ended
      · cases same
        exact interrupts
      · rcases continued with ⟨interrupts, same, _⟩ | ⟨_, ⟨_, same, _⟩ | ⟨key, _, restEnded⟩⟩
        · cases same
          exact interrupts
        · cases same
          rfl
        · exact ih restEnded

/-- What is there to make a composite and is not interrupted makes one. -/
theorem Activation.identity?_of_makes {activation : Activation} {result : Value}
    (makes : activation.task.makes = true) (ended : activation.run library = some (result, after))
    (passed : result.interrupts = false) : ∃ identity, result.identity? = some identity := by
  obtain ⟨task, depth, store⟩ := activation
  cases task with
  | expression scope expr =>
      cases expr with
      | array elements =>
          obtain ⟨outcome, middle, rowEnded, concluded⟩ := Run.bind_eq_some.1 ended
          cases outcome with
          | error interruption =>
              obtain ⟨rfl, _⟩ := Run.pure_eq_some.1 concluded
              rw [interrupts_of_expressions rowEnded] at passed
              cases passed
          | ok values =>
              cases concluded
              exact ⟨_, rfl⟩
      | dictionary pairs =>
          obtain ⟨outcome, middle, rowEnded, concluded⟩ := Run.bind_eq_some.1 ended
          cases outcome with
          | error interruption =>
              obtain ⟨rfl, _⟩ := Run.pure_eq_some.1 concluded
              rw [interrupts_of_entries rowEnded] at passed
              cases passed
          | ok found =>
              cases concluded
              exact ⟨_, rfl⟩
      | function parameters body =>
          cases ended
          exact ⟨_, rfl⟩
      | _ => cases makes
  | application callee arguments =>
      cases callee with
      | builtin name operation =>
          have called : operation.call arguments store = some (result, after) := by
            cases depth <;> exact ended
          cases operation with
          | tail =>
              change Builtin.callTail arguments store = some (result, after) at called
              unfold Builtin.callTail at called
              split at called
              · cases called
                exact ⟨_, rfl⟩
              · cases called
                cases passed
              · cases called
                cases passed
          | push =>
              change Builtin.callPush arguments store = some (result, after) at called
              unfold Builtin.callPush at called
              split at called
              · cases called
                exact ⟨_, rfl⟩
              · cases called
                cases passed
              · cases called
                cases passed
          | _ => cases makes
      | _ => cases makes
  | _ => cases makes

end Evaluate

end Scriptlet
