import Scriptlet.Proofs.Evaluate.CallTree

/-!
# The frame law of evaluation

Evaluation in a scope writes to the frame of that scope and to frames it makes itself, and to no
other: a call works in a frame of its own, also where its function reads frames that are shared.
In the frame of the scope only the targets of bindings that stand outside function literals can
change; no frame gets another parent and no name loses its binding.  The law needs no assumption on
the store: a frame that a closure or a parent link names is only read, if it is there at all.
-/

namespace Scriptlet

/-! ## Targets of bindings -/

mutual

/-- The names that an expression binds in its own scope: the bodies of function literals are left
out, the blocks of conditionals are not. -/
def Expr.targets : Expr → List String
  | .array elements => Expr.targetsAll elements
  | .dictionary pairs => Expr.targetsPairs pairs
  | .unary _ operand => operand.targets
  | .binary left _ right => left.targets ++ right.targets
  | .conditional condition consequence none => condition.targets ++ Block.targets consequence
  | .conditional condition consequence (some alternative) =>
      condition.targets ++ Block.targets consequence ++ Block.targets alternative
  | .call callee arguments => callee.targets ++ Expr.targetsAll arguments
  | .index collection position => collection.targets ++ position.targets
  | _ => []
  termination_by structural expr => expr

/-- The names that several expressions bind in their scope. -/
def Expr.targetsAll : List Expr → List String
  | [] => []
  | expr :: rest => expr.targets ++ Expr.targetsAll rest
  termination_by structural exprs => exprs

/-- The names that the pairs of a dictionary literal bind in their scope. -/
def Expr.targetsPairs : List (Expr × Expr) → List String
  | [] => []
  | (key, value) :: rest => key.targets ++ value.targets ++ Expr.targetsPairs rest
  termination_by structural pairs => pairs

/-- The names that a statement binds in its own scope. -/
def Stmt.targets : Stmt → List String
  | .bind name value => name :: value.targets
  | .returns value => value.targets
  | .expression value => value.targets
  termination_by structural stmt => stmt

/-- The names that the statements of a block bind in their scope. -/
def Block.targets : List Stmt → List String
  | [] => []
  | stmt :: rest => stmt.targets ++ Block.targets rest
  termination_by structural stmts => stmts

end

/-! ## Stores that keep their frames -/

/-- One frame is the other with new bindings for some of the given names. -/
structure Frame.Rebinds (names : List String) (old new : Frame) : Prop where
  parent : new.parent = old.parent
  bound : ∀ name, (old.find? name).isSome → (new.find? name).isSome
  others : ∀ name, name ∉ names → new.find? name = old.find? name

/-- Every frame of the earlier store is there in the later one, unchanged if it is not the frame of
the scope, and else rebinding only the given names. -/
def Store.Keeps (scope : Option FrameId) (names : List String) (before after : Store) : Prop :=
  ∀ frame old, before.frames[frame]? = some old →
    ∃ new, after.frames[frame]? = some new ∧ (scope ≠ some frame → new = old) ∧
      old.Rebinds names new

namespace Frame.Rebinds

variable {names : List String}

theorem refl (frame : Frame) : frame.Rebinds names frame :=
  ⟨rfl, fun _ found => found, fun _ _ => rfl⟩

theorem trans {first second third : Frame} (earlier : first.Rebinds names second)
    (later : second.Rebinds names third) : first.Rebinds names third where
  parent := later.parent.trans earlier.parent
  bound name found := later.bound name (earlier.bound name found)
  others name fresh := (later.others name fresh).trans (earlier.others name fresh)

theorem bind {name : String} (target : name ∈ names) (frame : Frame) (value : Value) :
    frame.Rebinds names (frame.bind name value) where
  parent := rfl
  bound other found := by
    rw [Frame.find?_bind]
    split
    · rfl
    · exact found
  others other fresh := by
    rw [Frame.find?_bind, if_neg]
    rintro rfl
    exact fresh target

end Frame.Rebinds

namespace Store.Keeps

variable {scope : Option FrameId} {names : List String}

theorem refl (store : Store) : store.Keeps scope names store := by
  intro frame old found
  exact ⟨old, found, fun _ => rfl, Frame.Rebinds.refl old⟩

theorem trans {first second third : Store} (earlier : first.Keeps scope names second)
    (later : second.Keeps scope names third) : first.Keeps scope names third := by
  intro frame old found
  obtain ⟨middle, middleFound, middleSame, middleRebinds⟩ := earlier frame old found
  obtain ⟨new, newFound, newSame, newRebinds⟩ := later frame middle middleFound
  refine ⟨new, newFound, ?_, middleRebinds.trans newRebinds⟩
  intro elsewhere
  exact (newSame elsewhere).trans (middleSame elsewhere)

theorem of_frames_eq {before after : Store} (framesEq : after.frames = before.frames) :
    before.Keeps scope names after := by
  intro frame old found
  exact ⟨old, framesEq ▸ found, fun _ => rfl, Frame.Rebinds.refl old⟩

theorem addFrame (store : Store) (bindings : List (String × Value)) (parent : Option FrameId) :
    store.Keeps scope names (store.addFrame bindings parent).2 := by
  intro frame old found
  refine ⟨old, ?_, fun _ => rfl, Frame.Rebinds.refl old⟩
  obtain ⟨inBounds, _⟩ := Array.getElem?_eq_some_iff.1 found
  rw [← found]
  exact Array.getElem?_push_lt inBounds ▸ (Array.getElem?_eq_getElem inBounds).symm

theorem bind {name : String} (target : name ∈ names) (store : Store) (frame : FrameId)
    (value : Value) : store.Keeps (some frame) names (store.bind frame name value) := by
  intro other old found
  by_cases here : frame = other
  · subst here
    refine ⟨old.bind name value, ?_, fun elsewhere => absurd rfl elsewhere,
      Frame.Rebinds.bind target old value⟩
    simp [Store.bind, Array.getElem?_modify, found]
  · refine ⟨old, ?_, fun _ => rfl, Frame.Rebinds.refl old⟩
    simp [Store.bind, Array.getElem?_modify, here, found]

/-- What is kept where nothing may be written is kept for every scope. -/
theorem of_none {before after : Store} (keeps : before.Keeps none [] after) :
    before.Keeps scope names after := by
  intro frame old found
  obtain ⟨new, newFound, newSame, _⟩ := keeps frame old found
  have equal := newSame (by simp)
  subst equal
  exact ⟨new, newFound, fun _ => rfl, Frame.Rebinds.refl new⟩

end Store.Keeps

/-! ## Computations that keep frames -/

/-- A computation that ends writes to the given names of one frame at most. -/
def Run.KeepsFrames {α : Type} (scope : Option FrameId) (names : List String)
    (run : Run α) : Prop :=
  ∀ before result after, run before = some (result, after) → before.Keeps scope names after

namespace Run.KeepsFrames

variable {α β : Type} {scope : Option FrameId} {names : List String}

theorem pure (value : α) : KeepsFrames scope names (Pure.pure value) := by
  intro before result after ended
  obtain ⟨_, rfl⟩ := pure_eq_some.1 ended
  exact Store.Keeps.refl before

theorem bind {first : Run α} {next : α → Run β} (firstKeeps : KeepsFrames scope names first)
    (nextKeeps : ∀ value, KeepsFrames scope names (next value)) :
    KeepsFrames scope names (first >>= next) := by
  intro before result after ended
  obtain ⟨value, middle, firstEnded, nextEnded⟩ := bind_eq_some.1 ended
  exact (firstKeeps before value middle firstEnded).trans
    (nextKeeps value middle result after nextEnded)

theorem andThen {first : Run Value} {next : Value → Run Value}
    (firstKeeps : KeepsFrames scope names first)
    (nextKeeps : ∀ value, KeepsFrames scope names (next value)) :
    KeepsFrames scope names (first.andThen next) := by
  apply bind firstKeeps
  intro value
  split
  · exact pure value
  · exact nextKeeps value

theorem of_none {run : Run α} (keeps : KeepsFrames none [] run) : KeepsFrames scope names run := by
  intro before result after ended
  exact (keeps before result after ended).of_none

theorem newIdentity : KeepsFrames scope names newIdentity := by
  intro before result after ended
  cases ended
  exact Store.Keeps.of_frames_eq rfl

theorem newArray (elements : List Value) : KeepsFrames scope names (newArray elements) :=
  bind newIdentity fun _ => pure _

theorem newDictionary (entries : Entries Value) :
    KeepsFrames scope names (newDictionary entries) :=
  bind newIdentity fun _ => pure _

theorem newFunction (closure : Closure) : KeepsFrames scope names (newFunction closure) :=
  bind newIdentity fun _ => pure _

theorem bindName {frame : FrameId} {name : String} (target : name ∈ names) (value : Value) :
    KeepsFrames (some frame) names (bindName frame name value) := by
  intro before result after ended
  cases ended
  exact Store.Keeps.bind target before frame value

end Run.KeepsFrames

theorem Builtin.keepsFrames_call (builtin : Builtin) (arguments : List Value) :
    (builtin.call arguments).KeepsFrames none [] := by
  cases builtin with
  | len =>
      change (callLen arguments).KeepsFrames none []
      unfold callLen
      split <;> exact Run.KeepsFrames.pure _
  | first =>
      change (callFirst arguments).KeepsFrames none []
      unfold callFirst
      split <;> exact Run.KeepsFrames.pure _
  | last =>
      change (callLast arguments).KeepsFrames none []
      unfold callLast
      split <;> exact Run.KeepsFrames.pure _
  | tail =>
      change (callTail arguments).KeepsFrames none []
      unfold callTail
      split
      · exact Run.KeepsFrames.newArray _
      · exact Run.KeepsFrames.pure _
      · exact Run.KeepsFrames.pure _
  | push =>
      change (callPush arguments).KeepsFrames none []
      unfold callPush
      split
      · exact Run.KeepsFrames.newArray _
      · exact Run.KeepsFrames.pure _
      · exact Run.KeepsFrames.pure _

/-! ## Evaluation -/

namespace Evaluate

variable {library : Library} {apply : Applier} {scope : FrameId} {names : List String}

/-- An applier that writes to no frame there is. -/
def Confined (apply : Applier) : Prop :=
  ∀ callee arguments, (apply callee arguments).KeepsFrames none []

theorem keepsFrames_identifier (name : String) :
    (identifier library scope name).KeepsFrames (some scope) names := by
  intro before result after ended
  rw [identifier_eq] at ended
  cases ended
  exact Store.Keeps.refl _

mutual

theorem keepsFrames_expression (confined : Confined apply) :
    ∀ expr : Expr, expr.targets ⊆ names →
      (expression library apply scope expr).KeepsFrames (some scope) names
  | .identifier name, _ => keepsFrames_identifier name
  | .integer _, _ => Run.KeepsFrames.pure _
  | .boolean _, _ => Run.KeepsFrames.pure _
  | .string _, _ => Run.KeepsFrames.pure _
  | .array elements, targets => by
      apply Run.KeepsFrames.bind (keepsFrames_expressions confined elements targets)
      rintro (interruption | values)
      · exact Run.KeepsFrames.pure _
      · exact Run.KeepsFrames.newArray values
  | .dictionary pairs, targets => by
      apply Run.KeepsFrames.bind (keepsFrames_entries confined pairs [] targets)
      rintro (interruption | found)
      · exact Run.KeepsFrames.pure _
      · exact Run.KeepsFrames.newDictionary found
  | .unary op operand, targets => by
      apply Run.KeepsFrames.andThen (keepsFrames_expression confined operand targets)
      intro value
      exact Run.KeepsFrames.pure _
  | .binary left op right, targets => by
      obtain ⟨leftTargets, rightTargets⟩ := List.append_subset.1 targets
      apply Run.KeepsFrames.andThen (keepsFrames_expression confined left leftTargets)
      intro a
      apply Run.KeepsFrames.andThen (keepsFrames_expression confined right rightTargets)
      intro b
      exact Run.KeepsFrames.pure _
  | .conditional condition consequence none, targets => by
      obtain ⟨conditionTargets, blockTargets⟩ := List.append_subset.1 targets
      apply Run.KeepsFrames.andThen (keepsFrames_expression confined condition conditionTargets)
      intro value
      split
      · exact keepsFrames_block confined .null consequence blockTargets
      · exact Run.KeepsFrames.pure _
  | .conditional condition consequence (some alternative), targets => by
      obtain ⟨frontTargets, alternativeTargets⟩ := List.append_subset.1 targets
      obtain ⟨conditionTargets, consequenceTargets⟩ := List.append_subset.1 frontTargets
      apply Run.KeepsFrames.andThen (keepsFrames_expression confined condition conditionTargets)
      intro value
      split
      · exact keepsFrames_block confined .null consequence consequenceTargets
      · exact keepsFrames_block confined .null alternative alternativeTargets
  | .function parameters body, _ => Run.KeepsFrames.newFunction ⟨parameters, body, scope⟩
  | .call callee arguments, targets => by
      obtain ⟨calleeTargets, argumentTargets⟩ := List.append_subset.1 targets
      apply Run.KeepsFrames.andThen (keepsFrames_expression confined callee calleeTargets)
      intro function
      apply Run.KeepsFrames.bind (keepsFrames_expressions confined arguments argumentTargets)
      rintro (interruption | values)
      · exact Run.KeepsFrames.pure _
      · exact (confined function values).of_none
  | .index collection position, targets => by
      obtain ⟨collectionTargets, positionTargets⟩ := List.append_subset.1 targets
      apply Run.KeepsFrames.andThen (keepsFrames_expression confined collection collectionTargets)
      intro value
      apply Run.KeepsFrames.andThen (keepsFrames_expression confined position positionTargets)
      intro index
      exact Run.KeepsFrames.pure _

theorem keepsFrames_expressions (confined : Confined apply) :
    ∀ exprs : List Expr, Expr.targetsAll exprs ⊆ names →
      (expressions library apply scope exprs).KeepsFrames (some scope) names
  | [], _ => Run.KeepsFrames.pure _
  | expr :: rest, targets => by
      obtain ⟨firstTargets, restTargets⟩ := List.append_subset.1 targets
      apply Run.KeepsFrames.bind (keepsFrames_expression confined expr firstTargets)
      intro value
      split
      · exact Run.KeepsFrames.pure _
      · apply Run.KeepsFrames.bind (keepsFrames_expressions confined rest restTargets)
        rintro (interruption | values) <;> exact Run.KeepsFrames.pure _

theorem keepsFrames_entries (confined : Confined apply) :
    ∀ (pairs : List (Expr × Expr)) (found : Entries Value), Expr.targetsPairs pairs ⊆ names →
      (entries library apply scope pairs found).KeepsFrames (some scope) names
  | [], found, _ => Run.KeepsFrames.pure _
  | (keyExpr, valueExpr) :: rest, found, targets => by
      obtain ⟨pairTargets, restTargets⟩ := List.append_subset.1 targets
      obtain ⟨keyTargets, valueTargets⟩ := List.append_subset.1 pairTargets
      apply Run.KeepsFrames.bind (keepsFrames_expression confined keyExpr keyTargets)
      intro index
      split
      · exact Run.KeepsFrames.pure _
      · apply Run.KeepsFrames.bind (keepsFrames_expression confined valueExpr valueTargets)
        intro value
        split
        · exact Run.KeepsFrames.pure _
        · split
          · exact Run.KeepsFrames.pure _
          · exact keepsFrames_entries confined rest _ restTargets

theorem keepsFrames_statement (confined : Confined apply) :
    ∀ stmt : Stmt, stmt.targets ⊆ names →
      (statement library apply scope stmt).KeepsFrames (some scope) names
  | .bind name value, targets => by
      obtain ⟨target, valueTargets⟩ := List.cons_subset.1 targets
      apply Run.KeepsFrames.andThen (keepsFrames_expression confined value valueTargets)
      intro bound
      apply Run.KeepsFrames.bind (Run.KeepsFrames.bindName target bound)
      intro _
      exact Run.KeepsFrames.pure _
  | .returns value, targets => by
      apply Run.KeepsFrames.andThen (keepsFrames_expression confined value targets)
      intro result
      exact Run.KeepsFrames.pure _
  | .expression value, targets => keepsFrames_expression confined value targets

theorem keepsFrames_block (confined : Confined apply) (start : Value) :
    ∀ stmts : List Stmt, Block.targets stmts ⊆ names →
      (block library apply scope start stmts).KeepsFrames (some scope) names
  | [], _ => Run.KeepsFrames.pure _
  | stmt :: rest, targets => by
      obtain ⟨firstTargets, restTargets⟩ := List.append_subset.1 targets
      apply Run.KeepsFrames.andThen (keepsFrames_statement confined stmt firstTargets)
      intro value
      exact keepsFrames_block confined value rest restTargets

end

/-- A call writes to the frame that it adds, which is none of those there before. -/
theorem keepsFrames_invoke (confined : Confined apply) (closure : Closure)
    (arguments : List Value) : (invoke library apply closure arguments).KeepsFrames none [] := by
  intro before result after ended
  obtain ⟨scope, entered, created, ran⟩ := Run.bind_eq_some.1 ended
  obtain ⟨value, left, blockEnded, settled⟩ := Run.bind_eq_some.1 ran
  obtain ⟨_, rfl⟩ := Run.pure_eq_some.1 settled
  cases created
  have added : before.Keeps none [] _ := Store.Keeps.addFrame before
    (closure.parameters.zip arguments).reverse (some closure.scope)
  have ran := keepsFrames_block confined .null closure.body (List.Subset.refl _) _ value left
    blockEnded
  intro frame old found
  obtain ⟨middle, middleFound, middleSame, _⟩ := added frame old found
  obtain ⟨new, newFound, newSame, _⟩ := ran frame middle middleFound
  have elsewhere : some before.frames.size ≠ some frame := by
    obtain ⟨inBounds, _⟩ := Array.getElem?_eq_some_iff.1 found
    intro equal
    cases equal
    exact Nat.lt_irrefl _ inBounds
  have unchanged : new = old := (newSame elsewhere).trans (middleSame (by simp))
  subst unchanged
  exact ⟨new, newFound, fun _ => rfl, Frame.Rebinds.refl new⟩

theorem confined_applyWith {run : Closure → List Value → Run Value}
    (confined : ∀ closure arguments, (run closure arguments).KeepsFrames none []) :
    Confined (applyWith run) := by
  intro callee arguments
  cases callee with
  | function identity closure =>
      change (if closure.parameters.length = arguments.length then run closure arguments
        else pure _ : Run Value).KeepsFrames none []
      split
      · exact confined closure arguments
      · exact Run.KeepsFrames.pure _
  | builtin name operation => exact operation.keepsFrames_call arguments
  | _ => exact Run.KeepsFrames.pure _

theorem confined_applyWithin (library : Library) (depth : Nat) :
    Confined (applyWithin library depth) := by
  induction depth with
  | zero =>
      apply confined_applyWith
      intro closure arguments before result after ended
      cases ended
  | succ depth ih => exact confined_applyWith (keepsFrames_invoke ih)

namespace Task

/-- The scope that a task writes to; a call has none among the frames there are. -/
def scope? : Task → Option FrameId
  | expression scope _ | statement scope _ | block scope _ | program scope _ => some scope
  | application .. => none

/-- The names that a task may bind in its scope. -/
def targets : Task → List String
  | expression _ expr => expr.targets
  | statement _ stmt => stmt.targets
  | block _ stmts => Block.targets stmts
  | application .. => []
  | program _ tree => Block.targets tree.statements

theorem keepsFrames_run (library : Library) (depth : Nat) (task : Task) :
    (task.run library depth).KeepsFrames task.scope? task.targets := by
  have confined := confined_applyWithin library depth
  cases task with
  | expression scope expr => exact keepsFrames_expression confined expr (List.Subset.refl _)
  | statement scope stmt => exact keepsFrames_statement confined stmt (List.Subset.refl _)
  | block scope stmts => exact keepsFrames_block confined .null stmts (List.Subset.refl _)
  | application callee arguments => exact confined callee arguments
  | program scope tree =>
      apply Run.KeepsFrames.bind (keepsFrames_block confined .null tree.statements
        (List.Subset.refl _))
      intro result
      exact Run.KeepsFrames.pure _

/-- Whatever is evaluated, every frame there was before is there afterwards with the same parent and
with every name that it bound; it is unchanged if it is not the frame of the scope, in particular
after a call; and in the frame of the scope only targets of the evaluated tree have changed. -/
theorem frame_of_run {library : Library} {depth : Nat} {task : Task} {before after : Store}
    {result : Value} (ended : task.run library depth before = some (result, after))
    (frame : FrameId) {old : Frame} (existing : before.frames[frame]? = some old) :
    ∃ new, after.frames[frame]? = some new ∧
      (task.scope? ≠ some frame → new = old) ∧
      new.parent = old.parent ∧
      (∀ name, (old.find? name).isSome → (new.find? name).isSome) ∧
      ∀ name, name ∉ task.targets → new.find? name = old.find? name := by
  obtain ⟨new, found, same, rebinds⟩ :=
    task.keepsFrames_run library depth before result after ended frame old existing
  exact ⟨new, found, same, rebinds.parent, rebinds.bound, rebinds.others⟩

/-- A call made from frame 1 leaves the frame that its function captured as it is. -/
theorem captured_frame_of_call :
    ∃ result after,
      (Task.statement 1 (.bind "y" (.call (.identifier "f") [.integer "1"]))).run Library.standard 1
          ⟨#[⟨[("f", .function 0 ⟨["x"], [.bind "f" (.identifier "x")], 0⟩)], none⟩,
            ⟨[], some 0⟩], 1⟩ = some (result, after) ∧
        after.frames[0]? =
          some ⟨[("f", .function 0 ⟨["x"], [.bind "f" (.identifier "x")], 0⟩)], none⟩ := by
  obtain ⟨⟨result, after⟩, ended⟩ := Option.isSome_iff_exists.1
    (by decide +kernel : ((Task.statement 1
      (.bind "y" (.call (.identifier "f") [.integer "1"]))).run Library.standard 1
        ⟨#[⟨[("f", .function 0 ⟨["x"], [.bind "f" (.identifier "x")], 0⟩)], none⟩,
          ⟨[], some 0⟩], 1⟩).isSome = true)
  obtain ⟨new, found, same, _⟩ := frame_of_run ended 0 rfl
  rw [same (by decide)] at found
  exact ⟨result, after, ended, found⟩

end Task

end Evaluate

end Scriptlet
