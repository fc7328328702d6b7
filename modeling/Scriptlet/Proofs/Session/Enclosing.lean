import Scriptlet.Proofs.Evaluate.Allocation
import Scriptlet.Proofs.Evaluate.Depth
import Scriptlet.Proofs.Session.Pieces

/-!
# A program as the body of a function

A program can be run as it is, or as the body of a function without parameters that is called at
once.  In the second way the statements are run in the frame of the call, inside the root frame, and
the function itself has taken the first identity; so every frame and every identity is one place
further up.  Nothing else can be told apart: the root frame stays empty, and a search for a name that
reaches it ends there as it would have one frame earlier.
-/

namespace Scriptlet

/-! ## Enclosed stores -/

/-- Moves every identity and every frame one place up. -/
def Renaming.up : Renaming where
  identity := Nat.succ
  frame := Nat.succ
  identity_injective := Nat.succ_injective
  frame_strictMono := fun _ _ => Nat.succ_lt_succ

theorem Renaming.up_frame_pos (frame : FrameId) : 0 < Renaming.up.frame frame := Nat.succ_pos frame

/-- One store is the other one moved up, with an empty root frame around everything. -/
structure Store.Enclosed (store image : Store) : Prop where
  root : image.frames[0]? = some ⟨[], none⟩
  identities : image.nextIdentity = Renaming.up.identity store.nextIdentity
  size : image.frames.size = Renaming.up.frame store.frames.size
  frames : store.Moved .up (some 0) image

namespace Store.Enclosed

variable {store image : Store}

/-- A search that goes one frame further than in the other store finds nothing there. -/
theorem lookup (enclosed : store.Enclosed image) (scope : FrameId) (name : String) :
    image.lookup (Renaming.up.frame scope) name =
      (store.lookup scope name).map (Value.rename .up) := by
  apply enclosed.frames.lookup
  · intro index none
    rw [Array.getElem?_eq_none_iff] at none ⊢
    rw [enclosed.size]
    exact Nat.succ_le_succ none
  · intro root isRoot name
    cases isRoot
    rw [Store.lookup, enclosed.root]
    rfl

theorem nextIdentity (enclosed : store.Enclosed image) :
    Enclosed { store with nextIdentity := store.nextIdentity + 1 }
      { image with nextIdentity := image.nextIdentity + 1 } where
  root := enclosed.root
  identities := congrArg Nat.succ enclosed.identities
  size := enclosed.size
  frames := enclosed.frames

theorem addFrame (enclosed : store.Enclosed image) (bindings : List (String × Value))
    (parent : FrameId) :
    Enclosed (store.addFrame bindings (some parent)).2
      (image.addFrame (bindings.map (Prod.map id (Value.rename .up)))
        (some (Renaming.up.frame parent))).2 where
  root := by
    rw [Store.addFrame, Array.getElem?_push, enclosed.size, if_neg (Renaming.up_frame_pos _).ne]
    exact enclosed.root
  identities := enclosed.identities
  size := by
    rw [Store.addFrame, Store.addFrame, Array.size_push, Array.size_push, enclosed.size]
    rfl
  frames := enclosed.frames.addFrame enclosed.size.symm bindings parent

theorem bind (enclosed : store.Enclosed image) (scope : FrameId) (name : String) (value : Value) :
    Enclosed (store.bind scope name value)
      (image.bind (Renaming.up.frame scope) name (value.rename .up)) where
  root := by
    rw [Store.bind, Array.getElem?_modify, if_neg (Renaming.up_frame_pos scope).ne']
    exact enclosed.root
  identities := enclosed.identities
  size := by simpa [Store.bind] using enclosed.size
  frames := enclosed.frames.bind scope name value

end Store.Enclosed

theorem Renaming.simulates_enclosed : Renaming.up.Simulates Store.Enclosed where
  lookup enclosed := enclosed.lookup
  nextIdentity enclosed := ⟨enclosed.identities, enclosed.nextIdentity⟩
  addFrame enclosed bindings parent := ⟨enclosed.size, enclosed.addFrame bindings parent⟩
  bind enclosed := enclosed.bind

/-! ## Running and calling -/

/-- The program that calls a function without parameters whose body is some statements. -/
def Program.called (stmts : List Stmt) : Program := ⟨[.expression (.call (.function [] stmts) [])]⟩

namespace Session

open Evaluate

/-- The store in which the body of a called program starts: the function has taken an identity, and
its call a frame. -/
def callStore : Store := ⟨#[⟨[], none⟩, ⟨[], some 0⟩], 1⟩

theorem enclosed_callStore (library : Library) : (start library).store.Enclosed callStore where
  root := rfl
  identities := rfl
  size := rfl
  frames index frame found := by
    cases index with
    | zero =>
        cases found
        exact ⟨_, rfl, rfl, fun _ => rfl⟩
    | succ index => cases found

theorem outcome_called (library : Library) (depth : Nat) (stmts : List Stmt) :
    (start library).outcome (depth + 1) (Program.called stmts).statements =
      (block library (applyWithin library depth) 1 .null stmts callStore).map fun step =>
        (step.1.settled, step.2) := by
  have single : (start library).outcome (depth + 1) (Program.called stmts).statements =
      (block library (applyWithin library depth) 1 .null stmts >>= fun result =>
        (return result.settled : Run Value)) callStore :=
    congrFun (Run.andThen_pure _) (start library).store
  rw [single]
  change (block library (applyWithin library depth) 1 .null stmts callStore).bind _ = _
  cases block library (applyWithin library depth) 1 .null stmts callStore <;> rfl

/-- The two ways take the same course; the call needs room for one call more. -/
theorem runProgram_called (library : Library) (depth : Nat) (stmts : List Stmt) :
    Option.Rel (fun step image => image.1 = step.1.rename .up ∧
        step.2.store.Enclosed image.2.store ∧ image.2.root = 0)
      ((start library).runProgram depth ⟨stmts⟩)
      ((start library).runProgram (depth + 1) (.called stmts)) := by
  have plain : (start library).store.Plain := Store.plain_empty.addFrame (by simp) none
  have hasOutcome (value : Value) (after : Store)
      (ended : (start library).outcome depth stmts = some (value, after)) :
      value.isOutcome = true :=
    (hasOutcome_block (settling_applyWithin library depth) .null rfl stmts _ _ _ plain ended).2
  have together : Option.Rel _ ((start library).outcome depth stmts)
      (block library (applyWithin library depth) 1 .null stmts callStore) :=
    mirrors_run Renaming.simulates_enclosed library depth (.block 0 stmts) _ _
      (enclosed_callStore library)
  rw [runProgram_eq, runProgram_eq, outcome_called]
  generalize (start library).outcome depth stmts = ended at hasOutcome together ⊢
  generalize block library (applyWithin library depth) 1 .null stmts callStore = image
    at together ⊢
  cases together with
  | none => exact .none
  | @some step imageStep both =>
      obtain ⟨value, after⟩ := step
      obtain ⟨_, imageAfter⟩ := imageStep
      obtain ⟨rfl, enclosed⟩ := both
      refine .some ⟨?_, enclosed, rfl⟩
      -- The call has answered a pending return, so nothing is left for the program to answer.
      have settled := Value.settled_of_isSettled
        (Value.isSettled_settled (hasOutcome value after rfl))
      calc (value.rename .up).settled.settled
        _ = value.settled.settled.rename .up := by rw [Value.settled_rename, Value.settled_rename]
        _ = value.settled.rename .up := by rw [settled]

theorem called_of_runProgram {library : Library} {depth : Nat} {stmts : List Stmt} {value : Value}
    {next : Session} (ended : (start library).runProgram depth ⟨stmts⟩ = some (value, next)) :
    ∃ last, (start library).runProgram (depth + 1) (.called stmts) =
        some (value.rename .up, last) ∧ next.store.Enclosed last.store ∧ last.root = 0 := by
  have together := runProgram_called library depth stmts
  rw [ended] at together
  generalize (start library).runProgram (depth + 1) (.called stmts) = call at together ⊢
  cases together with
  | @some _ step both =>
      obtain ⟨_, last⟩ := step
      obtain ⟨rfl, enclosed, root⟩ := both
      exact ⟨last, rfl, enclosed, root⟩

theorem runProgram_of_called {library : Library} {depth : Nat} {stmts : List Stmt} {value : Value}
    {last : Session} (ended : (start library).runProgram depth (.called stmts) = some (value, last)) :
    ∃ smaller step, (start library).runProgram smaller ⟨stmts⟩ = some step := by
  cases depth with
  | zero =>
      -- Without room for a call, the called program does not end.
      cases ended
  | succ depth =>
      have together := runProgram_called library depth stmts
      rw [ended] at together
      refine ⟨depth, ?_⟩
      generalize (start library).runProgram depth ⟨stmts⟩ = run at together ⊢
      cases together with
      | @some step _ both => exact ⟨step, rfl⟩

/-- However a program ends, it ends alike when it is called as a function, and it ends if and only
if the call does.  The value of the call is the value of the program with all identities and frames
moved up, so it has the same text and is the same error, if it is one; and the call leaves no
binding in the root frame. -/
theorem ends_called (library : Library) (stmts : List Stmt) :
    ((∃ value next, (start library).Ends ⟨stmts⟩ value next) ↔
      ∃ value next, (start library).Ends (.called stmts) value next) ∧
    ∀ value next result last, (start library).Ends ⟨stmts⟩ value next →
      (start library).Ends (.called stmts) result last →
        result = value.rename .up ∧ next.store.Enclosed last.store ∧
        result.inspect = value.inspect ∧
        (∀ message, result = .error message ↔ value = .error message) ∧
        last.store.frames[last.root]? = some ⟨[], none⟩ := by
  refine ⟨⟨?_, ?_⟩, ?_⟩
  · rintro ⟨value, next, depth, ended⟩
    obtain ⟨last, callEnded, _⟩ := called_of_runProgram ended
    exact ⟨_, last, depth + 1, callEnded⟩
  · rintro ⟨value, last, depth, ended⟩
    obtain ⟨smaller, ⟨result, next⟩, programEnded⟩ := runProgram_of_called ended
    exact ⟨result, next, smaller, programEnded⟩
  · rintro value next result last ⟨depth, ended⟩ callEnds
    obtain ⟨called, callEnded, enclosed, root⟩ := called_of_runProgram ended
    obtain ⟨rfl, rfl⟩ := callEnds.unique ⟨depth + 1, callEnded⟩
    refine ⟨rfl, enclosed, value.inspect_rename .up, ?_, ?_⟩
    · intro message
      cases value <;> simp [Value.rename]
    · rw [root]
      exact enclosed.root

/-- Statements that bind a function, call it, and return it before they come to a failing one. -/
def returningSample : List Stmt := [
  .bind "f" (.function ["x"] [.expression (.identifier "x")]),
  .returns (.array [.call (.identifier "f") [.boolean true], .identifier "f"]),
  .expression (.identifier "y")]

theorem ends_called_sample :
    ∃ value last, (start Library.standard).Ends (.called returningSample) value last ∧
      value.inspect = "[true, fn(x) \x7b\nx\n\x7d]" ∧
      last.store.frames[last.root]? = some ⟨[], none⟩ := by
  have shows : ((start Library.standard).runProgram 1 ⟨returningSample⟩).map (·.1.inspect) =
      some "[true, fn(x) \x7b\nx\n\x7d]" := by decide +kernel
  obtain ⟨⟨value, next⟩, ended, shown⟩ := Option.map_eq_some_iff.1 shows
  have programEnds : (start Library.standard).Ends ⟨returningSample⟩ value next := ⟨1, ended⟩
  obtain ⟨same, alike⟩ := ends_called Library.standard returningSample
  obtain ⟨result, last, callEnds⟩ := same.1 ⟨value, next, programEnds⟩
  obtain ⟨_, _, inspected, _, root⟩ := alike value next result last programEnds callEnds
  exact ⟨result, last, callEnds, inspected.trans shown, root⟩

end Session

end Scriptlet
