import Scriptlet.Proofs.Evaluate.Allocation

/-!
# Expressions that bind nothing

An expression without a binding outside its function literals leaves every frame there is as it was.
What it does leave behind, new frames and used up identities, cannot be told from what is already
there: whatever is evaluated next takes the same course as without it, up to a renaming of what is
made from there on.  So such expressions can be evaluated again and in any order.
-/

namespace Scriptlet

/-! ## Renamed stores -/

/-- One store is the other renamed, frame by frame, and what they give out next corresponds too.
There may be more frames in the second one. -/
structure Store.Renamed (naming : Renaming) (store image : Store) : Prop where
  identity : ∀ later, naming.identity (store.nextIdentity + later) = image.nextIdentity + later
  frame : ∀ later, naming.frame (store.frames.size + later) = image.frames.size + later
  frames : ∀ (index : FrameId) (frame : Frame), store.frames[index]? = some frame →
    ∃ other, image.frames[naming.frame index]? = some other ∧ frame.Renamed naming other

namespace Store.Renamed

variable {naming : Renaming} {store image : Store}

theorem missing (renamed : store.Renamed naming image) {index : FrameId}
    (none : store.frames[index]? = none) : image.frames[naming.frame index]? = Option.none := by
  rw [Array.getElem?_eq_none_iff] at none ⊢
  obtain ⟨later, rfl⟩ := Nat.exists_eq_add_of_le none
  rw [renamed.frame later]
  exact Nat.le_add_right _ _

theorem moved_iff :
    store.Moved naming none image ↔
      ∀ (index : FrameId) (frame : Frame), store.frames[index]? = some frame →
        ∃ other, image.frames[naming.frame index]? = some other ∧ frame.Renamed naming other := by
  simp only [Store.Moved, Frame.moved_none_iff]

theorem lookup (renamed : store.Renamed naming image) (scope : FrameId) (name : String) :
    image.lookup (naming.frame scope) name =
      (store.lookup scope name).map (Value.rename naming) := by
  apply (moved_iff.2 renamed.frames).lookup
  · exact fun index none => renamed.missing none
  · exact nofun

theorem nextIdentity (renamed : store.Renamed naming image) :
    Renamed naming { store with nextIdentity := store.nextIdentity + 1 }
      { image with nextIdentity := image.nextIdentity + 1 } where
  identity later := by
    have given := renamed.identity (1 + later)
    rwa [← Nat.add_assoc, ← Nat.add_assoc] at given
  frame := renamed.frame
  frames := renamed.frames

theorem addFrame (renamed : store.Renamed naming image) (bindings : List (String × Value))
    (parent : FrameId) :
    Renamed naming (store.addFrame bindings (some parent)).2
      (image.addFrame (bindings.map (Prod.map id (Value.rename naming)))
        (some (naming.frame parent))).2 where
  identity := renamed.identity
  frame later := by
    have given := renamed.frame (1 + later)
    rw [← Nat.add_assoc, ← Nat.add_assoc] at given
    simpa [Store.addFrame] using given
  frames :=
    moved_iff.1 ((moved_iff.2 renamed.frames).addFrame (renamed.frame 0) bindings parent)

theorem bind (renamed : store.Renamed naming image) (scope : FrameId) (name : String)
    (value : Value) :
    Renamed naming (store.bind scope name value)
      (image.bind (naming.frame scope) name (value.rename naming)) where
  identity := renamed.identity
  frame later := by simpa [Store.bind] using renamed.frame later
  frames := moved_iff.1 ((moved_iff.2 renamed.frames).bind scope name value)

end Store.Renamed

theorem Renaming.simulates_renamed (naming : Renaming) :
    naming.Simulates (Store.Renamed naming) where
  lookup renamed := renamed.lookup
  nextIdentity renamed := ⟨(renamed.identity 0).symm, renamed.nextIdentity⟩
  addFrame renamed bindings parent := ⟨(renamed.frame 0).symm, renamed.addFrame bindings parent⟩
  bind renamed := renamed.bind

/-! ## Making room -/

/-- Leaves a bound's worth of numbers in place and moves the others up. -/
def Renaming.raise (bound offset place : Nat) : Nat :=
  if place < bound then place else place + offset

theorem Renaming.raise_strictMono (bound offset : Nat) : StrictMono (raise bound offset) := by
  intro low high less
  unfold raise
  split <;> split <;> omega

theorem Renaming.raise_of_lt {bound place : Nat} (below : place < bound) (offset : Nat) :
    raise bound offset place = place := if_pos below

theorem Renaming.raise_add {bound top : Nat} (fits : bound ≤ top) (later : Nat) :
    raise bound (top - bound) (bound + later) = top + later := by
  rw [raise, if_neg (by omega)]
  omega

/-- Makes room after a store for what another store has given out since. -/
def Renaming.shift (store image : Store) : Renaming where
  identity := raise store.nextIdentity (image.nextIdentity - store.nextIdentity)
  frame := raise store.frames.size (image.frames.size - store.frames.size)
  identity_injective := (raise_strictMono _ _).injective
  frame_strictMono := raise_strictMono _ _

theorem Renaming.shift_fixes (store image : Store) : (shift store image).Fixes store where
  identity _ given := raise_of_lt given _
  frame _ given := raise_of_lt given _

/-- Every frame of a store is in another one too, in the same place, with the same parent and the
same bindings. -/
def Store.PreservedIn (before after : Store) : Prop :=
  ∀ (index : FrameId) (frame : Frame), before.frames[index]? = some frame →
    ∃ kept, after.frames[index]? = some kept ∧ kept.parent = frame.parent ∧
      kept.find? = frame.find?

/-- A store that preserves another one is that store renamed by making room for what came since. -/
theorem Store.PreservedIn.renamed {before after : Store} (preserved : before.PreservedIn after)
    (grows : before.Grows after) (supports : before.Supports fun _ => True) :
    before.Renamed (Renaming.shift before after) after where
  identity := Renaming.raise_add grows.identities
  frame := Renaming.raise_add grows.frames
  frames index frame found := by
    have fixes := Renaming.shift_fixes before after
    obtain ⟨inBounds, _⟩ := Array.getElem?_eq_some_iff.1 found
    obtain ⟨kept, keptFound, sameParent, sameBindings⟩ := preserved index frame found
    obtain ⟨fixed, _⟩ := supports _ fixes
    have unchanged := fixed index frame found
    refine ⟨kept, ?_, ?_⟩
    · rw [fixes.frame index inBounds]
      exact keptFound
    · refine ⟨sameParent.trans unchanged.parent, ?_⟩
      intro name
      rw [sameBindings]
      exact unchanged.find? name

/-! ## Evaluation again -/

/-- One end of an evaluation is the other one but for the names of what was made since a store. -/
structure Store.Alike (since : Store) (naming : Renaming) (first second : Value × Store) : Prop where
  fixes : naming.Fixes since
  value : second.1 = first.1.rename naming
  store : first.2.Renamed naming second.2

/-- A computation ends, and like another one but for the names of what was made since a store.  Then
the text of its result is the same, and an error or a pending return is the same error or pending
return. -/
def Store.EndsAlike (since : Store) (first : Value × Store) (second : Option (Value × Store)) :
    Prop :=
  ∃ naming step, second = some step ∧ since.Alike naming first step ∧
    step.1.inspect = first.1.inspect ∧
    (∀ message, first.1 = .error message → step.1 = .error message) ∧
    ∀ value, first.1 = .returned value → step.1 = .returned (value.rename naming)

theorem Store.Alike.endsAlike {since : Store} {naming : Renaming} {first second : Value × Store}
    (alike : since.Alike naming first second) : since.EndsAlike first (some second) := by
  refine ⟨naming, second, rfl, alike, ?_, ?_, ?_⟩
  · rw [alike.value]
    exact first.1.inspect_rename naming
  · intro message failed
    rw [alike.value, failed]
    rfl
  · intro value pending
    rw [alike.value, pending]
    rfl

namespace Evaluate

variable {library : Library} {depth : Nat} {scope : FrameId} {before after : Store} {result : Value}

/-- An expression without targets preserves the store. -/
theorem preservedIn_of_targets_eq_nil {expr : Expr} (letFree : expr.targets = [])
    (ended : (Task.expression scope expr).run library depth before = some (result, after)) :
    before.PreservedIn after := by
  intro index frame found
  obtain ⟨kept, keptFound, _, rebinds⟩ :=
    Task.keepsFrames_run library depth _ before result after ended index frame found
  refine ⟨kept, keptFound, rebinds.parent, ?_⟩
  funext name
  apply rebinds.others
  change name ∉ expr.targets
  rw [letFree]
  exact List.not_mem_nil

/-- What is evaluated in a scope of a store takes the same course in every larger store that
preserves it. -/
theorem endsAlike_of_preservedIn {image : Store} {task : Task}
    (supports : before.Supports fun _ => True) (preserved : before.PreservedIn image)
    (grows : before.Grows image) (inScope : task.scope? = some scope)
    (inStore : scope < before.frames.size)
    (ended : task.run library depth before = some (result, after)) :
    before.EndsAlike (result, after) (task.run library depth image) := by
  have fixes := Renaming.shift_fixes before image
  -- The scope lies below the room that is made, so the same task runs on both stores.
  have sameTask : task.rename (Renaming.shift before image) = task :=
    (Task.rename_eq_self_iff inScope).2 (fixes.frame scope inStore)
  have together := mirrors_run (Renaming.simulates_renamed _) library depth task before image
    (preserved.renamed grows supports)
  rw [sameTask, ended] at together
  generalize task.run library depth image = imageEnded at together ⊢
  cases together with
  | some both => exact Store.Alike.endsAlike ⟨fixes, both.1, both.2⟩

/-- What is evaluated after an expression without targets ends as it does without it. -/
theorem endsAlike_after {other : Expr} {otherScope : FrameId} {otherDepth : Nat}
    {otherResult : Value} {image : Store} {task : Task}
    (supports : before.Supports fun _ => True) (letFree : other.targets = [])
    (otherEnded : (Task.expression otherScope other).run library otherDepth before =
      some (otherResult, image))
    (inScope : task.scope? = some scope) (inStore : scope < before.frames.size)
    (ended : task.run library depth before = some (result, after)) :
    before.EndsAlike (result, after) (task.run library depth image) := by
  have preserved := preservedIn_of_targets_eq_nil letFree otherEnded
  obtain ⟨grows, _⟩ := stays_run (Renaming.shift before image) library otherDepth _ before
    otherResult image otherEnded
  exact endsAlike_of_preservedIn supports preserved grows inScope inStore ended

end Evaluate

namespace Session

open Evaluate

/-- Expressions that bind nothing outside their function literals, evaluated in any frame of any
store of a session: the first one changes no frame; after it the second one ends as it would have
without it; and the first one ends as it did when it is evaluated again after itself or after the
second one.  Ends are compared up to a one-to-one renaming of what was made since. -/
theorem evaluations_agree_of_letFree {library : Library} {store afterFirst afterSecond : Store}
    {scope : FrameId} {first second : Expr} {firstDepth secondDepth : Nat}
    {firstValue secondValue : Value}
    (visited : Visits library store) (inStore : scope < store.frames.size)
    (firstFree : first.targets = []) (secondFree : second.targets = [])
    (firstEnded : (Task.expression scope first).run library firstDepth store =
      some (firstValue, afterFirst))
    (secondEnded : (Task.expression scope second).run library secondDepth store =
      some (secondValue, afterSecond)) :
    store.PreservedIn afterFirst ∧
      store.EndsAlike (secondValue, afterSecond)
        ((Task.expression scope second).run library secondDepth afterFirst) ∧
      store.EndsAlike (firstValue, afterFirst)
        ((Task.expression scope first).run library firstDepth afterFirst) ∧
      store.EndsAlike (firstValue, afterFirst)
        ((Task.expression scope first).run library firstDepth afterSecond) := by
  have supports := supports_of_visits visited
  refine ⟨preservedIn_of_targets_eq_nil firstFree firstEnded, ?_, ?_, ?_⟩
  · exact endsAlike_after supports firstFree firstEnded rfl inStore secondEnded
  · exact endsAlike_after supports firstFree firstEnded rfl inStore firstEnded
  · exact endsAlike_after supports secondFree secondEnded rfl inStore firstEnded

/-- The call `make(x)` and the comparison `get == get`, in an array. -/
def callingSample : Expr :=
  .array [.call (.identifier "make") [.identifier "x"],
    .binary (.identifier "get") .equal (.identifier "get")]

/-- A function that binds a name, in a dictionary. -/
def bindingSample : Expr :=
  .dictionary [(.string "keep", .function ["z"] [.bind "w" (.identifier "z")])]

/-- Two expressions that make frames, functions and collections, in the frame that the function
`get` has captured. -/
theorem evaluations_agree_in_captured_frame :
    ∃ (store afterFirst afterSecond : Store) (firstValue secondValue : Value),
      Visits Library.standard store ∧
      (Task.expression 1 callingSample).run Library.standard 1 store =
        some (firstValue, afterFirst) ∧
      (Task.expression 1 bindingSample).run Library.standard 0 store =
        some (secondValue, afterSecond) ∧
      store.PreservedIn afterFirst ∧
      store.EndsAlike (secondValue, afterSecond)
        ((Task.expression 1 bindingSample).run Library.standard 0 afterFirst) ∧
      store.EndsAlike (firstValue, afterFirst)
        ((Task.expression 1 callingSample).run Library.standard 1 afterFirst) ∧
      store.EndsAlike (firstValue, afterFirst)
        ((Task.expression 1 callingSample).run Library.standard 1 afterSecond) := by
  have allEnd : (((start Library.standard).run 1
      "let make = fn(x) \x7b fn() \x7b x \x7d \x7d; let get = make(1);").bind fun step =>
        ((Task.expression 1 callingSample).run Library.standard 1 step.2.store).bind fun _ =>
          ((Task.expression 1 bindingSample).run Library.standard 0 step.2.store).map fun _ =>
            step.2.store.frames.size) = some 2 := by
    decide +kernel
  obtain ⟨⟨outcome, session⟩, ran, rest⟩ := Option.bind_eq_some_iff.1 allEnd
  obtain ⟨⟨firstValue, afterFirst⟩, firstEnded, last⟩ := Option.bind_eq_some_iff.1 rest
  obtain ⟨⟨secondValue, afterSecond⟩, secondEnded, size⟩ := Option.map_eq_some_iff.1 last
  have visited : Visits Library.standard session.store := .between (.run .start ran)
  have inStore : 1 < session.store.frames.size := by
    rw [size]
    exact Nat.one_lt_two
  exact ⟨session.store, afterFirst, afterSecond, firstValue, secondValue, visited, firstEnded,
    secondEnded, evaluations_agree_of_letFree visited inStore rfl rfl firstEnded secondEnded⟩

end Session

end Scriptlet
