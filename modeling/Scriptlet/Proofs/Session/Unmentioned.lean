import Scriptlet.Proofs.Evaluate.Unmentioned
import Scriptlet.Proofs.Session.Identity

/-!
# Bindings that nothing mentions

Binding a name in a session before a program is run makes no difference to a program that does not
mention the name, if no function that the environments of the session hold mentions it.  The value
may bring frames and identities of its own with it, so the two runs number what they make
differently; else they agree in how they end and in what all other names are bound to, in every
frame.
-/

namespace Scriptlet

open Evaluate

variable {name : String} {naming : Renaming}

/-! ## Renaming and the functions in a value -/

mutual

theorem Value.composites_rename (naming : Renaming) : ∀ value : Value,
    (value.rename naming).composites =
      value.composites.map (Prod.map naming.identity (Value.rename naming))
  | .array identity elements => by
      rw [rename, composites, composites, List.map_cons,
        Value.compositesAll_renameAll naming elements]
      rfl
  | .dictionary identity entries => by
      rw [rename, composites, composites, List.map_cons,
        Value.compositesEntries_renameEntries naming entries]
      rfl
  | .function .. => rfl
  | .returned value => value.composites_rename naming
  | .integer _ | .boolean _ | .string _ | .null | .builtin .. | .error _ => rfl

theorem Value.compositesAll_renameAll (naming : Renaming) : ∀ values : List Value,
    compositesAll (renameAll naming values) =
      (compositesAll values).map (Prod.map naming.identity (Value.rename naming))
  | [] => rfl
  | value :: rest => by
      rw [renameAll, compositesAll, compositesAll, List.map_append, value.composites_rename naming,
        Value.compositesAll_renameAll naming rest]

theorem Value.compositesEntries_renameEntries (naming : Renaming) :
    ∀ entries : List (Key × Value), compositesEntries (renameEntries naming entries) =
      (compositesEntries entries).map (Prod.map naming.identity (Value.rename naming))
  | [] => rfl
  | (key, value) :: rest => by
      rw [renameEntries, compositesEntries, compositesEntries, List.map_append,
        value.composites_rename naming, Value.compositesEntries_renameEntries naming rest]

end

/-- A renaming that changes nothing in a value changes no scope of a function in it. -/
theorem Value.scope_fixed {value : Value} (fixed : value.rename naming = value)
    {identity : Identity} {closure : Closure}
    (inside : (identity, Value.function identity closure) ∈ value.composites) :
    naming.frame closure.scope = closure.scope := by
  have all := value.composites_rename naming
  rw [fixed] at all
  have own := List.map_inj_left.1 ((List.map_id _).trans all) _ inside
  have same := congrArg Prod.snd own
  rw [Prod.map_snd, Value.rename_function] at same
  exact (congrArg Closure.scope (Value.function.inj same).2).symm

theorem Value.rename_eq_error_iff {value : Value} {message : String} :
    value.rename naming = .error message ↔ value = .error message := by
  cases value with
  | error own => exact Iff.rfl
  | _ => exact ⟨nofun, nofun⟩

/-! ## Renamed frames without a name -/

/-- One frame is the other renamed, but for what a name is bound to. -/
structure Frame.RenamedBut (name : String) (naming : Renaming) (frame image : Frame) : Prop where
  parent : image.parent = frame.parent.map naming.frame
  find? : ∀ other, other ≠ name →
    image.find? other = (frame.find? other).map (Value.rename naming)

theorem Frame.renamedBut_of_forget {frame image : Frame}
    (renamed : (frame.forget name).Renamed naming (image.forget name)) :
    frame.RenamedBut name naming image where
  parent := renamed.parent
  find? other different := by
    rw [← frame.find?_forget different, ← image.find?_forget different]
    exact renamed.find? other

theorem Frame.Renamed.forget {frame image : Frame} (renamed : frame.Renamed naming image) :
    (frame.forget name).Renamed naming (image.forget name) where
  parent := renamed.parent
  find? other := by
    by_cases isName : other = name
    · rw [isName, frame.find?_forget_self, image.find?_forget_self]
      rfl
    · rw [frame.find?_forget isName, image.find?_forget isName]
      exact renamed.find? other

theorem Store.size_forget (store : Store) : (store.forget name).frames.size = store.frames.size :=
  Array.size_map ..

theorem Store.Supports.forget {store : Store} {fact : Renaming → Prop}
    (supports : store.Supports fact) : (store.forget name).Supports fact := by
  intro naming fixes
  have fixesStore : naming.Fixes store := by
    refine ⟨fixes.identity, fun index inStore => fixes.frame index ?_⟩
    rwa [store.size_forget]
  obtain ⟨unchanged, holds⟩ := supports naming fixesStore
  refine ⟨?_, holds⟩
  intro index frame found
  rw [store.getElem?_forget] at found
  obtain ⟨old, oldFound, rfl⟩ := Option.map_eq_some_iff.1 found
  exact (unchanged index old oldFound).forget

/-- Stores that are renamed without a name correspond, frame by frame, but for the name. -/
theorem Store.Renamed.but {store image : Store}
    (renamed : (store.forget name).Renamed naming (image.forget name)) (index : FrameId) :
    Option.Rel (Frame.RenamedBut name naming) store.frames[index]?
      image.frames[naming.frame index]? := by
  cases found : store.frames[index]? with
  | none =>
      have forgotten : (store.forget name).frames[index]? = none := by
        rw [store.getElem?_forget, found, Option.map_none]
      have missing := renamed.missing forgotten
      rw [image.getElem?_forget, Option.map_eq_none_iff] at missing
      rw [missing]
      exact .none
  | some frame =>
      have forgotten : (store.forget name).frames[index]? = some (frame.forget name) := by
        rw [store.getElem?_forget, found, Option.map_some]
      obtain ⟨other, otherFound, corresponds⟩ := renamed.frames index _ forgotten
      rw [image.getElem?_forget] at otherFound
      obtain ⟨own, ownFound, rfl⟩ := Option.map_eq_some_iff.1 otherFound
      rw [ownFound]
      exact .some (Frame.renamedBut_of_forget corresponds)

/-! ## Larger stores -/

/-- A store has all frames of another one, but for what a name is bound to, and maybe more. -/
structure Store.ExtendedBut (name : String) (store image : Store) : Prop where
  grows : store.Grows image
  frames : ∀ index < store.frames.size,
    (image.forget name).frames[index]? = (store.forget name).frames[index]?

namespace Store.ExtendedBut

variable {store image : Store}

theorem refl (store : Store) : store.ExtendedBut name store :=
  ⟨Grows.refl store, fun _ _ => rfl⟩

theorem own (extended : store.ExtendedBut name image) {index : FrameId}
    (inStore : index < store.frames.size) {frame : Frame}
    (found : image.frames[index]? = some frame) :
    ∃ old, store.frames[index]? = some old ∧ old.forget name = frame.forget name := by
  have same := extended.frames index inStore
  rw [image.getElem?_forget, store.getElem?_forget, found] at same
  exact Option.map_eq_some_iff.1 same.symm

/-- Without the name, a larger store is the store renamed by making room. -/
theorem renamed (extended : store.ExtendedBut name image)
    (supports : store.Supports fun _ => True) :
    (store.forget name).Renamed (Renaming.shift store image) (image.forget name) := by
  have preserved : (store.forget name).PreservedIn (image.forget name) := by
    intro index frame found
    obtain ⟨inStore, _⟩ := Array.getElem?_eq_some_iff.1 found
    rw [store.size_forget] at inStore
    exact ⟨frame, (extended.frames index inStore).trans found, rfl, rfl⟩
  have grows : (store.forget name).Grows (image.forget name) := by
    refine ⟨extended.grows.identities, ?_⟩
    rw [store.size_forget, image.size_forget]
    exact extended.grows.frames
  have sameRoom : Renaming.shift (store.forget name) (image.forget name) =
      Renaming.shift store image := by
    simp only [Renaming.shift, Store.size_forget]
    rfl
  rw [← sameRoom]
  exact preserved.renamed grows supports.forget

end Store.ExtendedBut

/-- A program that does not mention a name takes the same course on two stores that are renamed
without the name. -/
theorem Evaluate.program_of_renamed_forget (library : Library) {scope : FrameId} {tree : Program}
    {store image : Store} {frames imageFrames : Set FrameId} (unmentioned : name ∉ tree.names)
    (clear : store.Clear name frames) (inFrames : scope ∈ frames)
    (imageClear : image.Clear name imageFrames) (imageInFrames : naming.frame scope ∈ imageFrames)
    (renamed : (store.forget name).Renamed naming (image.forget name)) (depth : Nat) :
    Option.Rel
      (fun step imageStep => imageStep.1 = step.1.rename naming ∧
        (step.2.forget name).Renamed naming (imageStep.2.forget name))
      (program library depth scope tree store)
      (program library depth (naming.frame scope) tree image) := by
  obtain ⟨forgotten, _⟩ := ignores_program library depth inFrames unmentioned store clear
  obtain ⟨imageForgotten, _⟩ :=
    ignores_program library depth imageInFrames unmentioned image imageClear
  have together : Option.Rel _ (program library depth scope tree (store.forget name))
      (program library depth (naming.frame scope) tree (image.forget name)) :=
    mirrors_run (Renaming.simulates_renamed naming) library depth (.program scope tree) _ _ renamed
  rw [forgotten, imageForgotten] at together
  generalize program library depth scope tree store = ended at together ⊢
  generalize program library depth (naming.frame scope) tree image = imageEnded at together ⊢
  cases ended with
  | none =>
      cases imageEnded with
      | none => exact .none
      | some imageStep => cases together
  | some step =>
      cases imageEnded with
      | none => cases together
      | some imageStep =>
          cases together with
          | some both => exact .some both

/-- What making room leaves free is the room. -/
theorem Renaming.mem_room_of_forall_raise_ne {bound offset index : Nat}
    (unreached : ∀ place, raise bound offset place ≠ index) :
    bound ≤ index ∧ index < bound + offset := by
  constructor
  · by_contra below
    exact unreached index (raise_of_lt (Nat.lt_of_not_le below) offset)
  · by_contra above
    refine unreached (index - offset) ?_
    rw [raise, if_neg (by omega)]
    omega

/-- A program in a scope of a store leaves the frames that only a larger store has as they are. -/
theorem Evaluate.getElem?_of_unreached {library : Library} {depth : Nat} {scope : FrameId}
    {tree : Program} {store image after : Store} {result : Value} (grows : store.Grows image)
    (inStore : scope < store.frames.size)
    (ended : program library depth scope tree image = some (result, after)) {index : FrameId}
    (unreached : ∀ place, (Renaming.shift store image).frame place ≠ index) :
    after.frames[index]? = image.frames[index]? := by
  obtain ⟨above, below⟩ := Renaming.mem_room_of_forall_raise_ne unreached
  rw [Nat.add_sub_cancel' grows.frames] at below
  have existing := Array.getElem?_eq_getElem below
  obtain ⟨new, found, same, _⟩ := Task.keepsFrames_run library depth (.program scope tree) image
    result after ended index _ existing
  have elsewhere : some scope ≠ some index := by
    rintro ⟨⟩
    exact Nat.not_lt.2 above inStore
  rw [found, existing, same elsewhere]

/-! ## The environments of a session -/

/-- A function is in a value that a frame binds a name to, at any depth. -/
def Store.Binds (store : Store) (index : FrameId) (closure : Closure) : Prop :=
  ∃ frame bound value identity, store.frames[index]? = some frame ∧
    frame.find? bound = some value ∧ (identity, Value.function identity closure) ∈ value.composites

/-- Whether a function in a store mentions a name, in any frame and also under older bindings. -/
def Store.mentions (name : String) (store : Store) : Bool :=
  store.frames.any fun frame => frame.bindings.any fun binding => binding.2.composites.any fun
    | (_, .function _ closure) => decide (name ∈ closure.names)
    | _ => false

namespace Session

/-- The environments of a session: its root scope, the scopes around them, and those that the
functions bound in them have captured. -/
inductive Environment (session : Session) : FrameId → Prop
  | root : Environment session session.root
  | parent {index around : FrameId} {frame : Frame} (inner : Environment session index)
      (found : session.store.frames[index]? = some frame)
      (isParent : frame.parent = some around) : Environment session around
  | captured {index : FrameId} {closure : Closure} (holder : Environment session index)
      (binds : session.store.Binds index closure) : Environment session closure.scope

/-- A function is held in an environment of a session. -/
def Holds (session : Session) (closure : Closure) : Prop :=
  ∃ index, session.Environment index ∧ session.store.Binds index closure

/-- The functions held in a session are among those that its store binds anywhere. -/
theorem names_of_holds {session : Session} (clean : session.store.mentions name = false)
    (closure : Closure) (holds : session.Holds closure) : name ∉ closure.names := by
  obtain ⟨index, _, frame, bound, value, identity, found, isBound, inside⟩ := holds
  obtain ⟨front, back, bindingsEq, _⟩ := List.lookup_eq_some_iff.1 isBound
  have bindingMember : (bound, value) ∈ frame.bindings := by simp [bindingsEq]
  have unmentioned := Array.any_eq_false'.1 clean frame (Array.mem_of_getElem? found)
  rw [Bool.not_eq_true, List.any_eq_false] at unmentioned
  have inBinding := unmentioned _ bindingMember
  rw [Bool.not_eq_true, List.any_eq_false] at inBinding
  simpa using inBinding _ inside

/-- The session with further frames in its store and with some more identities used up: room for
what a value may refer to. -/
def enlarged (session : Session) (frames : Array Frame) (identities : Nat) : Session :=
  { session with
    store := ⟨session.store.frames ++ frames, session.store.nextIdentity + identities⟩ }

/-- Two ends of a program, the second one on a store with more in it: one is the other renamed, but
for what a name is bound to.  Frames that only the second store has are as they were. -/
structure AlikeBut (name : String) (naming : Renaming) (before : Store)
    (ended image : Value × Session) : Prop where
  result : image.1 = ended.1.rename naming
  text : image.1.inspect = ended.1.inspect
  error : ∀ message, image.1 = .error message ↔ ended.1 = .error message
  frames : ∀ index, Option.Rel (Frame.RenamedBut name naming) ended.2.store.frames[index]?
    image.2.store.frames[naming.frame index]?
  others : ∀ index, (∀ place, naming.frame place ≠ index) →
    image.2.store.frames[index]? = before.frames[index]?

variable {library : Library} {session : Session} {tree : Program}

/-- The environments of a session are in its store. -/
theorem Environment.inStore (reached : session.Reachable library) {index : FrameId}
    (environment : session.Environment index) : index < session.store.frames.size := by
  apply Store.Supports.inStore
  intro naming fixes
  obtain ⟨unchanged, rootFixed⟩ := supports_of_reachable reached naming fixes
  refine ⟨unchanged, ?_⟩
  cases environment with
  | root => exact rootFixed
  | parent inner found isParent =>
      have same := (unchanged _ _ found).parent
      rw [isParent] at same
      exact (Option.some.inj same).symm
  | captured holder binds =>
      obtain ⟨frame, bound, value, identity, found, holds, inside⟩ := binds
      have same := (unchanged _ _ found).find? bound
      rw [holds] at same
      exact Value.scope_fixed (Option.some.inj same).symm inside

/-- In a larger store, the environments of a session and the frames to come are clear of a name that
no function held in the session mentions. -/
theorem clear_of_unheld (reached : session.Reachable library)
    (unheld : ∀ closure, session.Holds closure → name ∉ closure.names) {store : Store}
    (extended : session.store.ExtendedBut name store) :
    store.Clear name {index | session.Environment index ∨ store.frames.size ≤ index} := by
  have own {index : FrameId} {frame : Frame} (found : store.frames[index]? = some frame)
      (member : session.Environment index ∨ store.frames.size ≤ index) :
      session.Environment index ∧ ∃ old, session.store.frames[index]? = some old ∧
        old.forget name = frame.forget name := by
    rcases member with environment | unmade
    · exact ⟨environment, extended.own (environment.inStore reached) found⟩
    · rw [Array.getElem?_eq_none unmade] at found
      cases found
  refine ⟨fun _ => .inr, ?_, ?_⟩
  · intro index member frame found around isParent
    obtain ⟨environment, old, oldFound, same⟩ := own found member
    have sameParent : (old.forget name).parent = (frame.forget name).parent := by rw [same]
    exact .inl (.parent environment oldFound (sameParent.trans isParent))
  · intro index member frame found other different value bound identity closure inside
    obtain ⟨environment, old, oldFound, same⟩ := own found member
    rw [← frame.find?_forget different, ← same, old.find?_forget different] at bound
    have binds : session.store.Binds index closure :=
      ⟨old, other, value, identity, oldFound, bound, inside⟩
    exact ⟨unheld closure ⟨index, environment, binds⟩, .inl (.captured environment binds)⟩

/-! ## A binding that is not mentioned -/

theorem extendedBut_set_enlarged (session : Session) (name : String) (frames : Array Frame)
    (identities : Nat) (value : Value) :
    session.store.ExtendedBut name ((session.enlarged frames identities).set name value).store := by
  refine ⟨⟨Nat.le_add_right _ _, ?_⟩, ?_⟩
  · simp [set, enlarged, Store.bind]
  · intro index inStore
    rw [set, Store.forget_bind, Store.getElem?_forget, Store.getElem?_forget, enlarged,
      Array.getElem?_append_left inStore]

/-- On a store that is larger and differs in what a name is bound to, a program takes the same
course if neither it nor a function held in the session mentions the name. -/
theorem runProgram_alikeBut (reached : session.Reachable library) (unmentioned : name ∉ tree.names)
    (unheld : ∀ closure, session.Holds closure → name ∉ closure.names) {image : Store}
    (extended : session.store.ExtendedBut name image) (depth : Nat) :
    Option.Rel (AlikeBut name (Renaming.shift session.store image) image)
      (session.runProgram depth tree)
      (Session.runProgram { session with store := image } depth tree) := by
  have supports := supports_of_reachable reached
  have rootInStore := Environment.inStore reached .root
  have rootFixed := (Renaming.shift_fixes session.store image).frame session.root rootInStore
  have clear := clear_of_unheld reached unheld (.refl session.store)
  have imageClear := clear_of_unheld reached unheld extended
  have renamed := extended.renamed (supports.mono fun _ _ => True.intro)
  have rootKept : session.Environment
      ((Renaming.shift session.store image).frame session.root) := by
    rw [rootFixed]
    exact .root
  have together := program_of_renamed_forget session.library unmentioned clear (.inl .root)
    imageClear (.inl rootKept) renamed depth
  rw [rootFixed] at together
  unfold runProgram perform
  generalize program session.library depth session.root tree session.store = ended at together ⊢
  generalize imageEnded : program session.library depth session.root tree image = imageStep
    at together ⊢
  cases together with
  | none => exact .none
  | @some step other both =>
      obtain ⟨same, renamed⟩ := both
      refine .some ⟨same, ?_, ?_, renamed.but, ?_⟩
      · rw [same]
        exact step.1.inspect_rename _
      · intro message
        rw [same]
        exact Value.rename_eq_error_iff
      · intro index unreached
        exact getElem?_of_unreached extended.grows rootInStore imageEnded unreached

/-- Binding a name that neither a program nor a function held in the session mentions, to any value
and with whatever this value brings with it, changes nothing but that binding: the program ends on
the same conditions, and alike up to a renaming of what it makes. -/
theorem runProgram_set_of_unmentioned (reached : session.Reachable library)
    (unmentioned : name ∉ tree.names)
    (unheld : ∀ closure, session.Holds closure → name ∉ closure.names) (frames : Array Frame)
    (identities : Nat) (value : Value) :
    ∃ naming : Renaming, naming.Fixes session.store ∧ ∀ depth,
      Option.Rel
        (AlikeBut name naming ((session.enlarged frames identities).set name value).store)
        (session.runProgram depth tree)
        (((session.enlarged frames identities).set name value).runProgram depth tree) := by
  have extended := session.extendedBut_set_enlarged name frames identities value
  exact ⟨_, Renaming.shift_fixes session.store _,
    runProgram_alikeBut reached unmentioned unheld extended⟩

/-- Binds a function in an array and in a dictionary, and behind it a captured scope. -/
def holdingSample : String :=
  "let make = fn(a) \x7b fn(b) \x7b push(a, b) \x7d \x7d; let all = [make([1]), \x7b1: make\x7d];"

/-- Calls the functions in `all`, and binds it again. -/
def callingAllSample : String := "let y = first(all)(2); let all = push(all, y); all[1][1](y)"

/-- A function that mentions `x`, with a scope of its own. -/
def strangerSample : Value := .function 8 ⟨["y"], [.bind "all" (.identifier "x")], 2⟩

/-- The scope of the function that mentions `x`. -/
def strangerFrame : Frame := ⟨[("all", .array 7 [])], some 0⟩

/-- A function that mentions its own name is bound in a session that holds others. -/
theorem runProgram_set_of_unmentioned_sample :
    ∃ outcome session tree,
      (Session.start Library.standard).run 2 holdingSample = some (outcome, session) ∧
      Program.ofSource callingAllSample = .ok tree ∧
      (session.runProgram 2 tree).isSome = true ∧
      ∃ naming : Renaming, naming.Fixes session.store ∧ ∀ depth,
        Option.Rel
          (AlikeBut "x" naming ((session.enlarged #[strangerFrame] 4).set "x" strangerSample).store)
          (session.runProgram depth tree)
          (((session.enlarged #[strangerFrame] 4).set "x" strangerSample).runProgram depth
            tree) := by
  have computed : (((Session.start Library.standard).run 2 holdingSample).bind fun step =>
      (Program.ofSource callingAllSample).toOption.bind fun tree =>
        (step.2.runProgram 2 tree).map fun _ =>
          (step.2.store.mentions "x", decide ("x" ∈ tree.names))) = some (false, false) := by
    decide +kernel
  obtain ⟨⟨outcome, session⟩, ran, rest⟩ := Option.bind_eq_some_iff.1 computed
  obtain ⟨tree, parsed, rest⟩ := Option.bind_eq_some_iff.1 rest
  obtain ⟨step, ended, checks⟩ := Option.map_eq_some_iff.1 rest
  obtain ⟨clean, absent⟩ := Prod.mk.inj checks
  have isTree : Program.ofSource callingAllSample = .ok tree := by
    generalize Program.ofSource callingAllSample = outcome at parsed ⊢
    cases outcome with
    | error => cases parsed
    | ok => exact congrArg Except.ok (Option.some.inj parsed)
  exact ⟨outcome, session, tree, ran, isTree, Option.isSome_of_eq_some ended,
    runProgram_set_of_unmentioned (.run .start ran) (of_decide_eq_false absent)
      (names_of_holds clean) #[strangerFrame] 4 strangerSample⟩

end Session

end Scriptlet
