import Mathlib.Data.Set.Defs
import Scriptlet.Proofs.Evaluate.Ledger

/-!
# Names that are not mentioned

A name that occurs neither in a piece of code nor in the functions that this code can come by is
never looked up, bound or made a parameter by it.  So the code takes the same course on the store
without any binding of the name: evaluation and forgetting the name commute.

Which functions the code can come by is said by a set of frames: the values that are found in them,
under other names, are made of functions that do not mention the name and whose scopes are in the
set again.
-/

namespace Scriptlet

/-! ## Names in code -/

mutual

/-- The names that occur in an expression: as identifiers, as targets of bindings and as
parameters. -/
def Expr.names : Expr → List String
  | .identifier name => [name]
  | .array elements => Expr.namesAll elements
  | .dictionary pairs => Expr.namesPairs pairs
  | .unary _ operand => operand.names
  | .binary left _ right => left.names ++ right.names
  | .conditional condition consequence none => condition.names ++ Block.names consequence
  | .conditional condition consequence (some alternative) =>
      condition.names ++ Block.names consequence ++ Block.names alternative
  | .function parameters body => parameters ++ Block.names body
  | .call callee arguments => callee.names ++ Expr.namesAll arguments
  | .index collection position => collection.names ++ position.names
  | _ => []
  termination_by structural expr => expr

/-- The names that occur in several expressions. -/
def Expr.namesAll : List Expr → List String
  | [] => []
  | expr :: rest => expr.names ++ Expr.namesAll rest
  termination_by structural exprs => exprs

/-- The names that occur in the pairs of a dictionary literal. -/
def Expr.namesPairs : List (Expr × Expr) → List String
  | [] => []
  | (key, value) :: rest => key.names ++ value.names ++ Expr.namesPairs rest
  termination_by structural pairs => pairs

/-- The names that occur in a statement. -/
def Stmt.names : Stmt → List String
  | .bind name value => name :: value.names
  | .returns value => value.names
  | .expression value => value.names
  termination_by structural stmt => stmt

/-- The names that occur in the statements of a block. -/
def Block.names : List Stmt → List String
  | [] => []
  | stmt :: rest => stmt.names ++ Block.names rest
  termination_by structural stmts => stmts

end

/-- The names that occur in a program. -/
def Program.names (program : Program) : List String := Block.names program.statements

/-- The names that occur in the literal of a function. -/
def Closure.names (closure : Closure) : List String :=
  closure.parameters ++ Block.names closure.body

/-! ## Forgetting a name -/

/-- The frame without bindings of a name. -/
def Frame.forget (name : String) (frame : Frame) : Frame :=
  { frame with bindings := frame.bindings.filter fun binding => binding.1 != name }

/-- The store without bindings of a name. -/
def Store.forget (name : String) (store : Store) : Store :=
  { store with frames := store.frames.map (Frame.forget name) }

variable {name : String}

theorem Frame.find?_forget (frame : Frame) {other : String} (different : other ≠ name) :
    (frame.forget name).find? other = frame.find? other := by
  unfold Frame.find? Frame.forget
  induction frame.bindings with
  | nil => rfl
  | cons binding rest ih =>
      obtain ⟨key, value⟩ := binding
      by_cases isName : key = name
      · have skipped : (other == key) = false := by
          rw [isName]
          exact beq_eq_false_iff_ne.2 different
        rw [List.lookup_cons, skipped]
        simpa [isName] using ih
      · simp only [bne_iff_ne, ne_eq, isName, not_false_eq_true, List.filter_cons_of_pos,
          List.lookup_cons, ih]

theorem Frame.find?_forget_self (frame : Frame) : (frame.forget name).find? name = none := by
  refine List.lookup_eq_none_iff.2 fun binding member => ?_
  have kept := (List.mem_filter.1 member).2
  rw [bne_iff_ne] at kept ⊢
  exact kept.symm

theorem Frame.forget_bind (frame : Frame) (value : Value) :
    (frame.bind name value).forget name = frame.forget name := by
  simp [Frame.forget, Frame.bind]

theorem Frame.forget_bind_of_ne (frame : Frame) {other : String} (different : other ≠ name)
    (value : Value) :
    (frame.bind other value).forget name = (frame.forget name).bind other value := by
  simp [Frame.forget, Frame.bind, different]

@[simp] theorem Frame.parent_forget (frame : Frame) :
    (frame.forget name).parent = frame.parent := rfl

theorem Store.getElem?_forget (store : Store) (index : FrameId) :
    (store.forget name).frames[index]? = store.frames[index]?.map (Frame.forget name) :=
  Array.getElem?_map ..

theorem Store.lookup_forget (store : Store) (scope : FrameId) {other : String}
    (different : other ≠ name) :
    (store.forget name).lookup scope other = store.lookup scope other := by
  fun_induction store.lookup scope other with
  | case1 scope none =>
      rw [Store.lookup, Store.getElem?_forget, none]
      rfl
  | case2 scope frame found value own =>
      rw [Store.lookup, Store.getElem?_forget, found]
      simp only [Option.map_some, Frame.find?_forget frame different, own]
  | case3 scope frame found none noParent =>
      rw [Store.lookup, Store.getElem?_forget, found]
      simp only [Option.map_some, Frame.find?_forget frame different, none, Frame.parent_forget,
        noParent]
  | case4 scope frame found none parent isParent older ih =>
      rw [Store.lookup, Store.getElem?_forget, found]
      simp only [Option.map_some, Frame.find?_forget frame different, none, Frame.parent_forget,
        isParent]
      rw [dif_pos older]
      exact ih
  | case5 scope frame found none parent isParent notOlder =>
      rw [Store.lookup, Store.getElem?_forget, found]
      simp only [Option.map_some, Frame.find?_forget frame different, none, Frame.parent_forget,
        isParent]
      rw [dif_neg notOlder]

theorem Store.forget_bind (store : Store) (scope : FrameId) (value : Value) :
    (store.bind scope name value).forget name = store.forget name := by
  have frames : (store.frames.modify scope (·.bind name value)).map (Frame.forget name) =
      store.frames.map (Frame.forget name) := by
    apply Array.ext_getElem?
    intro index
    rw [Array.getElem?_map, Array.getElem?_modify, Array.getElem?_map]
    split
    · simp only [Option.map_map, Function.comp_def, Frame.forget_bind]
    · rfl
  unfold Store.bind Store.forget
  rw [frames]

theorem Store.forget_bind_of_ne (store : Store) (scope : FrameId) {other : String}
    (different : other ≠ name) (value : Value) :
    (store.bind scope other value).forget name = (store.forget name).bind scope other value := by
  have frames : (store.frames.modify scope (·.bind other value)).map (Frame.forget name) =
      (store.frames.map (Frame.forget name)).modify scope (·.bind other value) := by
    apply Array.ext_getElem?
    intro index
    rw [Array.getElem?_map, Array.getElem?_modify, Array.getElem?_modify, Array.getElem?_map]
    split
    · simp only [Option.map_map, Function.comp_def, Frame.forget_bind_of_ne _ different]
    · rfl
  unfold Store.bind Store.forget
  rw [frames]

theorem Store.forget_addFrame (store : Store) {bindings : List (String × Value)}
    (absent : ∀ binding ∈ bindings, binding.1 ≠ name) (parent : Option FrameId) :
    (store.addFrame bindings parent).2.forget name =
      ((store.forget name).addFrame bindings parent).2 := by
  have kept : bindings.filter (fun binding => binding.1 != name) = bindings := by
    rw [List.filter_eq_self]
    intro binding member
    exact bne_iff_ne.2 (absent binding member)
  simp [Store.addFrame, Store.forget, Array.map_push, Frame.forget, kept]

/-! ## Functions that do not mention a name -/

/-- No function in a value mentions a name, and all their scopes are in a set of frames. -/
def Value.Avoids (name : String) (frames : Set FrameId) (value : Value) : Prop :=
  ∀ identity closure, (identity, Value.function identity closure) ∈ value.composites →
    name ∉ closure.names ∧ closure.scope ∈ frames

/-- Frames of a store whose values, but for those of a name itself, avoid the name.  They include
all frames that the store has not made yet. -/
structure Store.Clear (name : String) (frames : Set FrameId) (store : Store) : Prop where
  unmade : ∀ index, store.frames.size ≤ index → index ∈ frames
  parent : ∀ index ∈ frames, ∀ frame, store.frames[index]? = some frame →
    ∀ parent, frame.parent = some parent → parent ∈ frames
  found : ∀ index ∈ frames, ∀ frame, store.frames[index]? = some frame →
    ∀ other, other ≠ name → ∀ value, frame.find? other = some value → value.Avoids name frames

variable {frames : Set FrameId}

namespace Value

theorem avoids_of_isAtom {value : Value} (atom : value.isAtom = true) :
    value.Avoids name frames := by
  cases value with
  | array | dictionary | function | returned => cases atom
  | _ => exact nofun

theorem Avoids.of_subset {value part : Value} (avoids : value.Avoids name frames)
    (subset : part.composites ⊆ value.composites) : part.Avoids name frames :=
  fun identity closure member => avoids identity closure (subset member)

theorem avoids_array_iff {identity : Identity} {elements : List Value} :
    (array identity elements).Avoids name frames ↔
      ∀ value ∈ elements, value.Avoids name frames := by
  constructor
  · intro avoids value member
    refine avoids.of_subset fun composite inside => List.mem_cons_of_mem _ ?_
    exact mem_compositesAll_iff.2 ⟨value, member, inside⟩
  · intro avoids own closure member
    rcases List.mem_cons.1 member with impossible | inside
    · cases impossible
    · obtain ⟨value, member, inside⟩ := mem_compositesAll_iff.1 inside
      exact avoids value member own closure inside

theorem avoids_dictionary {identity : Identity} {entries : Entries Value}
    (avoids : ∀ entry ∈ entries, entry.2.Avoids name frames) :
    (dictionary identity entries).Avoids name frames := by
  intro own closure member
  rcases List.mem_cons.1 member with impossible | inside
  · cases impossible
  · obtain ⟨entry, member, inside⟩ := mem_compositesEntries_iff.1 inside
    exact avoids entry member own closure inside

theorem avoids_function_iff {identity : Identity} {closure : Closure} :
    (function identity closure).Avoids name frames ↔
      name ∉ closure.names ∧ closure.scope ∈ frames := by
  constructor
  · intro avoids
    exact avoids identity closure List.mem_cons_self
  · intro clean own other member
    cases List.mem_singleton.1 member
    exact clean

theorem Avoids.settled {value : Value} (avoids : value.Avoids name frames) :
    value.settled.Avoids name frames := by
  cases value with
  | returned value => exact avoids
  | _ => exact avoids

theorem avoids_getD_null {found : Option Value}
    (avoids : ∀ value ∈ found, value.Avoids name frames) :
    (found.getD null).Avoids name frames := by
  cases found with
  | none => exact avoids_of_isAtom rfl
  | some value => exact avoids value rfl

end Value

namespace Store.Clear

variable {store : Store}

theorem lookup (clear : store.Clear name frames) {scope : FrameId} (inFrames : scope ∈ frames)
    {other : String} (different : other ≠ name) {value : Value}
    (found : store.lookup scope other = some value) : value.Avoids name frames := by
  fun_induction store.lookup scope other with
  | case1 => cases found
  | case2 scope frame frameFound own ownFound =>
      cases found
      exact clear.found scope inFrames frame frameFound other different value ownFound
  | case3 => cases found
  | case4 scope frame frameFound _ parent isParent _ ih =>
      exact ih (clear.parent scope inFrames frame frameFound parent isParent) found
  | case5 => cases found

theorem nextIdentity (clear : store.Clear name frames) (next : Identity) :
    Store.Clear name frames { store with nextIdentity := next } :=
  ⟨clear.unmade, clear.parent, clear.found⟩

theorem bind (clear : store.Clear name frames) (scope : FrameId) (other : String) {value : Value}
    (avoids : value.Avoids name frames) : (store.bind scope other value).Clear name frames := by
  have unbound {index : FrameId} {frame : Frame}
      (frameFound : (store.bind scope other value).frames[index]? = some frame) :
      ∃ old, store.frames[index]? = some old ∧ frame.parent = old.parent ∧
        ∀ asked found, frame.find? asked = some found →
          found = value ∨ old.find? asked = some found := by
    rw [Store.bind, Array.getElem?_modify] at frameFound
    split at frameFound
    · obtain ⟨old, oldFound, rfl⟩ := Option.map_eq_some_iff.1 frameFound
      refine ⟨old, oldFound, rfl, ?_⟩
      intro asked found isFound
      rw [Frame.find?_bind] at isFound
      split at isFound
      · cases isFound
        exact .inl rfl
      · exact .inr isFound
    · exact ⟨frame, frameFound, rfl, fun _ _ => .inr⟩
  refine ⟨?_, ?_, ?_⟩
  · simpa [Store.bind] using clear.unmade
  · intro index inFrames frame frameFound parent isParent
    obtain ⟨old, oldFound, sameParent, _⟩ := unbound frameFound
    exact clear.parent index inFrames old oldFound parent (sameParent.symm.trans isParent)
  · intro index inFrames frame frameFound asked different found isFound
    obtain ⟨old, oldFound, _, bindings⟩ := unbound frameFound
    rcases bindings asked found isFound with rfl | isOld
    · exact avoids
    · exact clear.found index inFrames old oldFound asked different found isOld

theorem addFrame (clear : store.Clear name frames) {bindings : List (String × Value)}
    (avoids : ∀ binding ∈ bindings, binding.2.Avoids name frames) {parent : FrameId}
    (inFrames : parent ∈ frames) :
    (store.addFrame bindings (some parent)).2.Clear name frames := by
  have isNewOrOld {index : FrameId} {frame : Frame}
      (frameFound : (store.addFrame bindings (some parent)).2.frames[index]? = some frame) :
      frame = ⟨bindings, some parent⟩ ∨ store.frames[index]? = some frame := by
    rw [Store.addFrame, Array.getElem?_push] at frameFound
    split at frameFound
    · cases frameFound
      exact .inl rfl
    · exact .inr frameFound
  refine ⟨?_, ?_, ?_⟩
  · intro index unmade
    rw [Store.addFrame, Array.size_push] at unmade
    exact clear.unmade index (Nat.le_of_succ_le unmade)
  · intro index member frame frameFound around isParent
    rcases isNewOrOld frameFound with rfl | isOld
    · cases isParent
      exact inFrames
    · exact clear.parent index member frame isOld around isParent
  · intro index member frame frameFound asked different found isFound
    rcases isNewOrOld frameFound with rfl | isOld
    · have isBound : bindings.lookup asked = some found := isFound
      obtain ⟨front, back, bindingsEq, _⟩ := List.lookup_eq_some_iff.1 isBound
      exact avoids (asked, found) (by simp [bindingsEq])
    · exact clear.found index member frame isOld asked different found isFound

end Store.Clear

/-! ## Computations that ignore a name -/

/-- A computation takes the same course when a name is forgotten, and keeps the frames clear of
it. -/
def Run.Ignores {α : Type} (name : String) (frames : Set FrameId) (accepts : α → Prop)
    (run : Run α) : Prop :=
  ∀ store : Store, store.Clear name frames →
    run (store.forget name) = (run store).map (fun step => (step.1, step.2.forget name)) ∧
      ∀ result after, run store = some (result, after) → after.Clear name frames ∧ accepts result

namespace Run.Ignores

variable {α β : Type} {accepts : α → Prop} {approves : β → Prop}

theorem pure {value : α} (accepted : accepts value) :
    (Pure.pure value : Run α).Ignores name frames accepts := by
  intro store clear
  refine ⟨rfl, ?_⟩
  intro result after ended
  obtain ⟨rfl, rfl⟩ := pure_eq_some.1 ended
  exact ⟨clear, accepted⟩

theorem bind {first : Run α} {next : α → Run β} (ignores : first.Ignores name frames accepts)
    (nextIgnores : ∀ value, accepts value → (next value).Ignores name frames approves) :
    (first >>= next).Ignores name frames approves := by
  intro store clear
  obtain ⟨same, keeps⟩ := ignores store clear
  change (first (store.forget name)).bind (fun step => next step.1 step.2) =
    ((first store).bind fun step => next step.1 step.2).map _ ∧ ∀ result after,
      (first store).bind (fun step => next step.1 step.2) = some (result, after) → _
  rw [same]
  cases ended : first store with
  | none => exact ⟨rfl, nofun⟩
  | some step =>
      obtain ⟨value, middle⟩ := step
      obtain ⟨middleClear, accepted⟩ := keeps value middle ended
      exact nextIgnores value accepted middle middleClear

theorem andThen {first : Run Value} {next : Value → Run Value}
    (ignores : first.Ignores name frames (Value.Avoids name frames))
    (nextIgnores : ∀ value, value.Avoids name frames →
      (next value).Ignores name frames (Value.Avoids name frames)) :
    (first.andThen next).Ignores name frames (Value.Avoids name frames) := by
  apply ignores.bind
  intro value avoids
  split
  · exact pure avoids
  · exact nextIgnores value avoids

theorem unfinished : (Run.unfinished : Run α).Ignores name frames accepts :=
  fun _ _ => ⟨rfl, nofun⟩

theorem newIdentity : Run.newIdentity.Ignores name frames fun _ => True := by
  intro store clear
  refine ⟨rfl, ?_⟩
  rintro _ _ ⟨⟩
  exact ⟨clear.nextIdentity _, True.intro⟩

theorem newArray {elements : List Value} (avoids : ∀ value ∈ elements, value.Avoids name frames) :
    (Run.newArray elements).Ignores name frames (Value.Avoids name frames) :=
  newIdentity.bind fun _ _ => pure (Value.avoids_array_iff.2 avoids)

theorem newDictionary {entries : Entries Value}
    (avoids : ∀ entry ∈ entries, entry.2.Avoids name frames) :
    (Run.newDictionary entries).Ignores name frames (Value.Avoids name frames) :=
  newIdentity.bind fun _ _ => pure (Value.avoids_dictionary avoids)

theorem newFunction {closure : Closure} (unmentioned : name ∉ closure.names)
    (inFrames : closure.scope ∈ frames) :
    (Run.newFunction closure).Ignores name frames (Value.Avoids name frames) :=
  newIdentity.bind fun _ _ => pure (Value.avoids_function_iff.2 ⟨unmentioned, inFrames⟩)

theorem bindName (scope : FrameId) {other : String} (different : other ≠ name) {value : Value}
    (avoids : value.Avoids name frames) :
    (Run.bindName scope other value).Ignores name frames fun _ => True := by
  intro store clear
  constructor
  · change some ((), (store.forget name).bind scope other value) =
      some ((), (store.bind scope other value).forget name)
    rw [store.forget_bind_of_ne scope different]
  · rintro _ _ ⟨⟩
    exact ⟨clear.bind scope other avoids, True.intro⟩

theorem newFrame {bindings : List (String × Value)} {parent : FrameId}
    (absent : ∀ binding ∈ bindings, binding.1 ≠ name)
    (avoids : ∀ binding ∈ bindings, binding.2.Avoids name frames) (inFrames : parent ∈ frames) :
    (Run.newFrame bindings (some parent)).Ignores name frames (· ∈ frames) := by
  intro store clear
  constructor
  · change some ((store.forget name).addFrame bindings (some parent)) =
      some (store.frames.size, (store.addFrame bindings (some parent)).2.forget name)
    rw [store.forget_addFrame absent]
    simp [Store.addFrame, Store.forget]
  · rintro _ _ ⟨⟩
    exact ⟨clear.addFrame avoids inFrames, clear.unmade _ (Nat.le_refl _)⟩

theorem call (operation : Builtin) {arguments : List Value}
    (avoids : ∀ value ∈ arguments, value.Avoids name frames) :
    (operation.call arguments).Ignores name frames (Value.Avoids name frames) := by
  have elementsAvoid {identity : Identity} {elements others : List Value}
      (given : arguments = .array identity elements :: others) :
      ∀ value ∈ elements, value.Avoids name frames := by
    rw [given, List.forall_mem_cons] at avoids
    exact Value.avoids_array_iff.1 avoids.1
  cases operation with
  | len =>
      change (Builtin.callLen arguments).Ignores name frames _
      unfold Builtin.callLen
      split <;> exact pure (Value.avoids_of_isAtom rfl)
  | first =>
      change (Builtin.callFirst arguments).Ignores name frames _
      unfold Builtin.callFirst
      split
      · exact pure (Value.avoids_getD_null fun value found =>
          elementsAvoid rfl value (List.mem_of_mem_head? found))
      · exact pure (Value.avoids_of_isAtom rfl)
      · exact pure (Value.avoids_of_isAtom rfl)
  | last =>
      change (Builtin.callLast arguments).Ignores name frames _
      unfold Builtin.callLast
      split
      · exact pure (Value.avoids_getD_null fun value found =>
          elementsAvoid rfl value (List.mem_of_getLast? found))
      · exact pure (Value.avoids_of_isAtom rfl)
      · exact pure (Value.avoids_of_isAtom rfl)
  | tail =>
      change (Builtin.callTail arguments).Ignores name frames _
      unfold Builtin.callTail
      split
      · exact newArray fun value member => elementsAvoid rfl value (List.mem_of_mem_tail member)
      · exact pure (Value.avoids_of_isAtom rfl)
      · exact pure (Value.avoids_of_isAtom rfl)
  | push =>
      change (Builtin.callPush arguments).Ignores name frames _
      unfold Builtin.callPush
      split
      · refine newArray fun value member => ?_
        rcases List.mem_append.1 member with old | new
        · exact elementsAvoid rfl value old
        · exact avoids value (List.mem_cons_of_mem _ new)
      · exact pure (Value.avoids_of_isAtom rfl)
      · exact pure (Value.avoids_of_isAtom rfl)

end Run.Ignores

/-! ## Evaluation -/

namespace Evaluate

variable {library : Library} {apply : Applier} {scope : FrameId}

/-- An applier that ignores a name for callees and arguments that avoid it. -/
def Ignoring (name : String) (frames : Set FrameId) (apply : Applier) : Prop :=
  ∀ callee arguments, callee.Avoids name frames → (∀ value ∈ arguments, value.Avoids name frames) →
    (apply callee arguments).Ignores name frames (Value.Avoids name frames)

/-- What evaluating a row of parts yields avoids a name: the interruption, or all values. -/
def RowAvoids {α : Type} (name : String) (frames : Set FrameId) (complete : α → Prop) :
    Except Value α → Prop
  | .error interruption => interruption.Avoids name frames
  | .ok values => complete values

theorem ignores_identifier {other : String} (different : other ≠ name) (inFrames : scope ∈ frames) :
    (identifier library scope other).Ignores name frames (Value.Avoids name frames) := by
  intro store clear
  have same : resolve library (store.forget name) scope other =
      resolve library store scope other := by
    unfold resolve
    rw [store.lookup_forget scope different]
  constructor
  · rw [identifier_eq, identifier_eq, same]
    rfl
  · intro result after ended
    rw [identifier_eq] at ended
    cases ended
    refine ⟨clear, ?_⟩
    unfold resolve
    split
    · next found => exact clear.lookup inFrames different found
    · exact Value.avoids_of_isAtom rfl
    · exact Value.avoids_of_isAtom rfl

mutual

theorem ignores_expression (ignoring : Ignoring name frames apply) (inFrames : scope ∈ frames) :
    ∀ expr : Expr, name ∉ expr.names →
    (expression library apply scope expr).Ignores name frames (Value.Avoids name frames)
  | .identifier other, unmentioned =>
      ignores_identifier (fun same => unmentioned (List.mem_singleton.2 same.symm)) inFrames
  | .integer _, _ => .pure (Value.avoids_of_isAtom rfl)
  | .boolean _, _ => .pure (Value.avoids_of_isAtom rfl)
  | .string _, _ => .pure (Value.avoids_of_isAtom rfl)
  | .array elements, unmentioned => by
      apply (ignores_expressions ignoring inFrames elements unmentioned).bind
      rintro (interruption | values) avoids
      · exact .pure avoids
      · exact .newArray avoids
  | .dictionary pairs, unmentioned => by
      apply (ignores_entries ignoring inFrames pairs [] unmentioned nofun).bind
      rintro (interruption | found) avoids
      · exact .pure avoids
      · exact .newDictionary avoids
  | .unary op operand, unmentioned => by
      apply (ignores_expression ignoring inFrames operand unmentioned).andThen
      intro value _
      exact .pure (Value.avoids_of_isAtom (op.isAtom_apply value))
  | .binary left op right, unmentioned => by
      rw [Expr.names, List.mem_append, not_or] at unmentioned
      apply (ignores_expression ignoring inFrames left unmentioned.1).andThen
      intro a _
      apply (ignores_expression ignoring inFrames right unmentioned.2).andThen
      intro b _
      exact .pure (Value.avoids_of_isAtom (op.isAtom_apply a b))
  | .conditional condition consequence none, unmentioned => by
      rw [Expr.names, List.mem_append, not_or] at unmentioned
      apply (ignores_expression ignoring inFrames condition unmentioned.1).andThen
      intro value _
      split
      · exact ignores_block ignoring inFrames .null consequence unmentioned.2
          (Value.avoids_of_isAtom rfl)
      · exact .pure (Value.avoids_of_isAtom rfl)
  | .conditional condition consequence (some alternative), unmentioned => by
      rw [Expr.names, List.mem_append, not_or, List.mem_append, not_or] at unmentioned
      apply (ignores_expression ignoring inFrames condition unmentioned.1.1).andThen
      intro value _
      split
      · exact ignores_block ignoring inFrames .null consequence unmentioned.1.2
          (Value.avoids_of_isAtom rfl)
      · exact ignores_block ignoring inFrames .null alternative unmentioned.2
          (Value.avoids_of_isAtom rfl)
  | .function parameters body, unmentioned => .newFunction unmentioned inFrames
  | .call callee arguments, unmentioned => by
      rw [Expr.names, List.mem_append, not_or] at unmentioned
      apply (ignores_expression ignoring inFrames callee unmentioned.1).andThen
      intro function functionAvoids
      apply (ignores_expressions ignoring inFrames arguments unmentioned.2).bind
      rintro (interruption | values) avoids
      · exact .pure avoids
      · exact ignoring function values functionAvoids avoids
  | .index collection position, unmentioned => by
      rw [Expr.names, List.mem_append, not_or] at unmentioned
      apply (ignores_expression ignoring inFrames collection unmentioned.1).andThen
      intro value avoids
      apply (ignores_expression ignoring inFrames position unmentioned.2).andThen
      intro index _
      exact .pure (avoids.of_subset (value.composites_atIndex_subset index))

theorem ignores_expressions (ignoring : Ignoring name frames apply) (inFrames : scope ∈ frames) :
    ∀ exprs : List Expr, name ∉ Expr.namesAll exprs →
    (expressions library apply scope exprs).Ignores name frames
      (RowAvoids name frames fun values => ∀ value ∈ values, value.Avoids name frames)
  | [], _ => .pure nofun
  | expr :: rest, unmentioned => by
      rw [Expr.namesAll, List.mem_append, not_or] at unmentioned
      apply (ignores_expression ignoring inFrames expr unmentioned.1).bind
      intro value avoids
      split
      · exact .pure avoids
      · apply (ignores_expressions ignoring inFrames rest unmentioned.2).bind
        rintro (interruption | values) restAvoids
        · exact .pure restAvoids
        · exact .pure (List.forall_mem_cons.2 ⟨avoids, restAvoids⟩)

theorem ignores_entries (ignoring : Ignoring name frames apply) (inFrames : scope ∈ frames) :
    ∀ (pairs : List (Expr × Expr)) (found : Entries Value),
    name ∉ Expr.namesPairs pairs → (∀ entry ∈ found, entry.2.Avoids name frames) →
      (entries library apply scope pairs found).Ignores name frames
        (RowAvoids name frames fun found => ∀ entry ∈ found, entry.2.Avoids name frames)
  | [], _, _, foundAvoids => .pure foundAvoids
  | (keyExpr, valueExpr) :: rest, found, unmentioned, foundAvoids => by
      rw [Expr.namesPairs, List.mem_append, not_or, List.mem_append, not_or] at unmentioned
      apply (ignores_expression ignoring inFrames keyExpr unmentioned.1.1).bind
      intro index avoids
      split
      · exact .pure avoids
      · apply (ignores_expression ignoring inFrames valueExpr unmentioned.1.2).bind
        intro value valueAvoids
        split
        · exact .pure valueAvoids
        · split
          · exact .pure (Value.avoids_of_isAtom rfl)
          · exact ignores_entries ignoring inFrames rest _ unmentioned.2
              (Entries.forall_mem_insert foundAvoids valueAvoids)

theorem ignores_statement (ignoring : Ignoring name frames apply) (inFrames : scope ∈ frames) :
    ∀ stmt : Stmt, name ∉ stmt.names →
    (statement library apply scope stmt).Ignores name frames (Value.Avoids name frames)
  | .bind other value, unmentioned => by
      rw [Stmt.names, List.mem_cons, not_or] at unmentioned
      apply (ignores_expression ignoring inFrames value unmentioned.2).andThen
      intro bound avoids
      apply (Run.Ignores.bindName scope (Ne.symm unmentioned.1) avoids).bind
      intro _ _
      exact .pure (Value.avoids_of_isAtom rfl)
  | .returns value, unmentioned => by
      apply (ignores_expression ignoring inFrames value unmentioned).andThen
      intro result avoids
      exact .pure avoids
  | .expression value, unmentioned => ignores_expression ignoring inFrames value unmentioned

theorem ignores_block (ignoring : Ignoring name frames apply) (inFrames : scope ∈ frames) :
    ∀ (start : Value) (stmts : List Stmt), name ∉ Block.names stmts →
    start.Avoids name frames →
      (block library apply scope start stmts).Ignores name frames (Value.Avoids name frames)
  | _, [], _, startAvoids => .pure startAvoids
  | start, stmt :: rest, unmentioned, _ => by
      rw [Block.names, List.mem_append, not_or] at unmentioned
      apply (ignores_statement ignoring inFrames stmt unmentioned.1).andThen
      intro value avoids
      exact ignores_block ignoring inFrames value rest unmentioned.2 avoids

end

/-- The frame of a call binds parameters, none of which is the name, inside the scope of the
function. -/
theorem ignores_invoke (ignoring : Ignoring name frames apply) {closure : Closure}
    {arguments : List Value} (unmentioned : name ∉ closure.names)
    (inFrames : closure.scope ∈ frames) (avoids : ∀ value ∈ arguments, value.Avoids name frames) :
    (invoke library apply closure arguments).Ignores name frames (Value.Avoids name frames) := by
  rw [Closure.names, List.mem_append, not_or] at unmentioned
  refine Run.Ignores.bind (Run.Ignores.newFrame ?_ ?_ inFrames) fun scope scopeInFrames => ?_
  · rintro binding member rfl
    exact unmentioned.1 (List.of_mem_zip (List.mem_reverse.1 member)).1
  · intro binding member
    exact avoids binding.2 (List.of_mem_zip (List.mem_reverse.1 member)).2
  · apply (ignores_block ignoring scopeInFrames .null closure.body unmentioned.2
      (Value.avoids_of_isAtom rfl)).bind
    intro result resultAvoids
    exact .pure resultAvoids.settled

theorem ignoring_applyWith {run : Closure → List Value → Run Value}
    (ignores : ∀ closure arguments, name ∉ closure.names → closure.scope ∈ frames →
      (∀ value ∈ arguments, value.Avoids name frames) →
        (run closure arguments).Ignores name frames (Value.Avoids name frames)) :
    Ignoring name frames (applyWith run) := by
  intro callee arguments calleeAvoids argumentsAvoid
  cases callee with
  | function identity closure =>
      obtain ⟨unmentioned, inFrames⟩ := Value.avoids_function_iff.1 calleeAvoids
      change (if closure.parameters.length = arguments.length then run closure arguments
        else pure _ : Run Value).Ignores name frames _
      split
      · exact ignores closure arguments unmentioned inFrames argumentsAvoid
      · exact .pure (Value.avoids_of_isAtom rfl)
  | builtin other operation => exact .call operation argumentsAvoid
  | _ => exact .pure (Value.avoids_of_isAtom rfl)

theorem ignoring_applyWithin (library : Library) (depth : Nat) :
    Ignoring name frames (applyWithin library depth) := by
  induction depth with
  | zero => exact ignoring_applyWith fun _ _ _ _ _ => .unfinished
  | succ depth ih =>
      exact ignoring_applyWith fun _ _ unmentioned inFrames avoids =>
        ignores_invoke ih unmentioned inFrames avoids

/-- A program that does not mention a name, in a scope whose functions do not, takes the same course
without the name. -/
theorem ignores_program (library : Library) (depth : Nat) (inFrames : scope ∈ frames)
    {tree : Program} (unmentioned : name ∉ tree.names) :
    (program library depth scope tree).Ignores name frames (Value.Avoids name frames) := by
  apply (ignores_block (ignoring_applyWithin library depth) inFrames .null tree.statements
    unmentioned (Value.avoids_of_isAtom rfl)).bind
  intro result avoids
  exact .pure avoids.settled

end Evaluate

end Scriptlet
