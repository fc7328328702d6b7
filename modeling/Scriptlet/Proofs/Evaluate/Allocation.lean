import Scriptlet.Proofs.Evaluate.FrameLaw
import Scriptlet.Proofs.Evaluate.PlainData
import Scriptlet.Proofs.Evaluate.Renaming

/-!
# Stores refer only to what they have made

Whatever is bound in a store is made of identities and frames that the store has given out.  This is
said through renamings: one that leaves all identities and frames of a store as they are leaves every
binding and every parent link of it as they are.  Evaluation keeps this, because it only adds to what
a store has given out and hands on what it was given, looked up or made; so it holds of every store
of every call tree in a session.
-/

namespace Scriptlet

/-! ## Stores and renamings -/

/-- A renaming that changes none of the identities and frames a store has given out. -/
structure Renaming.Fixes (naming : Renaming) (store : Store) : Prop where
  identity : ∀ identity, identity < store.nextIdentity → naming.identity identity = identity
  frame : ∀ frame, frame < store.frames.size → naming.frame frame = frame

/-- One frame is the other renamed. -/
structure Frame.Renamed (naming : Renaming) (frame image : Frame) : Prop where
  parent : image.parent = frame.parent.map naming.frame
  find? : ∀ name, image.find? name = (frame.find? name).map (Value.rename naming)

namespace Frame.Renamed

variable {naming : Renaming}

theorem lookup_map (bindings : List (String × Value)) (name : String) :
    (bindings.map (Prod.map id (Value.rename naming))).lookup name =
      (bindings.lookup name).map (Value.rename naming) := by
  induction bindings with
  | nil => rfl
  | cons binding rest ih =>
      obtain ⟨key, value⟩ := binding
      simp only [List.map_cons, Prod.map, id, List.lookup_cons]
      split
      · rfl
      · exact ih

theorem new (bindings : List (String × Value)) (parent : FrameId) :
    Renamed naming ⟨bindings, some parent⟩
      ⟨bindings.map (Prod.map id (Value.rename naming)), some (naming.frame parent)⟩ where
  parent := rfl
  find? := lookup_map bindings

theorem bind {frame image : Frame} (renamed : frame.Renamed naming image) (name : String)
    (value : Value) :
    (frame.bind name value).Renamed naming (image.bind name (value.rename naming)) where
  parent := renamed.parent
  find? other := by
    rw [Frame.find?_bind, Frame.find?_bind]
    split
    · rfl
    · exact renamed.find? other

end Frame.Renamed

/-- One frame is the other renamed, and put inside a further frame if there is none around it. -/
structure Frame.Moved (naming : Renaming) (outer : Option FrameId) (frame image : Frame) :
    Prop where
  parent : image.parent = (frame.parent.map naming.frame).or outer
  find? : ∀ name, image.find? name = (frame.find? name).map (Value.rename naming)

theorem Frame.moved_none_iff {naming : Renaming} {frame image : Frame} :
    frame.Moved naming none image ↔ frame.Renamed naming image := by
  constructor
  · intro moved
    exact ⟨moved.parent.trans Option.or_none, moved.find?⟩
  · intro renamed
    exact ⟨renamed.parent.trans Option.or_none.symm, renamed.find?⟩

/-- Every frame of a store is found in another one, moved to its new place. -/
def Store.Moved (naming : Renaming) (outer : Option FrameId) (store image : Store) : Prop :=
  ∀ (index : FrameId) (frame : Frame), store.frames[index]? = some frame →
    ∃ other, image.frames[naming.frame index]? = some other ∧ frame.Moved naming outer other

namespace Store.Moved

variable {naming : Renaming} {outer : Option FrameId} {store image : Store}

/-- A search in moved frames takes the same course, if it finds nothing in the further frame. -/
theorem lookup (moved : store.Moved naming outer image)
    (missing : ∀ index, store.frames[index]? = none → image.frames[naming.frame index]? = none)
    (noOuter : ∀ root ∈ outer, ∀ name, image.lookup root name = none) (scope : FrameId)
    (name : String) :
    image.lookup (naming.frame scope) name =
      (store.lookup scope name).map (Value.rename naming) := by
  fun_induction store.lookup scope name with
  | case1 scope none => rw [Store.lookup, missing scope none, Option.map_none]
  | case2 scope frame found value own =>
      obtain ⟨other, otherFound, corresponds⟩ := moved scope frame found
      rw [Store.lookup, otherFound]
      simp only [corresponds.find?, own, Option.map_some]
  | case3 scope frame found none noParent =>
      obtain ⟨other, otherFound, corresponds⟩ := moved scope frame found
      rw [Store.lookup, otherFound]
      simp only [corresponds.find?, corresponds.parent, none, noParent, Option.map_none,
        Option.none_or]
      cases outer with
      | none => rfl
      | some root => simp [noOuter root rfl]
  | case4 scope frame found none parent isParent older ih =>
      obtain ⟨other, otherFound, corresponds⟩ := moved scope frame found
      rw [Store.lookup, otherFound]
      simp only [corresponds.find?, corresponds.parent, none, isParent, Option.map_none,
        Option.map_some, Option.some_or]
      -- The search goes on in the other store too: renaming keeps which frame is older.
      rw [dif_pos (naming.frame_strictMono older)]
      exact ih
  | case5 scope frame found none parent isParent notOlder =>
      obtain ⟨other, otherFound, corresponds⟩ := moved scope frame found
      rw [Store.lookup, otherFound]
      simp only [corresponds.find?, corresponds.parent, none, isParent, Option.map_none,
        Option.map_some, Option.some_or]
      rw [dif_neg (mt naming.frame_strictMono.lt_iff_lt.1 notOlder)]

theorem addFrame (moved : store.Moved naming outer image)
    (newPlace : naming.frame store.frames.size = image.frames.size)
    (bindings : List (String × Value)) (parent : FrameId) :
    (store.addFrame bindings (some parent)).2.Moved naming outer
      (image.addFrame (bindings.map (Prod.map id (Value.rename naming)))
        (some (naming.frame parent))).2 := by
  intro index frame found
  rw [Store.addFrame, Array.getElem?_push] at found
  rw [Store.addFrame, Array.getElem?_push]
  split at found
  · next isNew =>
      cases found
      rw [isNew, newPlace, if_pos rfl]
      exact ⟨_, rfl, rfl, Frame.Renamed.lookup_map bindings⟩
  · next isOld =>
      rw [← newPlace, if_neg (naming.frame_strictMono.injective.ne isOld)]
      exact moved index frame found

theorem bind (moved : store.Moved naming outer image) (scope : FrameId) (name : String)
    (value : Value) :
    (store.bind scope name value).Moved naming outer
      (image.bind (naming.frame scope) name (value.rename naming)) := by
  intro index frame found
  rw [Store.bind, Array.getElem?_modify] at found
  rw [Store.bind, Array.getElem?_modify]
  split at found
  · next here =>
      obtain ⟨old, oldFound, rfl⟩ := Option.map_eq_some_iff.1 found
      obtain ⟨other, otherFound, corresponds⟩ := moved index old oldFound
      rw [here, if_pos rfl, otherFound]
      refine ⟨_, rfl, corresponds.parent, ?_⟩
      intro asked
      rw [Frame.find?_bind, Frame.find?_bind]
      split
      · rfl
      · exact corresponds.find? asked
  · next elsewhere =>
      rw [if_neg (naming.frame_strictMono.injective.ne elsewhere)]
      exact moved index frame found

end Store.Moved

/-- One store has given out all that another one has. -/
structure Store.Grows (before after : Store) : Prop where
  identities : before.nextIdentity ≤ after.nextIdentity
  frames : before.frames.size ≤ after.frames.size

/-- A renaming changes nothing in the frames of a store. -/
def Store.FixedBy (store : Store) (naming : Renaming) : Prop :=
  ∀ (index : FrameId) (frame : Frame), store.frames[index]? = some frame →
    frame.Renamed naming frame

/-- A store whose bindings and parent links refer only to what the store has given out, and so does
a fact: both are the same under every renaming that changes nothing of that. -/
def Store.Supports (store : Store) (fact : Renaming → Prop) : Prop :=
  ∀ naming : Renaming, naming.Fixes store → store.FixedBy naming ∧ fact naming

namespace Store

variable {naming : Renaming} {store before middle after : Store}

theorem Grows.refl (store : Store) : store.Grows store :=
  ⟨Nat.le_refl _, Nat.le_refl _⟩

theorem Grows.trans (earlier : before.Grows middle) (later : middle.Grows after) :
    before.Grows after :=
  ⟨earlier.identities.trans later.identities, earlier.frames.trans later.frames⟩

theorem Grows.fixes (grows : before.Grows after) (fixes : naming.Fixes after) :
    naming.Fixes before where
  identity identity given := fixes.identity identity (Nat.lt_of_lt_of_le given grows.identities)
  frame frame given := fixes.frame frame (Nat.lt_of_lt_of_le given grows.frames)

theorem FixedBy.lookup (fixed : store.FixedBy naming) (scope : FrameId) (name : String) :
    (store.lookup scope name).map (Value.rename naming) = store.lookup scope name := by
  fun_induction store.lookup scope name with
  | case1 => rfl
  | case2 scope frame found value own =>
      have same := (fixed scope frame found).find? name
      rw [own] at same
      exact same.symm
  | case3 => rfl
  | case4 scope frame found none parent parentIs older ih => exact ih
  | case5 => rfl

theorem FixedBy.addFrame (fixed : store.FixedBy naming) {bindings : List (String × Value)}
    (bindingsFixed : bindings.map (Prod.map id (Value.rename naming)) = bindings)
    {parent : FrameId} (parentFixed : naming.frame parent = parent) :
    (store.addFrame bindings (some parent)).2.FixedBy naming := by
  intro index frame found
  have added : Frame.Renamed naming ⟨bindings, some parent⟩ ⟨bindings, some parent⟩ := by
    have renamed := @Frame.Renamed.new naming bindings parent
    rwa [bindingsFixed, parentFixed] at renamed
  rw [Store.addFrame, Array.getElem?_push] at found
  split at found
  · cases found
    exact added
  · exact fixed index frame found

theorem FixedBy.bind (fixed : store.FixedBy naming) (scope : FrameId) (name : String)
    {value : Value} (valueFixed : value.rename naming = value) :
    (store.bind scope name value).FixedBy naming := by
  intro index frame found
  rw [Store.bind, Array.getElem?_modify] at found
  split at found
  · obtain ⟨old, oldFound, rfl⟩ := Option.map_eq_some_iff.1 found
    have renamed := (fixed index old oldFound).bind name value
    rwa [valueFixed] at renamed
  · exact fixed index frame found

theorem Supports.mono {fact weaker : Renaming → Prop} (supports : store.Supports fact)
    (implies : ∀ naming, fact naming → weaker naming) : store.Supports weaker := by
  intro naming fixes
  obtain ⟨storeFixed, holds⟩ := supports naming fixes
  exact ⟨storeFixed, implies naming holds⟩

end Store

/-! ## Computations that refer only to what there is -/

/-- A computation that ends only adds to what a store has given out.  If what it needs holds, and a
renaming changes nothing of what is given out in the end, then it changes nothing in the result and
in the store that is left if it changed nothing in the store at the start. -/
def Run.Stays {α : Type} (naming : Renaming) (needs : Prop) (rename : α → α) (run : Run α) : Prop :=
  ∀ before result after, run before = some (result, after) →
    before.Grows after ∧
      (needs → naming.Fixes after → before.FixedBy naming →
        after.FixedBy naming ∧ rename result = result)

/-- What a computation starts from is still referred to rightly when it ends, and so is its result. -/
theorem Store.Supports.of_run {α : Type} {needs : Renaming → Prop} {rename : Renaming → α → α}
    {run : Run α} {before after : Store} {result : α} (supports : before.Supports needs)
    (stays : ∀ naming, run.Stays naming (needs naming) (rename naming))
    (ended : run before = some (result, after)) :
    after.Supports fun naming => needs naming ∧ rename naming result = result := by
  intro naming fixes
  obtain ⟨grows, keeps⟩ := stays naming before result after ended
  obtain ⟨storeFixed, met⟩ := supports naming (grows.fixes fixes)
  obtain ⟨afterFixed, resultFixed⟩ := keeps met fixes storeFixed
  exact ⟨afterFixed, met, resultFixed⟩

namespace Run.Stays

variable {α β : Type} {naming : Renaming} {needs : Prop}

theorem pure {rename : α → α} {value : α} (fixed : needs → rename value = value) :
    Stays naming needs rename (Pure.pure value) := by
  intro before result after ended
  obtain ⟨rfl, rfl⟩ := pure_eq_some.1 ended
  exact ⟨Store.Grows.refl before, fun met _ storeFixed => ⟨storeFixed, fixed met⟩⟩

theorem mono {rename : α → α} {stronger : Prop} {run : Run α} (stays : Stays naming needs rename run)
    (implies : stronger → needs) : Stays naming stronger rename run := by
  intro before result after ended
  obtain ⟨grows, keeps⟩ := stays before result after ended
  exact ⟨grows, fun met => keeps (implies met)⟩

/-- What follows may also need that the result so far is fixed. -/
theorem bind {rename : α → α} {renameNext : β → β} {first : Run α} {next : α → Run β}
    (stays : Stays naming needs rename first)
    (nextStays : ∀ value, Stays naming (needs ∧ rename value = value) renameNext (next value)) :
    Stays naming needs renameNext (first >>= next) := by
  intro before result after ended
  obtain ⟨value, middle, firstEnded, nextEnded⟩ := bind_eq_some.1 ended
  obtain ⟨grows, keeps⟩ := stays before value middle firstEnded
  obtain ⟨nextGrows, nextKeeps⟩ := nextStays value middle result after nextEnded
  refine ⟨grows.trans nextGrows, ?_⟩
  intro met fixes storeFixed
  obtain ⟨middleFixed, valueFixed⟩ := keeps met (nextGrows.fixes fixes) storeFixed
  exact nextKeeps ⟨met, valueFixed⟩ fixes middleFixed

theorem andThen {first : Run Value} {next : Value → Run Value}
    (stays : Stays naming needs (Value.rename naming) first)
    (nextStays : ∀ value, Stays naming (needs ∧ value.rename naming = value) (Value.rename naming)
      (next value)) :
    Stays naming needs (Value.rename naming) (first.andThen next) := by
  apply stays.bind
  intro value
  split
  · exact pure And.right
  · exact nextStays value

theorem unfinished {rename : α → α} : Stays naming needs rename unfinished := by
  intro before result after ended
  cases ended

theorem newIdentity : Stays naming needs naming.identity newIdentity := by
  intro before result after ended
  cases ended
  refine ⟨⟨Nat.le_succ _, Nat.le_refl _⟩, ?_⟩
  intro _ fixes storeFixed
  exact ⟨storeFixed, fixes.identity _ (Nat.lt_succ_self _)⟩

theorem newArray {elements : List Value}
    (fixed : needs → elements.map (Value.rename naming) = elements) :
    Stays naming needs (Value.rename naming) (newArray elements) := by
  apply newIdentity.bind
  intro identity
  apply pure
  rintro ⟨met, identityFixed⟩
  rw [Value.rename_array, fixed met, identityFixed]

theorem newDictionary {entries : Entries Value}
    (fixed : needs → entries.map (Prod.map id (Value.rename naming)) = entries) :
    Stays naming needs (Value.rename naming) (newDictionary entries) := by
  apply newIdentity.bind
  intro identity
  apply pure
  rintro ⟨met, identityFixed⟩
  rw [Value.rename_dictionary, fixed met, identityFixed]

theorem newFunction {closure : Closure} (fixed : needs → closure.rename naming = closure) :
    Stays naming needs (Value.rename naming) (newFunction closure) := by
  apply newIdentity.bind
  intro identity
  apply pure
  rintro ⟨met, identityFixed⟩
  rw [Value.rename_function, fixed met, identityFixed]

theorem newFrame {bindings : List (String × Value)} {parent : FrameId}
    (fixed : needs → bindings.map (Prod.map id (Value.rename naming)) = bindings ∧
      naming.frame parent = parent) :
    Stays naming needs naming.frame (newFrame bindings (some parent)) := by
  intro before result after ended
  cases ended
  have grows : before.Grows (before.addFrame bindings (some parent)).2 :=
    ⟨Nat.le_refl _, by simp [Store.addFrame]⟩
  refine ⟨grows, ?_⟩
  intro met fixes storeFixed
  obtain ⟨bindingsFixed, parentFixed⟩ := fixed met
  exact ⟨storeFixed.addFrame bindingsFixed parentFixed, fixes.frame _ (by simp)⟩

theorem bindName {scope : FrameId} {name : String} {value : Value}
    (fixed : needs → value.rename naming = value) :
    Stays naming needs id (bindName scope name value) := by
  intro before result after ended
  cases ended
  refine ⟨⟨Nat.le_refl _, by simp [Store.bind]⟩, ?_⟩
  intro met _ storeFixed
  exact ⟨storeFixed.bind scope name (fixed met), rfl⟩

/-- A builtin hands on elements of its arguments or makes a new array of them. -/
theorem call {arguments : List Value} (builtin : Builtin)
    (fixed : needs → arguments.map (Value.rename naming) = arguments) :
    Stays naming needs (Value.rename naming) (builtin.call arguments) := by
  have elementsFixed {identity : Identity} {elements others : List Value}
      (isArguments : arguments = .array identity elements :: others) (met : needs) :
      elements.map (Value.rename naming) = elements := by
    have allFixed := fixed met
    rw [isArguments, List.map_cons, Value.rename_array, List.cons.injEq,
      Value.array.injEq] at allFixed
    exact allFixed.1.2
  cases builtin with
  | len =>
      change Stays naming needs _ (Builtin.callLen arguments)
      unfold Builtin.callLen
      split <;> exact pure fun _ => rfl
  | first =>
      change Stays naming needs _ (Builtin.callFirst arguments)
      unfold Builtin.callFirst
      split
      · apply pure
        intro met
        rw [← Value.getD_null_rename, ← List.head?_map, elementsFixed rfl met]
      · exact pure fun _ => rfl
      · exact pure fun _ => rfl
  | last =>
      change Stays naming needs _ (Builtin.callLast arguments)
      unfold Builtin.callLast
      split
      · apply pure
        intro met
        rw [← Value.getD_null_rename, ← List.getLast?_map, elementsFixed rfl met]
      · exact pure fun _ => rfl
      · exact pure fun _ => rfl
  | tail =>
      change Stays naming needs _ (Builtin.callTail arguments)
      unfold Builtin.callTail
      split
      · apply newArray
        intro met
        rw [List.map_tail, elementsFixed rfl met]
      · exact pure fun _ => rfl
      · exact pure fun _ => rfl
  | push =>
      change Stays naming needs _ (Builtin.callPush arguments)
      unfold Builtin.callPush
      split
      · next added =>
          apply newArray
          intro met
          have allFixed := fixed met
          simp only [List.map_cons, List.cons.injEq] at allFixed
          rw [List.map_append, List.map_singleton, elementsFixed rfl met, allFixed.2.1]
      · exact pure fun _ => rfl
      · exact pure fun _ => rfl

end Run.Stays

/-! ## Evaluation -/

namespace Evaluate

variable {naming : Renaming} {library : Library} {apply : Applier} {scope : FrameId}

/-- An applier whose results refer only to what its callees and arguments refer to. -/
def Staying (naming : Renaming) (apply : Applier) : Prop :=
  ∀ callee arguments, (apply callee arguments).Stays naming
    (callee.rename naming = callee ∧ arguments.map (Value.rename naming) = arguments)
    (Value.rename naming)

theorem stays_identifier (name : String) :
    (identifier library scope name).Stays naming (naming.frame scope = scope)
      (Value.rename naming) := by
  intro before result after ended
  rw [identifier_eq] at ended
  cases ended
  refine ⟨Store.Grows.refl before, ?_⟩
  intro _ _ storeFixed
  refine ⟨storeFixed, ?_⟩
  have fixed := storeFixed.lookup scope name
  unfold resolve
  split
  · next found =>
      rw [found] at fixed
      exact Option.some.inj fixed
  · rfl
  · rfl

mutual

theorem stays_expression (staying : Staying naming apply) :
    ∀ expr : Expr, (expression library apply scope expr).Stays naming
      (naming.frame scope = scope) (Value.rename naming)
  | .identifier name => stays_identifier name
  | .integer _ => .pure fun _ => rfl
  | .boolean _ => .pure fun _ => rfl
  | .string _ => .pure fun _ => rfl
  | .array elements => by
      apply (stays_expressions staying elements).bind
      rintro (interruption | values)
      · exact .pure fun met => Except.error.inj met.2
      · exact .newArray fun met => Except.ok.inj met.2
  | .dictionary pairs => by
      apply ((stays_entries staying pairs []).mono fun met => ⟨met, rfl⟩).bind
      rintro (interruption | found)
      · exact .pure fun met => Except.error.inj met.2
      · exact .newDictionary fun met => Except.ok.inj met.2
  | .unary op operand => by
      apply (stays_expression staying operand).andThen
      intro value
      apply Run.Stays.pure
      rintro ⟨_, fixed⟩
      rw [← op.apply_rename, fixed]
  | .binary left op right => by
      apply (stays_expression staying left).andThen
      intro a
      apply ((stays_expression staying right).mono And.left).andThen
      intro b
      apply Run.Stays.pure
      rintro ⟨⟨_, leftFixed⟩, rightFixed⟩
      rw [← op.apply_rename, leftFixed, rightFixed]
  | .conditional condition consequence none => by
      apply (stays_expression staying condition).andThen
      intro value
      split
      · exact (stays_block staying .null consequence).mono fun met => ⟨met.1, rfl⟩
      · exact .pure fun _ => rfl
  | .conditional condition consequence (some alternative) => by
      apply (stays_expression staying condition).andThen
      intro value
      split
      · exact (stays_block staying .null consequence).mono fun met => ⟨met.1, rfl⟩
      · exact (stays_block staying .null alternative).mono fun met => ⟨met.1, rfl⟩
  | .function parameters body => by
      apply Run.Stays.newFunction
      intro scopeFixed
      rw [Closure.rename, scopeFixed]
  | .call callee arguments => by
      apply (stays_expression staying callee).andThen
      intro function
      apply ((stays_expressions staying arguments).mono And.left).bind
      rintro (interruption | values)
      · exact .pure fun met => Except.error.inj met.2
      · exact (staying function values).mono fun met => ⟨met.1.2, Except.ok.inj met.2⟩
  | .index collection position => by
      apply (stays_expression staying collection).andThen
      intro value
      apply ((stays_expression staying position).mono And.left).andThen
      intro index
      apply Run.Stays.pure
      rintro ⟨⟨_, valueFixed⟩, indexFixed⟩
      rw [← Value.atIndex_rename, valueFixed, indexFixed]

theorem stays_expressions (staying : Staying naming apply) :
    ∀ exprs : List Expr, (expressions library apply scope exprs).Stays naming
      (naming.frame scope = scope) (naming.outcome (List.map (Value.rename naming)))
  | [] => .pure fun _ => rfl
  | expr :: rest => by
      apply (stays_expression staying expr).bind
      intro value
      split
      · exact .pure fun met => congrArg Except.error met.2
      · apply ((stays_expressions staying rest).mono And.left).bind
        rintro (interruption | values)
        · exact .pure fun met => met.2
        · apply Run.Stays.pure
          rintro ⟨⟨_, valueFixed⟩, othersFixed⟩
          rw [Renaming.outcome, List.map_cons, valueFixed, Except.ok.inj othersFixed]

theorem stays_entries (staying : Staying naming apply) :
    ∀ (pairs : List (Expr × Expr)) (found : Entries Value),
      (entries library apply scope pairs found).Stays naming
        (naming.frame scope = scope ∧ found.map (Prod.map id (Value.rename naming)) = found)
        (naming.outcome (List.map (Prod.map id (Value.rename naming))))
  | [], found => .pure fun met => congrArg Except.ok met.2
  | (keyExpr, valueExpr) :: rest, found => by
      apply ((stays_expression staying keyExpr).mono And.left).bind
      intro index
      split
      · exact .pure fun met => congrArg Except.error met.2
      · apply ((stays_expression staying valueExpr).mono fun met => met.1.1).bind
        intro value
        split
        · exact .pure fun met => congrArg Except.error met.2
        · split
          · exact .pure fun _ => rfl
          · apply (stays_entries staying rest _).mono
            rintro ⟨⟨⟨scopeFixed, foundFixed⟩, _⟩, valueFixed⟩
            refine ⟨scopeFixed, ?_⟩
            rw [← Entries.insert_map, foundFixed, valueFixed]

theorem stays_statement (staying : Staying naming apply) :
    ∀ stmt : Stmt, (statement library apply scope stmt).Stays naming
      (naming.frame scope = scope) (Value.rename naming)
  | .bind name value => by
      apply (stays_expression staying value).andThen
      intro bound
      apply Run.Stays.bind (.bindName And.right)
      intro _
      exact .pure fun _ => rfl
  | .returns value => by
      apply (stays_expression staying value).andThen
      intro result
      exact .pure fun met => congrArg Value.returned met.2
  | .expression value => stays_expression staying value

theorem stays_block (staying : Staying naming apply) :
    ∀ (start : Value) (stmts : List Stmt), (block library apply scope start stmts).Stays naming
      (naming.frame scope = scope ∧ start.rename naming = start) (Value.rename naming)
  | start, [] => .pure And.right
  | start, stmt :: rest => by
      apply ((stays_statement staying stmt).mono And.left).andThen
      intro value
      exact (stays_block staying value rest).mono fun met => ⟨met.1.1, met.2⟩

end

/-- The frame of a call binds the arguments, inside the scope of the function. -/
theorem stays_callFrame (closure : Closure) (arguments : List Value) :
    (Run.newFrame (closure.parameters.zip arguments).reverse (some closure.scope)).Stays naming
      (closure.rename naming = closure ∧ arguments.map (Value.rename naming) = arguments)
      naming.frame := by
  apply Run.Stays.newFrame
  rintro ⟨closureFixed, argumentsFixed⟩
  refine ⟨?_, congrArg Closure.scope closureFixed⟩
  rw [List.map_reverse, ← List.zip_map_right, argumentsFixed]

theorem stays_invoke (staying : Staying naming apply) (closure : Closure)
    (arguments : List Value) :
    (invoke library apply closure arguments).Stays naming
      (closure.rename naming = closure ∧ arguments.map (Value.rename naming) = arguments)
      (Value.rename naming) := by
  apply Run.Stays.bind (stays_callFrame closure arguments)
  intro scope
  apply ((stays_block staying .null closure.body).mono fun met => ⟨met.2, rfl⟩).bind
  intro result
  apply Run.Stays.pure
  rintro ⟨_, resultFixed⟩
  rw [← Value.settled_rename, resultFixed]

theorem staying_applyWith {run : Closure → List Value → Run Value}
    (stays : ∀ closure arguments, (run closure arguments).Stays naming
      (closure.rename naming = closure ∧ arguments.map (Value.rename naming) = arguments)
      (Value.rename naming)) : Staying naming (applyWith run) := by
  intro callee arguments
  cases callee with
  | function identity closure =>
      change (if closure.parameters.length = arguments.length then run closure arguments
        else pure _ : Run Value).Stays naming _ (Value.rename naming)
      split
      · apply (stays closure arguments).mono
        rintro ⟨calleeFixed, argumentsFixed⟩
        rw [Value.rename_function, Value.function.injEq] at calleeFixed
        exact ⟨calleeFixed.2, argumentsFixed⟩
      · exact .pure fun _ => rfl
  | builtin name operation => exact .call operation And.right
  | _ => exact .pure fun _ => rfl

theorem staying_applyWithin (naming : Renaming) (library : Library) (depth : Nat) :
    Staying naming (applyWithin library depth) := by
  induction depth with
  | zero =>
      apply staying_applyWith
      intro closure arguments
      exact .unfinished
  | succ depth ih => exact staying_applyWith (stays_invoke ih)

theorem stays_run (naming : Renaming) (library : Library) (depth : Nat) (task : Task) :
    (task.run library depth).Stays naming (task.rename naming = task) (Value.rename naming) := by
  have staying := staying_applyWithin naming library depth
  cases task with
  | expression scope expr =>
      exact (stays_expression staying expr).mono fun fixed => (Task.expression.inj fixed).1
  | statement scope stmt =>
      exact (stays_statement staying stmt).mono fun fixed => (Task.statement.inj fixed).1
  | block scope stmts =>
      exact (stays_block staying .null stmts).mono fun fixed => ⟨(Task.block.inj fixed).1, rfl⟩
  | application callee arguments =>
      exact (staying callee arguments).mono fun fixed => Task.application.inj fixed
  | program scope tree =>
      apply Run.Stays.bind ((stays_block staying .null tree.statements).mono
        fun fixed => ⟨(Task.program.inj fixed).1, rfl⟩)
      intro result
      apply Run.Stays.pure
      rintro ⟨_, resultFixed⟩
      rw [← Value.settled_rename, resultFixed]

/-! ## Call trees -/

theorem Task.rename_eq_self_iff {task : Task} (inScope : task.scope? = some scope) :
    task.rename naming = task ↔ naming.frame scope = scope := by
  cases task with
  | application callee arguments => cases inScope
  | expression _ expr | statement _ stmt | block _ stmts | program _ tree =>
      cases inScope
      simp [Task.rename]

/-- Everything that an activation starts from refers only to what its store has given out. -/
def Activation.Closed (activation : Activation) : Prop :=
  activation.store.Supports fun naming => activation.task.rename naming = activation.task

namespace Activation

variable {depth : Nat} {before after : Store} {task : Task}

theorem Closed.inScope {activation : Activation} (closed : activation.Closed)
    (inScope : activation.task.scope? = some scope) :
    activation.store.Supports fun naming => naming.frame scope = scope :=
  closed.mono fun _ => (Task.rename_eq_self_iff inScope).1

/-- The result lemma: an activation leaves a store that refers only to what it has given out. -/
theorem Closed.of_run {activation : Activation} (closed : activation.Closed) {result : Value}
    (ended : activation.run library = some (result, after)) :
    after.Supports fun naming => activation.task.rename naming = activation.task ∧
      result.rename naming = result :=
  Store.Supports.of_run closed (fun naming => stays_run naming library _ _) ended

section Scoped

variable {fact : Renaming → Prop} (supports : before.Supports fact)
variable (scopeFixed : ∀ naming, fact naming → naming.frame scope = scope)
include supports scopeFixed

theorem closed_of_scope (inScope : task.scope? = some scope) : Closed ⟨task, depth, before⟩ :=
  supports.mono fun naming holds => (Task.rename_eq_self_iff inScope).2 (scopeFixed naming holds)

theorem supports_of_task (inScope : task.scope? = some scope) {value : Value}
    (ended : Activation.run library ⟨task, depth, before⟩ = some (value, after)) :
    after.Supports fun naming => fact naming ∧ value.rename naming = value :=
  supports.of_run (fun naming => (stays_run naming library depth task).mono
    fun holds => (Task.rename_eq_self_iff inScope).2 (scopeFixed naming holds)) ended

theorem supports_of_expressions {exprs : List Expr} {values : List Value}
    (ended : expressions library (applyWithin library depth) scope exprs before =
      some (.ok values, after)) :
    after.Supports fun naming => fact naming ∧ values.map (Value.rename naming) = values := by
  have stays (naming : Renaming) :
      (expressions library (applyWithin library depth) scope exprs).Stays naming (fact naming)
        (naming.outcome (List.map (Value.rename naming))) :=
    (stays_expressions (staying_applyWithin naming library depth) exprs).mono (scopeFixed naming)
  refine (supports.of_run stays ended).mono ?_
  intro naming holds
  exact ⟨holds.1, Except.ok.inj holds.2⟩

theorem supports_of_entries {pairs : List (Expr × Expr)} {found : Entries Value}
    (ended : entries library (applyWithin library depth) scope pairs [] before =
      some (.ok found, after)) :
    after.Supports fact := by
  have stays (naming : Renaming) :
      (entries library (applyWithin library depth) scope pairs []).Stays naming (fact naming)
        (naming.outcome (List.map (Prod.map id (Value.rename naming)))) :=
    (stays_entries (staying_applyWithin naming library depth) pairs []).mono
      fun holds => ⟨scopeFixed naming holds, rfl⟩
  exact (supports.of_run stays ended).mono fun naming holds => holds.1

end Scoped

/-- The step lemma: what a closed activation starts is closed. -/
theorem Closed.of_calls {parent child : Activation} (closed : parent.Closed)
    (calls : Calls library parent child) : child.Closed := by
  cases calls with
  | element evaluated =>
      have supports := supports_of_expressions (closed.inScope rfl) (fun _ => id) evaluated
      exact closed_of_scope supports (fun _ => And.left) rfl
  | key inserted =>
      have supports := supports_of_entries (closed.inScope rfl) (fun _ => id) inserted
      exact closed_of_scope supports (fun _ => id) rfl
  | entryValue inserted passed =>
      have supports := supports_of_entries (closed.inScope rfl) (fun _ => id) inserted
      have supportsLast := supports_of_task supports (fun _ => id) rfl passed.1
      exact closed_of_scope supportsLast (fun _ => And.left) rfl
  | operand | left | condition | callee | collection | bound | returned | evaluated =>
      exact closed_of_scope (closed.inScope rfl) (fun _ => id) rfl
  | right passed | position passed | consequence passed _ | alternative passed _
  | statement passed | topLevel passed =>
      have supports := supports_of_task (closed.inScope rfl) (fun _ => id) rfl passed.1
      exact closed_of_scope supports (fun _ => And.left) rfl
  | argument passed evaluated =>
      have supports := supports_of_task (closed.inScope rfl) (fun _ => id) rfl passed.1
      have supportsLast := supports_of_expressions supports (fun _ => And.left) evaluated
      exact closed_of_scope supportsLast (fun _ holds => holds.1.1) rfl
  | application passed evaluated =>
      have supports := supports_of_task (closed.inScope rfl) (fun _ => id) rfl passed.1
      refine (supports_of_expressions supports (fun _ => And.left) evaluated).mono ?_
      rintro naming ⟨⟨_, calleeFixed⟩, valuesFixed⟩
      rw [Task.rename, calleeFixed, valuesFixed]
  | @body _ store identity closure arguments scope entered fits created =>
      have supports : store.Supports fun naming => closure.rename naming = closure ∧
          arguments.map (Value.rename naming) = arguments := by
        refine closed.mono ?_
        intro naming fixed
        obtain ⟨calleeFixed, argumentsFixed⟩ := Task.application.inj fixed
        rw [Value.rename_function, Value.function.injEq] at calleeFixed
        exact ⟨calleeFixed.2, argumentsFixed⟩
      have entersFrame : Run.newFrame (closure.parameters.zip arguments).reverse
          (some closure.scope) store = some (scope, entered) := congrArg some created
      have supportsEntered :=
        supports.of_run (fun naming => stays_callFrame closure arguments) entersFrame
      exact closed_of_scope supportsEntered (fun _ => And.right) rfl

/-- The run lemma: every activation of a closed activation's call tree is closed. -/
theorem Closed.of_within {root activation : Activation} (closed : root.Closed)
    (within : activation.Within library root) : activation.Closed := by
  induction within with
  | refl => exact closed
  | tail _ calls ih => exact ih.of_calls calls

end Activation

end Evaluate

/-! ## Sessions -/

namespace Session

/-- The stores of a session: those between programs, and those at the start and at the end of every
piece of work in the call tree of a program that is run in the session. -/
inductive Visits (library : Library) : Store → Prop
  | between {session} (reached : Reachable library session) : Visits library session.store
  | started {session tree depth activation} (reached : Reachable library session)
      (within : Evaluate.Activation.Within session.library activation
        ⟨.program session.root tree, depth, session.store⟩) :
      Visits library activation.store
  | left {session tree depth activation result after} (reached : Reachable library session)
      (within : Evaluate.Activation.Within session.library activation
        ⟨.program session.root tree, depth, session.store⟩)
      (ended : activation.run session.library = some (result, after)) :
      Visits library after

theorem supports_of_reachable {library : Library} {session : Session}
    (reached : session.Reachable library) :
    session.store.Supports fun naming => naming.frame session.root = session.root := by
  induction reached with
  | start =>
      intro naming fixes
      refine ⟨?_, fixes.frame 0 Nat.one_pos⟩
      intro index frame found
      obtain ⟨inBounds, rfl⟩ := Array.getElem?_eq_some_iff.1 found
      obtain rfl : index = 0 := Nat.lt_one_iff.1 inBounds
      exact ⟨rfl, fun _ => rfl⟩
  | @run session next depth source outcome _ ended ih =>
      rcases eq_or_runProgram_of_run ended with rfl | ⟨program, value, ran, _⟩
      · exact ih
      · have sameRoot : next.root = session.root := by
          obtain ⟨⟨result, store⟩, _, resultEq⟩ := Option.map_eq_some_iff.1 ran
          cases resultEq
          rfl
        have programEnded : Evaluate.Activation.run session.library
            ⟨.program session.root program, depth, session.store⟩ = some (value, next.store) :=
          run_of_runProgram ran
        rw [sameRoot]
        exact (Evaluate.Activation.supports_of_task ih (fun _ => id) rfl programEnded).mono
          fun _ => And.left

theorem closed_of_reachable {library : Library} {session : Session}
    (reached : session.Reachable library) (tree : Program) (depth : Nat) :
    Evaluate.Activation.Closed ⟨.program session.root tree, depth, session.store⟩ :=
  (supports_of_reachable reached).mono fun _ rootFixed =>
    congrArg (Evaluate.Task.program · tree) rootFixed

/-- The stores of a session refer only to what they have given out. -/
theorem supports_of_visits {library : Library} {store : Store} (visited : Visits library store) :
    store.Supports fun _ => True := by
  cases visited with
  | between reached => exact (supports_of_reachable reached).mono fun _ _ => True.intro
  | started reached within =>
      exact ((closed_of_reachable reached _ _).of_within within).mono fun _ _ => True.intro
  | left reached within ended =>
      have closed := (closed_of_reachable reached _ _).of_within within
      exact (closed.of_run ended).mono fun _ _ => True.intro

end Session

end Scriptlet
