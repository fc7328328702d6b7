import Mathlib.Data.List.Basic
import Mathlib.Data.Option.Basic
import Mathlib.Order.Monotone.Basic
import Scriptlet.Proofs.Evaluate.CallTree
import Scriptlet.Value.Inspect

/-!
# Renamed identities and frames

Identities and frames have no meaning of their own: a program can tell two arrays apart, but not say
which is which.  So a one-to-one renaming of identities and of the places of frames commutes with
operators, indexing, builtins and the texts of values, and evaluation takes the same course on two
stores that correspond under a renaming, whatever that correspondence is, as long as looking up and
binding names and making frames and identities keep it.
-/

namespace Scriptlet

/-! ## Renamings -/

/-- A one-to-one change of identities and of the places of frames, under which a frame stays younger
than the frame around it. -/
structure Renaming where
  identity : Identity → Identity
  frame : FrameId → FrameId
  identity_injective : Function.Injective identity
  frame_strictMono : StrictMono frame

/-- The closure over the renamed scope. -/
def Closure.rename (naming : Renaming) (closure : Closure) : Closure :=
  { closure with scope := naming.frame closure.scope }

mutual

/-- The value with all identities and scopes in it renamed. -/
def Value.rename (naming : Renaming) : Value → Value
  | .array identity elements =>
      .array (naming.identity identity) (Value.renameAll naming elements)
  | .dictionary identity entries =>
      .dictionary (naming.identity identity) (Value.renameEntries naming entries)
  | .function identity closure =>
      .function (naming.identity identity) (closure.rename naming)
  | .returned value => .returned (value.rename naming)
  | value => value

/-- The values of a list, renamed. -/
def Value.renameAll (naming : Renaming) : List Value → List Value
  | [] => []
  | value :: rest => value.rename naming :: Value.renameAll naming rest

/-- The entries of a dictionary with their values renamed. -/
def Value.renameEntries (naming : Renaming) : List (Key × Value) → List (Key × Value)
  | [] => []
  | (key, value) :: rest => (key, value.rename naming) :: Value.renameEntries naming rest

end

namespace Value

variable {naming : Renaming}

theorem renameAll_eq_map (values : List Value) :
    renameAll naming values = values.map (rename naming) := by
  induction values with
  | nil => rfl
  | cons value rest ih => rw [renameAll, ih, List.map_cons]

theorem renameEntries_eq_map (entries : List (Key × Value)) :
    renameEntries naming entries = entries.map (Prod.map id (rename naming)) := by
  induction entries with
  | nil => rfl
  | cons entry rest ih =>
      obtain ⟨key, value⟩ := entry
      rw [renameEntries, ih, List.map_cons]
      rfl

@[simp] theorem rename_array (identity : Identity) (elements : List Value) :
    (array identity elements).rename naming =
      array (naming.identity identity) (elements.map (rename naming)) := by
  rw [rename, renameAll_eq_map]

@[simp] theorem rename_dictionary (identity : Identity) (entries : List (Key × Value)) :
    (dictionary identity entries).rename naming =
      dictionary (naming.identity identity) (entries.map (Prod.map id (rename naming))) := by
  rw [rename, renameEntries_eq_map]

@[simp] theorem rename_function (identity : Identity) (closure : Closure) :
    (function identity closure).rename naming =
      function (naming.identity identity) (closure.rename naming) := by
  rw [rename]

@[simp] theorem type_rename (value : Value) : (value.rename naming).type = value.type := by
  cases value <;> rfl

@[simp] theorem isTruthy_rename (value : Value) :
    (value.rename naming).isTruthy = value.isTruthy := by
  cases value <;> rfl

@[simp] theorem interrupts_rename (value : Value) :
    (value.rename naming).interrupts = value.interrupts := by
  cases value <;> rfl

@[simp] theorem key?_rename (value : Value) : (value.rename naming).key? = value.key? := by
  cases value <;> rfl

@[simp] theorem rename_toValue (cause : RuntimeError) :
    cause.toValue.rename naming = cause.toValue := rfl

theorem settled_rename (value : Value) :
    (value.rename naming).settled = value.settled.rename naming := by
  cases value <;> rfl

/-- Identity is observed only through equality, which a one-to-one renaming keeps. -/
theorem isIdentical_rename (left right : Value) :
    (left.rename naming).isIdentical (right.rename naming) = left.isIdentical right := by
  have equal (a b : Identity) : (naming.identity a == naming.identity b) = (a == b) := by
    rw [Bool.eq_iff_iff, beq_iff_eq, beq_iff_eq]
    exact naming.identity_injective.eq_iff
  cases left <;> cases right <;> first | rfl | simp only [rename, isIdentical, equal]

end Value

/-! ## Operators on renamed operands -/

section Operators

variable {naming : Renaming}

theorem UnaryOp.apply_rename (op : UnaryOp) (operand : Value) :
    op.apply (operand.rename naming) = (op.apply operand).rename naming := by
  cases op with
  | negate => cases operand <;> rfl
  | not =>
      cases operand with
      | boolean value => cases value <;> rfl
      | _ => rfl

theorem BinaryOp.rename_applyIntegers (op : BinaryOp) (a b : Int64) :
    (op.applyIntegers a b).rename naming = op.applyIntegers a b := by
  cases op with
  | divide =>
      simp only [applyIntegers]
      split <;> rfl
  | _ => rfl

theorem BinaryOp.rename_applyStrings (op : BinaryOp) (a b : String) :
    (op.applyStrings a b).rename naming = op.applyStrings a b := by
  cases op <;> rfl

theorem BinaryOp.applyOthers_rename (op : BinaryOp) (left right : Value) :
    op.applyOthers (left.rename naming) (right.rename naming) =
      (op.applyOthers left right).rename naming := by
  unfold applyOthers
  rw [Value.type_rename, Value.type_rename, Value.isIdentical_rename]
  split
  · cases op <;> rfl
  · rfl

theorem BinaryOp.apply_rename (op : BinaryOp) (left right : Value) :
    op.apply (left.rename naming) (right.rename naming) =
      (op.apply left right).rename naming := by
  cases left with
  | integer a =>
      obtain ⟨b, rfl⟩ | ⟨others, renamedOthers⟩ : (∃ b, right = .integer b) ∨
          op.apply (.integer a) right = op.applyOthers (.integer a) right ∧
            op.apply (.integer a) (right.rename naming) =
              op.applyOthers (.integer a) (right.rename naming) := by
        cases right with
        | integer b => exact .inl ⟨b, rfl⟩
        | _ => exact .inr ⟨rfl, rfl⟩
      · exact (op.rename_applyIntegers a b).symm
      · rw [others, ← op.applyOthers_rename]
        exact renamedOthers
  | string a =>
      obtain ⟨b, rfl⟩ | ⟨others, renamedOthers⟩ : (∃ b, right = .string b) ∨
          op.apply (.string a) right = op.applyOthers (.string a) right ∧
            op.apply (.string a) (right.rename naming) =
              op.applyOthers (.string a) (right.rename naming) := by
        cases right with
        | string b => exact .inl ⟨b, rfl⟩
        | _ => exact .inr ⟨rfl, rfl⟩
      · exact (op.rename_applyStrings a b).symm
      · rw [others, ← op.applyOthers_rename]
        exact renamedOthers
  | _ => exact op.applyOthers_rename _ _

theorem Value.getD_null_rename (found : Option Value) :
    (found.map (rename naming)).getD null = (found.getD null).rename naming := by
  cases found <;> rfl

theorem Value.elementAt_rename (elements : List Value) (position : Int64) :
    elementAt (elements.map (rename naming)) position =
      (elementAt elements position).rename naming := by
  unfold elementAt
  split
  · rfl
  · rw [List.getElem?_map, getD_null_rename]

theorem Entries.find?_map {α β : Type} (f : α → β) (entries : Entries α) (key : Key) :
    Entries.find? (entries.map (Prod.map id f)) key = (entries.find? key).map f := by
  induction entries with
  | nil => rfl
  | cons entry rest ih =>
      simp only [List.map_cons, Prod.map, id, Entries.find?]
      split
      · rfl
      · exact ih

theorem Entries.insert_map {α β : Type} (f : α → β) (entries : Entries α) (key : Key) (value : α) :
    Entries.insert (entries.map (Prod.map id f)) key (f value) =
      (entries.insert key value).map (Prod.map id f) := by
  induction entries with
  | nil => rfl
  | cons entry rest ih =>
      simp only [List.map_cons, Prod.map, id, Entries.insert]
      split
      · rfl
      · rw [List.map_cons, ← ih]
        rfl

theorem Value.atIndex_rename (collection index : Value) :
    (collection.rename naming).atIndex (index.rename naming) =
      (collection.atIndex index).rename naming := by
  cases collection with
  | array identity elements =>
      cases index with
      | integer position =>
          rw [rename_array]
          exact elementAt_rename elements position
      | _ => simp only [rename, atIndex, type, rename_toValue]
  | dictionary identity entries =>
      rw [rename_dictionary]
      simp only [atIndex, key?_rename]
      cases index.key? with
      | none => rfl
      | some key => simp only [Entries.find?_map, getD_null_rename]
  | _ => rfl

end Operators

/-! ## The text of renamed values -/

mutual

theorem Value.inspect_rename (naming : Renaming) :
    ∀ value : Value, (value.rename naming).inspect = value.inspect
  | .array identity elements => by
      rw [rename, inspect, inspect, Value.inspectAll_rename naming elements]
  | .dictionary identity entries => by
      rw [rename, inspect, inspect, Value.inspectEntries_rename naming entries]
  | .returned value => by rw [rename, inspect, inspect, value.inspect_rename naming]
  | .function .. | .integer _ | .boolean _ | .string _ | .null | .builtin .. | .error _ => rfl

theorem Value.inspectAll_rename (naming : Renaming) :
    ∀ values : List Value, inspectAll (renameAll naming values) = inspectAll values
  | [] => rfl
  | value :: rest => by
      rw [renameAll, inspectAll, inspectAll, value.inspect_rename naming,
        Value.inspectAll_rename naming rest]

theorem Value.inspectEntries_rename (naming : Renaming) :
    ∀ entries : List (Key × Value), inspectEntries (renameEntries naming entries) =
      inspectEntries entries
  | [] => rfl
  | (key, value) :: rest => by
      rw [renameEntries, inspectEntries, inspectEntries, value.inspect_rename naming,
        Value.inspectEntries_rename naming rest]

end

/-! ## Computations on renamed stores -/

/-- The number of arguments that a builtin takes. -/
def Builtin.arity : Builtin → Nat
  | push => 2
  | _ => 1

theorem Builtin.call_of_length_ne {builtin : Builtin} {arguments : List Value}
    (wrong : arguments.length ≠ builtin.arity) :
    builtin.call arguments = wrongCount builtin.arity arguments := by
  cases builtin with
  | len =>
      change callLen arguments = wrongCount 1 arguments
      unfold callLen
      split
      · exact absurd rfl wrong
      · exact absurd rfl wrong
      · exact absurd rfl wrong
      · rfl
  | first =>
      change callFirst arguments = wrongCount 1 arguments
      unfold callFirst
      split
      · exact absurd rfl wrong
      · exact absurd rfl wrong
      · rfl
  | last =>
      change callLast arguments = wrongCount 1 arguments
      unfold callLast
      split
      · exact absurd rfl wrong
      · exact absurd rfl wrong
      · rfl
  | tail =>
      change callTail arguments = wrongCount 1 arguments
      unfold callTail
      split
      · exact absurd rfl wrong
      · exact absurd rfl wrong
      · rfl
  | push =>
      change callPush arguments = wrongCount 2 arguments
      unfold callPush
      split
      · exact absurd rfl wrong
      · exact absurd rfl wrong
      · rfl

/-- A relation between stores that everything evaluation does to them keeps: a name that is looked up
has the renamed value, and what is made new has the renamed identity or place. -/
structure Renaming.Simulates (naming : Renaming) (related : Store → Store → Prop) : Prop where
  lookup {store other : Store} : related store other → ∀ scope name,
    other.lookup (naming.frame scope) name = (store.lookup scope name).map (Value.rename naming)
  nextIdentity {store other : Store} : related store other →
    other.nextIdentity = naming.identity store.nextIdentity ∧
      related { store with nextIdentity := store.nextIdentity + 1 }
        { other with nextIdentity := other.nextIdentity + 1 }
  addFrame {store other : Store} : related store other → ∀ bindings parent,
    other.frames.size = naming.frame store.frames.size ∧
      related (store.addFrame bindings (some parent)).2
        (other.addFrame (bindings.map (Prod.map id (Value.rename naming)))
          (some (naming.frame parent))).2
  bind {store other : Store} : related store other → ∀ scope name value,
    related (store.bind scope name value)
      (other.bind (naming.frame scope) name (value.rename naming))

/-- Two computations that take the same course on related stores: they end on the same conditions,
the second one with the renamed result. -/
def Run.Mirrors {α β : Type} (related : Store → Store → Prop) (rename : α → β) (first : Run α)
    (second : Run β) : Prop :=
  ∀ store other, related store other →
    Option.Rel (fun step image => image.1 = rename step.1 ∧ related step.2 image.2)
      (first store) (second other)

namespace Run.Mirrors

variable {α β γ δ : Type} {related : Store → Store → Prop}

theorem pure {rename : α → β} {value : α} {image : β} (renamed : image = rename value) :
    Mirrors related rename (Pure.pure value) (Pure.pure image) := by
  intro store other kept
  exact .some ⟨renamed, kept⟩

theorem bind {rename : α → β} {renameNext : γ → δ} {first : Run α} {second : Run β}
    {next : α → Run γ} {image : β → Run δ} (mirrors : Mirrors related rename first second)
    (nextMirrors : ∀ value, Mirrors related renameNext (next value) (image (rename value))) :
    Mirrors related renameNext (first >>= next) (second >>= image) := by
  intro store other kept
  change Option.Rel _ ((first store).bind fun step => next step.1 step.2)
    ((second other).bind fun step => image step.1 step.2)
  have together := mirrors store other kept
  generalize first store = ended at together ⊢
  generalize second other = imageEnded at together ⊢
  cases together with
  | none => exact .none
  | @some step imageStep both =>
      obtain ⟨value, middle⟩ := step
      obtain ⟨_, otherMiddle⟩ := imageStep
      obtain ⟨rfl, keptMiddle⟩ := both
      exact nextMirrors value middle otherMiddle keptMiddle

theorem andThen {naming : Renaming} {first second : Run Value} {next image : Value → Run Value}
    (mirrors : Mirrors related (Value.rename naming) first second)
    (nextMirrors : ∀ value,
      Mirrors related (Value.rename naming) (next value) (image (value.rename naming))) :
    Mirrors related (Value.rename naming) (first.andThen next) (second.andThen image) := by
  apply mirrors.bind
  intro value
  rw [Value.interrupts_rename]
  split
  · exact pure rfl
  · exact nextMirrors value

theorem unfinished {rename : α → β} : Mirrors related rename unfinished unfinished := by
  intro store other kept
  exact .none

end Run.Mirrors

namespace Renaming.Simulates

variable {naming : Renaming} {related : Store → Store → Prop}

theorem newIdentity (simulates : naming.Simulates related) :
    Run.newIdentity.Mirrors related naming.identity Run.newIdentity := by
  intro store other kept
  exact .some (simulates.nextIdentity kept)

theorem newArray (simulates : naming.Simulates related) (elements : List Value) :
    (Run.newArray elements).Mirrors related (Value.rename naming)
      (Run.newArray (elements.map (Value.rename naming))) := by
  apply simulates.newIdentity.bind
  intro identity
  exact .pure (Value.rename_array identity elements).symm

theorem newDictionary (simulates : naming.Simulates related) (entries : Entries Value) :
    (Run.newDictionary entries).Mirrors related (Value.rename naming)
      (Run.newDictionary (entries.map (Prod.map id (Value.rename naming)))) := by
  apply simulates.newIdentity.bind
  intro identity
  exact .pure (Value.rename_dictionary identity entries).symm

theorem newFunction (simulates : naming.Simulates related) (closure : Closure) :
    (Run.newFunction closure).Mirrors related (Value.rename naming)
      (Run.newFunction (closure.rename naming)) := by
  apply simulates.newIdentity.bind
  intro identity
  exact .pure (Value.rename_function identity closure).symm

theorem newFrame (simulates : naming.Simulates related) (bindings : List (String × Value))
    (parent : FrameId) :
    (Run.newFrame bindings (some parent)).Mirrors related naming.frame
      (Run.newFrame (bindings.map (Prod.map id (Value.rename naming)))
        (some (naming.frame parent))) := by
  intro store other kept
  exact .some (simulates.addFrame kept bindings parent)

theorem bindName (simulates : naming.Simulates related) (scope : FrameId) (name : String)
    (value : Value) :
    (Run.bindName scope name value).Mirrors related id
      (Run.bindName (naming.frame scope) name (value.rename naming)) := by
  intro store other kept
  exact .some ⟨rfl, simulates.bind kept scope name value⟩

/-- A builtin sees of its arguments only what renaming leaves as it is. -/
theorem call (simulates : naming.Simulates related) (builtin : Builtin) (arguments : List Value) :
    (builtin.call arguments).Mirrors related (Value.rename naming)
      (builtin.call (arguments.map (Value.rename naming))) := by
  by_cases count : arguments.length = builtin.arity
  · cases builtin with
    | len =>
        obtain ⟨value, rfl⟩ := List.length_eq_one_iff.1 count
        cases value with
        | array identity elements =>
            rw [List.map_singleton, Value.rename_array]
            exact .pure (by rw [List.length_map]; rfl)
        | _ => exact .pure rfl
    | first =>
        obtain ⟨value, rfl⟩ := List.length_eq_one_iff.1 count
        cases value with
        | array identity elements =>
            rw [List.map_singleton, Value.rename_array]
            exact .pure (by rw [List.head?_map, Value.getD_null_rename])
        | _ => exact .pure rfl
    | last =>
        obtain ⟨value, rfl⟩ := List.length_eq_one_iff.1 count
        cases value with
        | array identity elements =>
            rw [List.map_singleton, Value.rename_array]
            exact .pure (by rw [List.getLast?_map, Value.getD_null_rename])
        | _ => exact .pure rfl
    | tail =>
        obtain ⟨value, rfl⟩ := List.length_eq_one_iff.1 count
        cases value with
        | array identity elements =>
            have made := simulates.newArray elements.tail
            rw [List.map_tail] at made
            rw [List.map_singleton, Value.rename_array]
            exact made
        | _ => exact .pure rfl
    | push =>
        obtain ⟨value, added, rfl⟩ := List.length_eq_two.1 count
        cases value with
        | array identity elements =>
            have made := simulates.newArray (elements ++ [added])
            rw [List.map_append, List.map_singleton] at made
            rw [List.map_cons, Value.rename_array]
            exact made
        | _ => exact .pure rfl
  · have imageCount : (arguments.map (Value.rename naming)).length ≠ builtin.arity := by
      rwa [List.length_map]
    rw [Builtin.call_of_length_ne count, Builtin.call_of_length_ne imageCount]
    unfold Builtin.wrongCount
    rw [List.length_map]
    exact .pure rfl

end Renaming.Simulates

/-! ## Evaluation on renamed stores -/

/-- The result of evaluating several parts, renamed: the interruption, or what they yield. -/
def Renaming.outcome {α : Type} (naming : Renaming) (rename : α → α) :
    Except Value α → Except Value α
  | .error interruption => .error (interruption.rename naming)
  | .ok values => .ok (rename values)

namespace Evaluate

variable {naming : Renaming} {related : Store → Store → Prop}
variable {library : Library} {apply : Applier} {scope : FrameId}

/-- An applier that takes the same course for renamed callees and arguments. -/
def Uniform (naming : Renaming) (related : Store → Store → Prop) (apply : Applier) : Prop :=
  ∀ callee arguments, (apply callee arguments).Mirrors related (Value.rename naming)
    (apply (callee.rename naming) (arguments.map (Value.rename naming)))

theorem resolve_rename (simulates : naming.Simulates related) {store other : Store}
    (kept : related store other) (name : String) :
    resolve library other (naming.frame scope) name =
      (resolve library store scope name).rename naming := by
  unfold resolve
  rw [simulates.lookup kept]
  cases store.lookup scope name with
  | some value => rfl
  | none => cases library.find? name <;> rfl

theorem mirrors_identifier (simulates : naming.Simulates related) (name : String) :
    (identifier library scope name).Mirrors related (Value.rename naming)
      (identifier library (naming.frame scope) name) := by
  intro store other kept
  rw [identifier_eq, identifier_eq, resolve_rename simulates kept]
  exact .some ⟨rfl, kept⟩

mutual

theorem mirrors_expression (simulates : naming.Simulates related)
    (uniform : Uniform naming related apply) :
    ∀ expr : Expr, (expression library apply scope expr).Mirrors related (Value.rename naming)
      (expression library apply (naming.frame scope) expr)
  | .identifier name => mirrors_identifier simulates name
  | .integer _ => .pure rfl
  | .boolean _ => .pure rfl
  | .string _ => .pure rfl
  | .array elements => by
      apply (mirrors_expressions simulates uniform elements).bind
      rintro (interruption | values)
      · exact .pure rfl
      · exact simulates.newArray values
  | .dictionary pairs => by
      apply (mirrors_entries simulates uniform pairs []).bind
      rintro (interruption | found)
      · exact .pure rfl
      · exact simulates.newDictionary found
  | .unary op operand => by
      apply (mirrors_expression simulates uniform operand).andThen
      intro value
      exact .pure (op.apply_rename value)
  | .binary left op right => by
      apply (mirrors_expression simulates uniform left).andThen
      intro a
      apply (mirrors_expression simulates uniform right).andThen
      intro b
      exact .pure (op.apply_rename a b)
  | .conditional condition consequence none => by
      apply (mirrors_expression simulates uniform condition).andThen
      intro value
      rw [Value.isTruthy_rename]
      split
      · exact mirrors_block simulates uniform .null consequence
      · exact .pure rfl
  | .conditional condition consequence (some alternative) => by
      apply (mirrors_expression simulates uniform condition).andThen
      intro value
      rw [Value.isTruthy_rename]
      split
      · exact mirrors_block simulates uniform .null consequence
      · exact mirrors_block simulates uniform .null alternative
  | .function parameters body => simulates.newFunction ⟨parameters, body, scope⟩
  | .call callee arguments => by
      apply (mirrors_expression simulates uniform callee).andThen
      intro function
      apply (mirrors_expressions simulates uniform arguments).bind
      rintro (interruption | values)
      · exact .pure rfl
      · exact uniform function values
  | .index collection position => by
      apply (mirrors_expression simulates uniform collection).andThen
      intro value
      apply (mirrors_expression simulates uniform position).andThen
      intro index
      exact .pure (value.atIndex_rename index)

theorem mirrors_expressions (simulates : naming.Simulates related)
    (uniform : Uniform naming related apply) :
    ∀ exprs : List Expr, (expressions library apply scope exprs).Mirrors related
      (naming.outcome (List.map (Value.rename naming)))
      (expressions library apply (naming.frame scope) exprs)
  | [] => .pure rfl
  | expr :: rest => by
      apply (mirrors_expression simulates uniform expr).bind
      intro value
      rw [Value.interrupts_rename]
      split
      · exact .pure rfl
      · apply (mirrors_expressions simulates uniform rest).bind
        rintro (interruption | values) <;> exact .pure rfl

theorem mirrors_entries (simulates : naming.Simulates related)
    (uniform : Uniform naming related apply) :
    ∀ (pairs : List (Expr × Expr)) (found : Entries Value),
      (entries library apply scope pairs found).Mirrors related
        (naming.outcome (List.map (Prod.map id (Value.rename naming))))
        (entries library apply (naming.frame scope) pairs
          (found.map (Prod.map id (Value.rename naming))))
  | [], found => .pure rfl
  | (keyExpr, valueExpr) :: rest, found => by
      apply (mirrors_expression simulates uniform keyExpr).bind
      intro index
      rw [Value.interrupts_rename]
      split
      · exact .pure rfl
      · apply (mirrors_expression simulates uniform valueExpr).bind
        intro value
        rw [Value.interrupts_rename]
        split
        · exact .pure rfl
        · rw [Value.key?_rename, Value.type_rename]
          split
          · exact .pure rfl
          · rw [Entries.insert_map]
            exact mirrors_entries simulates uniform rest _

theorem mirrors_statement (simulates : naming.Simulates related)
    (uniform : Uniform naming related apply) :
    ∀ stmt : Stmt, (statement library apply scope stmt).Mirrors related (Value.rename naming)
      (statement library apply (naming.frame scope) stmt)
  | .bind name value => by
      apply (mirrors_expression simulates uniform value).andThen
      intro bound
      apply (simulates.bindName scope name bound).bind
      intro _
      exact .pure rfl
  | .returns value => by
      apply (mirrors_expression simulates uniform value).andThen
      intro result
      exact .pure rfl
  | .expression value => mirrors_expression simulates uniform value

theorem mirrors_block (simulates : naming.Simulates related)
    (uniform : Uniform naming related apply) :
    ∀ (start : Value) (stmts : List Stmt),
      (block library apply scope start stmts).Mirrors related (Value.rename naming)
        (block library apply (naming.frame scope) (start.rename naming) stmts)
  | start, [] => .pure rfl
  | start, stmt :: rest => by
      apply (mirrors_statement simulates uniform stmt).andThen
      intro value
      exact mirrors_block simulates uniform value rest

end

theorem mirrors_invoke (simulates : naming.Simulates related)
    (uniform : Uniform naming related apply) (closure : Closure) (arguments : List Value) :
    (invoke library apply closure arguments).Mirrors related (Value.rename naming)
      (invoke library apply (closure.rename naming) (arguments.map (Value.rename naming))) := by
  have bindings : ((closure.rename naming).parameters.zip
      (arguments.map (Value.rename naming))).reverse =
        (closure.parameters.zip arguments).reverse.map (Prod.map id (Value.rename naming)) := by
    rw [List.map_reverse, ← List.zip_map_right]
    rfl
  unfold invoke
  rw [bindings]
  apply (simulates.newFrame _ closure.scope).bind
  intro scope
  apply (mirrors_block simulates uniform .null closure.body).bind
  intro result
  exact .pure result.settled_rename

theorem uniform_applyWith (simulates : naming.Simulates related)
    {run : Closure → List Value → Run Value}
    (mirrors : ∀ closure arguments, (run closure arguments).Mirrors related (Value.rename naming)
      (run (closure.rename naming) (arguments.map (Value.rename naming)))) :
    Uniform naming related (applyWith run) := by
  intro callee arguments
  cases callee with
  | function identity closure =>
      rw [Value.rename_function]
      change (if closure.parameters.length = arguments.length then run closure arguments
        else pure _ : Run Value).Mirrors related (Value.rename naming)
          (if closure.parameters.length = (arguments.map (Value.rename naming)).length then
            run (closure.rename naming) (arguments.map (Value.rename naming)) else pure _)
      rw [List.length_map]
      split
      · exact mirrors closure arguments
      · exact .pure rfl
  | builtin name operation => exact simulates.call operation arguments
  | _ => exact .pure rfl

theorem uniform_applyWithin (simulates : naming.Simulates related) (library : Library)
    (depth : Nat) : Uniform naming related (applyWithin library depth) := by
  induction depth with
  | zero =>
      apply uniform_applyWith simulates
      intro closure arguments
      exact .unfinished
  | succ depth ih => exact uniform_applyWith simulates (mirrors_invoke simulates ih)

/-- The task with its scope, or its callee and arguments, renamed. -/
def Task.rename (naming : Renaming) : Task → Task
  | expression scope expr => expression (naming.frame scope) expr
  | statement scope stmt => statement (naming.frame scope) stmt
  | block scope stmts => block (naming.frame scope) stmts
  | application callee arguments =>
      application (callee.rename naming) (arguments.map (Value.rename naming))
  | program scope tree => program (naming.frame scope) tree

/-- Whatever is evaluated, on related stores the renamed task takes the same course. -/
theorem mirrors_run (simulates : naming.Simulates related) (library : Library) (depth : Nat)
    (task : Task) :
    (task.run library depth).Mirrors related (Value.rename naming)
      ((task.rename naming).run library depth) := by
  have uniform := uniform_applyWithin simulates library depth
  cases task with
  | expression scope expr => exact mirrors_expression simulates uniform expr
  | statement scope stmt => exact mirrors_statement simulates uniform stmt
  | block scope stmts => exact mirrors_block simulates uniform .null stmts
  | application callee arguments => exact uniform callee arguments
  | program scope tree =>
      apply (mirrors_block simulates uniform .null tree.statements).bind
      intro result
      exact .pure result.settled_rename

end Evaluate

end Scriptlet
