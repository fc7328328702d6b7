import Mathlib.Algebra.Ring.Int.Defs
import Scriptlet.Proofs.Evaluate.Loop
import Scriptlet.Proofs.Session.Pieces
import Scriptlet.Tree.Equality

/-!
# Map and reduce

The functions `map` and `reduce` can be written in the language, as loops over an array.  Doubling
with the one and adding with the other are right for arrays of every length: both end, with the
doubled integers in order and with their sum, or with the error for the first element that is no
integer; and both leave the array as it is.
-/

namespace Scriptlet

/-! ## Integers in a list of values -/

/-- The integers of a list of values, or the type of the first value that is none. -/
def Value.integers : List Value → Except ValueType (List Int64)
  | [] => .ok []
  | .integer number :: rest => (integers rest).map (number :: ·)
  | other :: _ => .error other.type

namespace Value

theorem integers_of_ne {first : Value} (other : first.type ≠ .integer) (rest : List Value) :
    integers (first :: rest) = .error first.type := by
  cases first with
  | integer number => exact absurd rfl other
  | _ => rfl

theorem integers_map (numbers : List Int64) : integers (numbers.map integer) = .ok numbers := by
  induction numbers with
  | nil => rfl
  | cons number rest ih =>
      rw [List.map_cons, integers, ih]
      rfl

theorem integers_append_of_ne {front : List Value}
    (allIntegers : ∀ value ∈ front, value.type = .integer) {odd : Value}
    (other : odd.type ≠ .integer) (back : List Value) :
    integers (front ++ odd :: back) = .error odd.type := by
  induction front with
  | nil => exact integers_of_ne other back
  | cons first rest ih =>
      have found := ih fun value member => allIntegers value (.tail _ member)
      cases first with
      | integer number =>
          rw [List.cons_append, integers, found]
          rfl
      | _ => exact absurd (allIntegers _ (.head _)) nofun

end Value

/-- What an operation on two values of different types yields. -/
theorem BinaryOp.apply_of_type_ne (op : BinaryOp) {left right : Value}
    (different : left.type ≠ right.type) :
    op.apply left right = .error
      ("Type mismatch: " ++ left.type.name ++ " " ++ op.text ++ " " ++ right.type.name) := by
  unfold apply
  split
  · exact absurd rfl different
  · exact absurd rfl different
  · exact if_neg different

/-! ## Loops over integers -/

namespace Loop

/-- The value that a loop ends with when it stands for integers, or when there is another value. -/
def Yields (represents : List Int64 → Value → Prop) (refusal : ValueType → String) :
    Except ValueType (List Int64) → Value → Prop
  | .ok numbers, value => represents numbers value
  | .error type, value => value = .error (refusal type)

namespace Yields

variable {represents : List Int64 → Value → Prop} {refusal : ValueType → String} {value : Value}

theorem of_map {numbers : List Int64}
    (yields : Yields represents refusal (Value.integers (numbers.map .integer)) value) :
    represents numbers value := by
  rwa [Value.integers_map] at yields

theorem of_append {front back : List Value} {odd : Value}
    (yields : Yields represents refusal (Value.integers (front ++ odd :: back)) value)
    (allIntegers : ∀ element ∈ front, element.type = .integer) (other : odd.type ≠ .integer) :
    value = .error (refusal odd.type) := by
  rwa [Value.integers_append_of_ne allIntegers other] at yields

theorem settled_eq {read : Except ValueType (List Int64)}
    (passes : ∀ {numbers value}, represents numbers value → value.interrupts = false)
    (yields : Yields represents refusal read value) : value.settled = value := by
  cases read with
  | ok numbers =>
      have passes := passes yields
      cases value <;> first | rfl | cases passes
  | error type =>
      cases yields
      rfl

theorem settled {read : Except ValueType (List Int64)}
    (passes : ∀ {numbers value}, represents numbers value → value.interrupts = false)
    (yields : Yields represents refusal read value) :
    Yields represents refusal read value.settled := by
  rwa [yields.settled_eq passes]

end Yields

/-- The state of a loop stands for the integers gone through so far, and a value of another type is
refused. -/
structure Gathers (loop : Loop) (library : Library) (start : Store)
    (around : String → Option Value) (represents : List Int64 → Value → Prop)
    (refusal : ValueType → String) : Prop where
  passes : ∀ {numbers value}, represents numbers value → value.interrupts = false
  round : ∀ {done first rest state scope store} (depth : Nat) (identity : Identity),
    represents done state → first.interrupts = false → start.Extends store →
    store.Shows scope (loop.view around (.array identity (first :: rest)) state) →
      (Evaluate.expression library (Evaluate.applyWithin library (depth + 1)) scope
        loop.next).Reaches store
          (Yields represents refusal ((Value.integers [first]).map (done ++ ·)))

variable {loop : Loop} {library : Library} {start : Store} {around : String → Option Value}
variable {represents : List Int64 → Value → Prop} {refusal : ValueType → String}

theorem Gathers.invariant (gathers : loop.Gathers library start around represents refusal)
    (elements : List Value) :
    loop.Invariant library start around
      (fun rest state => ∃ done, represents done state ∧
        Value.integers elements = (Value.integers rest).map (done ++ ·) ∧
        ∀ element ∈ rest, element.interrupts = false)
      (Yields represents refusal (Value.integers elements)) where
  round := by
    rintro first rest state scope store depth identity ⟨done, stands, split, proper⟩ keeps shows
    refine (gathers.round depth identity stands (proper first (.head _)) keeps shows).mono ?_
    intro result yields
    by_cases isInteger : first.type = .integer
    · cases first with
      | integer number =>
          refine .inl ⟨gathers.passes yields, done ++ [number], yields, ?_, ?_⟩
          · rw [split, Value.integers]
            cases Value.integers rest with
            | ok numbers => exact congrArg Except.ok (List.append_assoc done [number] numbers).symm
            | error type => rfl
          · exact fun element member => proper element (.tail _ member)
      | _ => cases isInteger
    · rw [Value.integers_of_ne isInteger] at yields split
      rw [split]
      cases yields
      exact .inr ⟨rfl, rfl⟩
  finish := by
    rintro state ⟨done, stands, split, _⟩
    rw [split]
    change represents (done ++ []) state
    rwa [List.append_nil]
  settled := Yields.settled_eq gathers.passes

open Evaluate in
/-- A loop whose state stands for the integers gone through so far ends with a value for all of them,
or refuses the first value that is no integer. -/
theorem Gathers.reaches {home : FrameId} {elements : List Value} {initial : Value}
    (gathers : loop.Gathers library start around represents refusal)
    (starts : loop.Starts library start home around) (stands : represents [] initial)
    (proper : ∀ element ∈ elements, element.interrupts = false)
    (isWord : elements.length < 2 ^ 64) {depth : Nat} (enough : elements.length < depth)
    {store : Store} (keeps : start.Extends store) (identity arrayIdentity : Identity) :
    (applyWithin library depth (.function identity (loop.closure home))
      [.array arrayIdentity elements, initial]).Reaches store
        (Yields represents refusal (Value.integers elements)) := by
  have whole : Value.integers elements = (Value.integers elements).map ([] ++ ·) := by
    cases Value.integers elements <;> rfl
  exact (gathers.invariant elements).reaches starts isWord enough keeps identity arrayIdentity
    ⟨[], stands, whole, proper⟩

end Loop

/-! ## The functions -/

namespace Session

open Evaluate

/-- A source that is one expression, whose evaluation is known to end and to change no frame. -/
theorem run_of_reaches {session : Session} {depth : Nat} {source : String} {expr : Expr}
    {accepts : Value → Prop} (read : Program.ofSource source = .ok ⟨[.expression expr]⟩)
    (inStore : session.root < session.store.frames.size)
    (reaches : (expression session.library (applyWithin session.library depth) session.root
      expr).Reaches session.store fun value => accepts value.settled) :
    ∃ value next, session.run depth source = some (.ok value, next) ∧
      (∀ name, next.get? name = session.get? name) ∧ accepts value := by
  obtain ⟨result, after, ended, keeps, accepted⟩ := reaches_block_singleton reaches
  refine ⟨result.settled, { session with store := after }, ?_, keeps.lookup inStore, accepted⟩
  have ran : session.runProgram depth ⟨[.expression expr]⟩ =
      some (result.settled, { session with store := after }) := by
    rw [runProgram_eq, outcome, ended]
    rfl
  simp only [run, read, ran, Option.map_some]

end Session

namespace MapReduce

/-- Defines `map`. -/
def mapDefinition : String := "
        let map = fn(arr, f) \x7b
            let iter = fn(arr, acc) \x7b
                if (len(arr) == 0) \x7b acc \x7d else \x7b iter(tail(arr), push(acc, f(first(arr)))) \x7d
            \x7d;
            iter(arr, [])
        \x7d;
    "

/-- Defines `reduce`. -/
def reduceDefinition : String := "
        let reduce = fn(arr, initial, f) \x7b
            let iter = fn(arr, result) \x7b
                if (len(arr) == 0) \x7b result \x7d else \x7b iter(tail(arr), f(result, first(arr))) \x7d
            \x7d;
            iter(arr, initial)
        \x7d;
    "

/-- Doubles the elements of `xs`. -/
def doubling : String := "map(xs, fn(x) \x7b x * 2 \x7d)"

/-- Adds the elements of `xs` up. -/
def adding : String := "reduce(xs, 0, fn(acc, x) \x7b acc + x \x7d)"

/-- The loop of `map`: the state is the array of the results so far. -/
def mapLoop : Loop where
  state := "acc"
  next := .call (.identifier "push")
    [.identifier "acc", .call (.identifier "f") [.call (.identifier "first") [.identifier "arr"]]]

/-- The loop of `reduce`: the state is the result so far. -/
def reduceLoop : Loop where
  state := "result"
  next := .call (.identifier "f")
    [.identifier "result", .call (.identifier "first") [.identifier "arr"]]

/-- The body of a function that goes through its parameter `arr` with a loop. -/
def looping (loop : Loop) (initial : Expr) : Block :=
  [.bind "iter" (.function ["arr", loop.state] loop.body),
    .expression (.call (.identifier "iter") [.identifier "arr", initial])]

/-- The function `map` in the root scope. -/
def mapClosure : Closure := ⟨["arr", "f"], looping mapLoop (.array []), 0⟩

/-- The function `reduce` in the root scope. -/
def reduceClosure : Closure :=
  ⟨["arr", "initial", "f"], looping reduceLoop (.identifier "initial"), 0⟩

/-- The function that doubles an element. -/
def doubleClosure : Closure :=
  ⟨["x"], [.expression (.binary (.identifier "x") .multiply (.integer "2"))], 0⟩

/-- The function that adds an element to a sum. -/
def addClosure : Closure :=
  ⟨["acc", "x"], [.expression (.binary (.identifier "acc") .add (.identifier "x"))], 0⟩

theorem ofSource_of_characters {source : String} {characters : List Char} {tree : Program}
    (spelled : source = String.ofList characters) (visible : Text.allBlank characters = false)
    (noErrors : (parseTokens (Token.scan characters)).errors = [])
    (read : (parseTokens (Token.scan characters)).program = tree) :
    Program.ofSource source = .ok tree := by
  have scanned : Token.ofSource source = .ok (Token.scan characters) := by
    rw [Token.ofSource, spelled, String.toList_ofList, visible]
    rfl
  have parsed : parse source = .ok (parseTokens (Token.scan characters)) := by
    rw [parse, scanned]
    rfl
  rw [Program.ofSource, parsed, ← read]
  simp [ParseResult.isOk, noErrors]

set_option maxRecDepth 4096 in
theorem ofSource_mapDefinition : Program.ofSource mapDefinition =
    .ok ⟨[.bind "map" (.function mapClosure.parameters mapClosure.body)]⟩ :=
  ofSource_of_characters rfl (by decide +kernel) (by decide +kernel) (by decide +kernel)

set_option maxRecDepth 4096 in
theorem ofSource_reduceDefinition : Program.ofSource reduceDefinition =
    .ok ⟨[.bind "reduce" (.function reduceClosure.parameters reduceClosure.body)]⟩ :=
  ofSource_of_characters rfl (by decide +kernel) (by decide +kernel) (by decide +kernel)

theorem ofSource_doubling : Program.ofSource doubling =
    .ok ⟨[.expression (.call (.identifier "map") [.identifier "xs",
      .function doubleClosure.parameters doubleClosure.body])]⟩ :=
  ofSource_of_characters rfl (by decide +kernel) (by decide +kernel) (by decide +kernel)

theorem ofSource_adding : Program.ofSource adding =
    .ok ⟨[.expression (.call (.identifier "reduce") [.identifier "xs", .integer "0",
      .function addClosure.parameters addClosure.body])]⟩ :=
  ofSource_of_characters rfl (by decide +kernel) (by decide +kernel) (by decide +kernel)

/-! ### Loops in functions -/

open Evaluate

/-- What is seen where a loop is bound under the name `iter`. -/
def beside (loop : Loop) (identity : Identity) (home : FrameId) (inner : String → Option Value) :
    String → Option Value :=
  fun name => if name = "iter" then some (.function identity (loop.closure home)) else inner name

/-- An array that holds the doubles of some integers, as words. -/
def IsDoubled (numbers : List Int64) (value : Value) : Prop :=
  ∃ made, value = .array made (numbers.map fun number => .integer (number * 2))

/-- The sum of some integers, as a word. -/
def IsSum (numbers : List Int64) (value : Value) : Prop :=
  value = .integer (Int64.ofInt (numbers.map Int64.toInt).sum)

theorem IsDoubled.passes {numbers : List Int64} {value : Value} (doubled : IsDoubled numbers value) :
    value.interrupts = false := by
  obtain ⟨made, rfl⟩ := doubled
  rfl

theorem IsSum.passes {numbers : List Int64} {value : Value} (sum : IsSum numbers value) :
    value.interrupts = false := by
  cases sum
  rfl

/-- The message for an element that cannot be doubled. -/
def factorRefusal (type : ValueType) : String := "Type mismatch: " ++ type.name ++ " * INTEGER"

/-- The message for an element that cannot be added. -/
def summandRefusal (type : ValueType) : String := "Type mismatch: INTEGER + " ++ type.name

theorem standard_find? (builtin : Builtin) :
    Library.standard.find? builtin.name = some builtin := by
  cases builtin <;> rfl

section

variable {loop : Loop} {represents : List Int64 → Value → Prop} {refusal : ValueType → String}

/-- A function that goes through its parameter `arr` with a loop whose state stands for the integers
gone through so far. -/
theorem reaches_looping {closure : Closure} {initial : Expr} {arguments : List Value} {depth : Nat}
    {before : Store} {view inner : String → Option Value} {identity : Identity}
    {elements : List Value} (bodyEq : closure.body = looping loop initial)
    (shows : before.Shows closure.scope view)
    (innerEq : inner = fun name =>
      ((closure.parameters.zip arguments).reverse.lookup name).or (view name))
    (bound : inner "arr" = some (.array identity elements))
    (free : ∀ builtin : Builtin, inner builtin.name = none)
    (initially : ∀ scope store itself, store.Shows scope (beside loop itself scope inner) →
      (expression .standard (applyWithin .standard depth) scope initial).Reaches store
        (represents []))
    (gathers : ∀ scope store itself, before.Extends store →
      (∀ builtin : Builtin, beside loop itself scope inner builtin.name = none) →
      loop.Gathers .standard store (beside loop itself scope inner) represents refusal)
    (proper : ∀ element ∈ elements, element.interrupts = false)
    (isWord : elements.length < 2 ^ 64) (enough : elements.length < depth) :
    (invoke .standard (applyWithin .standard depth) closure arguments).Reaches before
      (Loop.Yields represents refusal (Value.integers elements)) := by
  refine reaches_invoke_of_binding bodyEq shows fun scope store itself keeps showsInner => ?_
  have showsInner : store.Shows scope (beside loop itself scope inner) := innerEq ▸ showsInner
  have freeBeside : ∀ builtin : Builtin, beside loop itself scope inner builtin.name = none := by
    intro builtin
    rw [beside, if_neg (by cases builtin <;> decide)]
    exact free builtin
  have gathers := gathers scope store itself keeps freeBeside
  have starts : loop.Starts .standard store scope (beside loop itself scope inner) :=
    ⟨showsInner, ⟨itself, rfl⟩, freeBeside, standard_find?⟩
  -- What the loop yields is not a pending return, so the call hands it on as it is.
  refine Run.Reaches.mono ?_ fun value yields => Loop.Yields.settled gathers.passes yields
  refine reaches_call rfl (reaches_name showsInner rfl rfl) fun first keepsFirst => ?_
  refine reaches_expressions_cons_of_eq rfl (reaches_name (showsInner.later keepsFirst) bound rfl) ?_
  intro second keepsSecond
  have showsSecond := showsInner.later (keepsFirst.trans keepsSecond)
  refine reaches_expressions_cons (initially scope second itself showsSecond) ?_ ?_
  · intro value stands interrupts
    rw [gathers.passes stands] at interrupts
    cases interrupts
  · intro value third _ stands _
    refine .pure fun later keepsLater => ?_
    exact gathers.reaches starts stands proper isWord enough keepsLater itself identity

end

/-! ### Doubling and adding -/

section

variable {depth : Nat} {store start : Store} {root around : String → Option Value}
variable {identity : Identity}

/-- A function whose body is one operation, on operands that the call can see. -/
theorem reaches_operation {closure : Closure} {arguments : List Value} {left right : Expr}
    {op : BinaryOp} {a b : Value} (rootShows : store.Shows closure.scope root)
    (fits : closure.parameters.length = arguments.length)
    (bodyEq : closure.body = [.expression (.binary left op right)])
    (leftPasses : a.interrupts = false) (rightPasses : b.interrupts = false)
    (operands : ∀ scope entered,
      (entered.Shows scope fun name =>
        ((closure.parameters.zip arguments).reverse.lookup name).or (root name)) →
      (expression .standard (applyWithin .standard depth) scope left).Reaches entered (· = a) ∧
      (expression .standard (applyWithin .standard depth) scope right).Reaches entered (· = b)) :
    (applyWithin .standard (depth + 1) (.function identity closure) arguments).Reaches store
      (· = op.apply a b) := by
  rw [applyWithin_function .standard depth identity fits]
  refine reaches_invoke rootShows fun scope entered _ shows => ?_
  have reaches := reaches_binary op leftPasses rightPasses (operands scope entered shows).1
    fun middle keeps => (operands scope middle (shows.later keeps)).2
  rw [bodyEq]
  refine (reaches_block_singleton reaches).mono ?_
  rintro _ rfl
  exact Value.settled_of_isSettled (op.isSettled_apply a b)

theorem reaches_double (rootShows : store.Shows 0 root) {element : Value}
    (proper : element.interrupts = false) :
    (applyWithin .standard (depth + 1) (.function identity doubleClosure) [element]).Reaches store
      (· = BinaryOp.multiply.apply element (.integer 2)) :=
  reaches_operation rootShows rfl rfl proper rfl fun _ _ shows =>
    ⟨reaches_name shows rfl rfl, .pure rfl⟩

theorem reaches_add (rootShows : store.Shows 0 root) {sum element : Value}
    (passes : sum.interrupts = false) (proper : element.interrupts = false) :
    (applyWithin .standard (depth + 1) (.function identity addClosure) [sum, element]).Reaches store
      (· = BinaryOp.add.apply sum element) :=
  reaches_operation rootShows rfl rfl passes proper fun _ _ shows =>
    ⟨reaches_name shows rfl rfl, reaches_name shows rfl rfl⟩

theorem reaches_first {loop : Loop} {scope : FrameId} {first state : Value} {rest : List Value}
    (free : ∀ builtin : Builtin, around builtin.name = none)
    (shows : store.Shows scope (loop.view around (.array identity (first :: rest)) state)) :
    (expression .standard (applyWithin .standard depth) scope
      (.call (.identifier "first") [.identifier "arr"])).Reaches store (· = first) :=
  reaches_builtin_call shows ((Loop.view_builtin .first).trans (free .first)) rfl Loop.view_array rfl
    fun _ _ => .pure rfl

theorem multiply_of_type_ne {element : Value} (other : element.type ≠ .integer) :
    BinaryOp.multiply.apply element (.integer 2) =
      .error (factorRefusal element.type) := by
  have joined (text : String) : text ++ " " ++ "*" ++ " " ++ "INTEGER" = text ++ " * INTEGER" := by
    rw [String.append_assoc, String.append_assoc, String.append_assoc]
    rfl
  rw [BinaryOp.apply_of_type_ne .multiply other]
  exact congrArg Value.error (joined ("Type mismatch: " ++ element.type.name))

theorem add_of_type_ne (sum : Int64) {element : Value} (other : element.type ≠ .integer) :
    BinaryOp.add.apply (.integer sum) element =
      .error (summandRefusal element.type) := by
  rw [BinaryOp.apply_of_type_ne .add (Ne.symm other)]
  rfl

/-- While `map` doubles, its state is the array of the doubled integers. -/
theorem gathers_map (rootShows : start.Shows 0 root)
    (bound : around "f" = some (.function identity doubleClosure))
    (free : ∀ builtin : Builtin, around builtin.name = none) :
    mapLoop.Gathers .standard start around IsDoubled factorRefusal where
  passes := IsDoubled.passes
  round := by
    rintro done first rest _ scope store depth arrayIdentity ⟨made, rfl⟩ proper keeps shows
    refine reaches_call rfl (reaches_builtin shows
      ((Loop.view_builtin .push).trans (free .push)) rfl rfl) fun second keepsSecond => ?_
    have showsSecond := shows.later keepsSecond
    refine reaches_expressions_cons_of_eq rfl (reaches_name showsSecond Loop.view_state rfl) ?_
    intro third keepsThird
    have showsThird := showsSecond.later keepsThird
    have keepsAll := (keeps.trans keepsSecond).trans keepsThird
    have doubled : (expression .standard (applyWithin .standard (depth + 1)) scope
        (.call (.identifier "f") [.call (.identifier "first") [.identifier "arr"]])).Reaches third
          (· = BinaryOp.multiply.apply first (.integer 2)) := by
      refine reaches_call rfl (reaches_name showsThird
        ((Loop.view_other (by decide) (by decide)).trans bound) rfl) fun fourth keepsFourth => ?_
      refine reaches_expressions_cons_of_eq proper
        (reaches_first free (showsThird.later keepsFourth)) fun _ _ => .pure ?_
      exact fun later keepsLater => reaches_double (rootShows.later (keepsAll.trans keepsLater)) proper
    -- An integer is doubled and pushed; for any other value the error is the result of the round.
    by_cases isInteger : first.type = .integer
    · cases first with
      | integer number =>
          refine reaches_expressions_cons_of_eq rfl doubled fun _ _ => .pure fun later _ => ?_
          rw [applyWithin_builtin]
          refine .newArray fun made => ⟨made, ?_⟩
          rw [List.map_append]
          rfl
      | _ => cases isInteger
    · rw [multiply_of_type_ne isInteger] at doubled
      rw [Value.integers_of_ne isInteger]
      refine reaches_expressions_cons doubled ?_ ?_
      · rintro _ rfl _
        rfl
      · rintro _ _ _ rfl ⟨⟩

/-- While `reduce` adds, its state is the sum of the integers, as a word. -/
theorem gathers_reduce (rootShows : start.Shows 0 root)
    (bound : around "f" = some (.function identity addClosure))
    (free : ∀ builtin : Builtin, around builtin.name = none) :
    reduceLoop.Gathers .standard start around IsSum summandRefusal where
  passes := IsSum.passes
  round := by
    rintro done first rest _ scope store depth arrayIdentity rfl proper keeps shows
    refine reaches_call rfl (reaches_name shows
      ((Loop.view_other (by decide) (by decide)).trans bound) rfl) fun second keepsSecond => ?_
    have showsSecond := shows.later keepsSecond
    refine reaches_expressions_cons_of_eq rfl (reaches_name showsSecond Loop.view_state rfl) ?_
    intro third keepsThird
    refine reaches_expressions_cons_of_eq proper
      (reaches_first free (showsSecond.later keepsThird)) fun _ _ => .pure ?_
    intro later keepsLater
    refine (reaches_add (rootShows.later (keeps.trans keepsLater)) rfl proper).mono ?_
    rintro _ rfl
    by_cases isInteger : first.type = .integer
    · cases first with
      | integer number =>
          change Value.integer (Int64.ofInt _ + number) = .integer (Int64.ofInt (List.sum _))
          rw [List.map_append, List.sum_append, Int64.ofInt_add, List.map_singleton,
            List.sum_singleton, Int64.ofInt_toInt]
      | _ => cases isInteger
    · rw [Value.integers_of_ne isInteger]
      exact add_of_type_ne _ isInteger

end

/-! ### Sessions -/

/-- The session in which both functions are defined. -/
def afterDefinitions : Session where
  store := ⟨#[⟨[("reduce", .function 1 reduceClosure), ("map", .function 0 mapClosure)], none⟩], 2⟩
  root := 0
  library := .standard

theorem run_definitions (depth : Nat) :
    ∃ first, (Session.start .standard).run depth mapDefinition = some (.ok .null, first) ∧
      first.run depth reduceDefinition = some (.ok .null, afterDefinitions) := by
  refine ⟨⟨⟨#[⟨[("map", .function 0 mapClosure)], none⟩], 1⟩, 0, .standard⟩, ?_, ?_⟩
  · rw [Session.run, ofSource_mapDefinition]
    rfl
  · rw [Session.run, ofSource_reduceDefinition]
    rfl

/-- What the root scope of the session shows after `xs` is bound. -/
def bound (xs : Value) : String → Option Value :=
  fun name => if name = "xs" then some xs else
    [("reduce", Value.function 1 reduceClosure), ("map", .function 0 mapClosure)].lookup name

theorem shows_bound (xs : Value) : (afterDefinitions.set "xs" xs).store.Shows 0 (bound xs) := by
  have shows : afterDefinitions.store.Shows 0 fun name =>
      [("reduce", Value.function 1 reduceClosure), ("map", .function 0 mapClosure)].lookup name :=
    { inStore := Nat.zero_lt_one
      lookup := fun name => (Store.lookup_eq rfl name).trans Option.or_none }
  exact shows.bind "xs" xs

variable {elements : List Value} {depth : Nat} (identity : Identity)

/-- The function `map`, called to double the elements of `xs`. -/
theorem reaches_doubling (proper : ∀ element ∈ elements, element.interrupts = false)
    (isWord : elements.length < 2 ^ 64) (enough : elements.length + 2 ≤ depth) :
    (expression .standard (applyWithin .standard depth) 0
      (.call (.identifier "map") [.identifier "xs",
        .function doubleClosure.parameters doubleClosure.body])).Reaches
      (afterDefinitions.set "xs" (.array identity elements)).store
      (Loop.Yields IsDoubled factorRefusal (Value.integers elements)) := by
  obtain ⟨depth, rfl⟩ := Nat.exists_eq_add_one.2 (Nat.zero_lt_of_lt enough)
  have shows := shows_bound (.array identity elements)
  refine reaches_call rfl (reaches_name shows rfl rfl) fun second keepsSecond => ?_
  have showsSecond := shows.later keepsSecond
  refine reaches_expressions_cons_of_eq rfl (reaches_name showsSecond rfl rfl) fun third _ => ?_
  refine reaches_expressions_cons (reaches_function _ _) (by rintro _ ⟨_, rfl⟩ ⟨⟩) ?_
  rintro _ _ _ ⟨made, rfl⟩ _
  refine .pure fun later keepsLater => ?_
  rw [applyWithin_function .standard depth 0 rfl]
  have showsLater := shows.later keepsLater
  refine reaches_looping rfl showsLater rfl rfl ?_ ?_ ?_ proper isWord
    (Nat.lt_of_succ_lt_succ enough)
  · intro builtin
    cases builtin <;> rfl
  · intro scope store itself _
    exact .newArray fun made => ⟨made, rfl⟩
  · intro scope store itself keeps free
    exact gathers_map (showsLater.later keeps) rfl free

/-- The function `reduce`, called to add the elements of `xs` up. -/
theorem reaches_adding (proper : ∀ element ∈ elements, element.interrupts = false)
    (isWord : elements.length < 2 ^ 64) (enough : elements.length + 2 ≤ depth) :
    (expression .standard (applyWithin .standard depth) 0
      (.call (.identifier "reduce") [.identifier "xs", .integer "0",
        .function addClosure.parameters addClosure.body])).Reaches
      (afterDefinitions.set "xs" (.array identity elements)).store
      (Loop.Yields IsSum summandRefusal (Value.integers elements)) := by
  obtain ⟨depth, rfl⟩ := Nat.exists_eq_add_one.2 (Nat.zero_lt_of_lt enough)
  have shows := shows_bound (.array identity elements)
  refine reaches_call rfl (reaches_name shows rfl rfl) fun second keepsSecond => ?_
  have showsSecond := shows.later keepsSecond
  refine reaches_expressions_cons_of_eq rfl (reaches_name showsSecond rfl rfl) fun third _ => ?_
  refine reaches_expressions_cons_of_eq rfl (.pure rfl) fun fourth _ => ?_
  refine reaches_expressions_cons (reaches_function _ _) (by rintro _ ⟨_, rfl⟩ ⟨⟩) ?_
  rintro _ _ _ ⟨made, rfl⟩ _
  refine .pure fun later keepsLater => ?_
  rw [applyWithin_function .standard depth 1 rfl]
  have showsLater := shows.later keepsLater
  refine reaches_looping rfl showsLater rfl rfl ?_ ?_ ?_ proper isWord
    (Nat.lt_of_succ_lt_succ enough)
  · intro builtin
    cases builtin <;> rfl
  · intro scope store itself showsInner
    exact reaches_name showsInner rfl rfl
  · intro scope store itself keeps free
    exact gathers_reduce (showsLater.later keeps) rfl free

/-- A source that is evaluated as a loop over the integers of `xs`. -/
theorem run_of_yields {represents : List Int64 → Value → Prop} {refusal : ValueType → String}
    {source : String} {expr : Expr} (read : Program.ofSource source = .ok ⟨[.expression expr]⟩)
    (passes : ∀ {numbers value}, represents numbers value → value.interrupts = false)
    (reaches : (expression .standard (applyWithin .standard depth) 0 expr).Reaches
      (afterDefinitions.set "xs" (.array identity elements)).store
      (Loop.Yields represents refusal (Value.integers elements))) :
    ∃ value next, (afterDefinitions.set "xs" (.array identity elements)).run depth source =
        some (.ok value, next) ∧
      next.get? "xs" = some (.array identity elements) ∧
      (∀ numbers : List Int64, elements = numbers.map .integer → represents numbers value) ∧
      ∀ front odd back, elements = front ++ odd :: back →
        (∀ element ∈ front, element.type = .integer) → odd.type ≠ .integer →
          value = .error (refusal odd.type) := by
  obtain ⟨value, next, ended, same, yields⟩ :=
    @Session.run_of_reaches (afterDefinitions.set "xs" (.array identity elements)) depth source expr
      (Loop.Yields represents refusal (Value.integers elements)) read Nat.zero_lt_one
      (reaches.mono fun value yields => Loop.Yields.settled passes yields)
  refine ⟨value, next, ended, (same "xs").trans ((shows_bound _).lookup "xs"), ?_, ?_⟩
  · rintro numbers rfl
    exact yields.of_map
  · rintro front odd back rfl allIntegers other
    exact yields.of_append allIntegers other

/-- Let `xs` be bound to an array none of whose elements interrupts, in a session where `map` and
`reduce` were defined.  Doubling with the one and adding with the other end, if calls may be nested
as deep as the array is long, and two more.  For integers the results are the array of the doubles, in
order, and the sum, all reduced to the signed 64-bit range; else they are the error for the first
element that is no integer.  In either case `xs` stays the same array.

Nothing is asked of the length of the array but that it is a machine word, as every length is; for a
longer list of values `len` would wrap. -/
theorem run_map_reduce {elements : List Value}
    (proper : ∀ element ∈ elements, element.interrupts = false)
    (isWord : elements.length < 2 ^ 64) (identity : Identity) {depth : Nat}
    (enough : elements.length + 2 ≤ depth) :
    ∃ first second,
      (Session.start .standard).run depth mapDefinition = some (.ok .null, first) ∧
      first.run depth reduceDefinition = some (.ok .null, second) ∧
      (∃ value next,
        (second.set "xs" (.array identity elements)).run depth doubling = some (.ok value, next) ∧
        next.get? "xs" = some (.array identity elements) ∧
        (∀ numbers : List Int64, elements = numbers.map .integer →
          ∃ made, ∃ doubled : List Int64, value = .array made (doubled.map .integer) ∧
            doubled.map Int64.toInt = numbers.map fun n => (n.toInt * 2).bmod (2 ^ 64)) ∧
        ∀ front odd back, elements = front ++ odd :: back →
          (∀ element ∈ front, element.type = .integer) → odd.type ≠ .integer →
            value = .error ("Type mismatch: " ++ odd.type.name ++ " * INTEGER")) ∧
      ∃ value next,
        (second.set "xs" (.array identity elements)).run depth adding = some (.ok value, next) ∧
        next.get? "xs" = some (.array identity elements) ∧
        (∀ numbers : List Int64, elements = numbers.map .integer →
          ∃ total, value = .integer total ∧
            total.toInt = (numbers.map Int64.toInt).sum.bmod (2 ^ 64)) ∧
        ∀ front odd back, elements = front ++ odd :: back →
          (∀ element ∈ front, element.type = .integer) → odd.type ≠ .integer →
            value = .error ("Type mismatch: INTEGER + " ++ odd.type.name) := by
  obtain ⟨first, mapDefined, reduceDefined⟩ := run_definitions depth
  refine ⟨first, afterDefinitions, mapDefined, reduceDefined, ?_, ?_⟩
  · obtain ⟨value, next, ended, same, doubles, refused⟩ := run_of_yields identity ofSource_doubling
      IsDoubled.passes (reaches_doubling identity proper isWord enough)
    refine ⟨value, next, ended, same, ?_, refused⟩
    intro numbers isMap
    obtain ⟨made, rfl⟩ := doubles numbers isMap
    refine ⟨made, numbers.map (· * 2), ?_, ?_⟩
    · rw [List.map_map]
      rfl
    · rw [List.map_map]
      exact List.map_congr_left fun number _ => Int64.toInt_mul number 2
  · obtain ⟨value, next, ended, same, adds, refused⟩ := run_of_yields identity ofSource_adding
      IsSum.passes (reaches_adding identity proper isWord enough)
    refine ⟨value, next, ended, same, ?_, refused⟩
    intro numbers isMap
    exact ⟨_, adds numbers isMap, Int64.toInt_ofInt⟩

/-- Two integers whose doubles and whose sum are out of range. -/
def largeSample : List Int64 := [9223372036854775807, 4611686018427387904]

/-- An array whose second element is no integer, and neither is the third. -/
def mixedSample : List Value := [.integer 5, .string "a", .null]

/-- Doubling and adding go out of range for one array and fail in the middle of the other. -/
theorem run_map_reduce_samples :
    (∃ first second,
      (Session.start .standard).run 4 mapDefinition = some (.ok .null, first) ∧
      first.run 4 reduceDefinition = some (.ok .null, second) ∧
      (∃ made next, ∃ doubled : List Int64,
        (second.set "xs" (.array 7 (largeSample.map .integer))).run 4 doubling =
          some (.ok (.array made (doubled.map .integer)), next) ∧
        next.get? "xs" = some (.array 7 (largeSample.map .integer)) ∧
        doubled.map Int64.toInt = [-2, -9223372036854775808]) ∧
      ∃ total next,
        (second.set "xs" (.array 7 (largeSample.map .integer))).run 4 adding =
          some (.ok (.integer total), next) ∧
        total.toInt = -4611686018427387905) ∧
    ∃ first second next,
      (Session.start .standard).run 5 mapDefinition = some (.ok .null, first) ∧
      first.run 5 reduceDefinition = some (.ok .null, second) ∧
      (second.set "xs" (.array 7 mixedSample)).run 5 doubling =
        some (.ok (.error "Type mismatch: STRING * INTEGER"), next) ∧
      next.get? "xs" = some (.array 7 mixedSample) := by
  have properLarge : ∀ element ∈ largeSample.map Value.integer, element.interrupts = false := by
    intro element member
    obtain ⟨number, _, rfl⟩ := List.mem_map.1 member
    rfl
  constructor
  · obtain ⟨first, second, mapDefined, reduceDefined, ⟨value, next, ended, same, doubles, _⟩,
      ⟨sum, last, added, _, adds, _⟩⟩ :=
        @run_map_reduce (largeSample.map .integer) properLarge (by decide) 7 4 (by decide)
    obtain ⟨made, doubled, rfl, numbers⟩ := doubles largeSample rfl
    obtain ⟨total, rfl, number⟩ := adds largeSample rfl
    exact ⟨first, second, mapDefined, reduceDefined,
      ⟨made, next, doubled, ended, same, numbers.trans (by decide)⟩,
      ⟨total, last, added, number.trans (by decide)⟩⟩
  · obtain ⟨first, second, mapDefined, reduceDefined, ⟨value, next, ended, same, _, refused⟩, _⟩ :=
      @run_map_reduce mixedSample (by decide) (by decide) 7 5 (by decide)
    cases refused [.integer 5] (.string "a") [.null] rfl (by decide) nofun
    exact ⟨first, second, next, mapDefined, reduceDefined, ended, same⟩

end MapReduce

end Scriptlet
