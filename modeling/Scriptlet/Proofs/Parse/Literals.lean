import Scriptlet.Proofs.Parse.CanonicalText
import Scriptlet.Value.Inspect

/-!
# Literals of data

The text of a value that is made of integers, booleans, arrays and dictionaries is a literal of the
language.  This module follows it from characters to tokens and from tokens to an expression.  The
lowest integer is the one exception: its digits are too large for a literal, so every place where it
stands is noted and left empty.
-/

namespace Scriptlet

open Token Spelling

/-! ## Data -/

/-- The digits of an integer without its sign. -/
def Text.magnitude (value : Int64) : String := toString value.toInt.natAbs

namespace Key

/-- Whether the text of a key is a literal: that of a string is not. -/
def isData : Key → Bool
  | string _ => false
  | _ => true

/-- How often the lowest integer occurs in a key. -/
def lowestCount : Key → Nat
  | integer value => if value = Int64.minValue then 1 else 0
  | _ => 0

/-- The tokens of a key. -/
def tokens : Key → List Token
  | integer value =>
      if value < 0 then [.symbol .minus, .integer (Text.magnitude value)]
      else [.integer (Text.magnitude value)]
  | boolean true => [.keyword .trueWord]
  | boolean false => [.keyword .falseWord]
  | string text => [.string text]

/-- The expression that the tokens of a key stand for, if they stand for one. -/
def literal? : Key → Option Expr
  | integer value =>
      if value = Int64.minValue then none
      else if value < 0 then some (.unary .negate (.integer (Text.magnitude value)))
      else some (.integer (Text.magnitude value))
  | boolean value => some (.boolean value)
  | string text => some (.string text)

end Key

mutual

/-- Whether a value is made of integers, booleans, arrays and dictionaries, with keys that are
integers or booleans. -/
def Value.isData : Value → Bool
  | .integer _ => true
  | .boolean _ => true
  | .array _ elements => Value.allData elements
  | .dictionary _ entries => Value.entriesData entries
  | _ => false
  termination_by structural value => value

/-- Whether all values of a list are data. -/
def Value.allData : List Value → Bool
  | [] => true
  | value :: rest => value.isData && Value.allData rest
  termination_by structural values => values

/-- Whether all keys and values of some entries are data. -/
def Value.entriesData : List (Key × Value) → Bool
  | [] => true
  | (key, value) :: rest => key.isData && value.isData && Value.entriesData rest
  termination_by structural entries => entries

end

mutual

/-- How often the lowest integer occurs in a value, as an element, a value or a key. -/
def Value.lowestCount : Value → Nat
  | .integer value => (Key.integer value).lowestCount
  | .array _ elements => Value.lowestCountAll elements
  | .dictionary _ entries => Value.lowestCountEntries entries
  | _ => 0
  termination_by structural value => value

/-- How often the lowest integer occurs in the values of a list. -/
def Value.lowestCountAll : List Value → Nat
  | [] => 0
  | value :: rest => value.lowestCount + Value.lowestCountAll rest
  termination_by structural values => values

/-- How often the lowest integer occurs in some entries. -/
def Value.lowestCountEntries : List (Key × Value) → Nat
  | [] => 0
  | (key, value) :: rest =>
      key.lowestCount + value.lowestCount + Value.lowestCountEntries rest
  termination_by structural entries => entries

end

/-! ## Tokens and expressions of data -/

/-- The comma in front of the entries that follow another one. -/
def Value.commaBefore : List (Key × Value) → List Token
  | [] => []
  | _ :: _ => [.symbol .comma]

mutual

/-- The tokens of a value. -/
def Value.tokens : Value → List Token
  | .integer value => (Key.integer value).tokens
  | .boolean value => (Key.boolean value).tokens
  | .array _ [] => [.symbol .leftBracket, .symbol .rightBracket]
  | .array _ (value :: rest) =>
      .symbol .leftBracket :: (value.tokens ++ Value.tokensAfter rest)
  | .dictionary _ entries => .symbol .leftBrace :: Value.entryTokens entries
  | _ => []
  termination_by structural value => value

/-- The tokens of the elements of an array after the first one, and of its end. -/
def Value.tokensAfter : List Value → List Token
  | [] => [.symbol .rightBracket]
  | value :: rest => .symbol .comma :: (value.tokens ++ Value.tokensAfter rest)
  termination_by structural values => values

/-- The tokens of the entries of a dictionary, and of its end. -/
def Value.entryTokens : List (Key × Value) → List Token
  | [] => [.symbol .rightBrace]
  | (key, value) :: rest =>
      key.tokens ++ .symbol .colon :: (value.tokens ++
        (Value.commaBefore rest ++ Value.entryTokens rest))
  termination_by structural entries => entries

end

/-- The tokens of the elements of an array, and of its end. -/
def Value.elementTokens : List Value → List Token
  | [] => [.symbol .rightBracket]
  | value :: rest => value.tokens ++ Value.tokensAfter rest

theorem Value.tokens_array (identity : Identity) (elements : List Value) :
    (Value.array identity elements).tokens =
      .symbol .leftBracket :: Value.elementTokens elements := by
  cases elements <;> rfl

/-- A pair in front of others, if neither its key nor its value is missing. -/
def Expr.consPair : Option Expr → Option Expr → List (Expr × Expr) → List (Expr × Expr)
  | some key, some value, others => (key, value) :: others
  | _, _, others => others

mutual

/-- The expression that the tokens of a value stand for, if they stand for one. -/
def Value.literal? : Value → Option Expr
  | .integer value => (Key.integer value).literal?
  | .boolean value => (Key.boolean value).literal?
  | .array _ elements => some (.array (Value.literals elements))
  | .dictionary _ entries => some (.dictionary (Value.literalPairs entries))
  | _ => none
  termination_by structural value => value

/-- The expressions of several values, less those that stand for none. -/
def Value.literals : List Value → List Expr
  | [] => []
  | value :: rest => value.literal?.toList ++ Value.literals rest
  termination_by structural values => values

/-- The pairs of expressions of some entries, less those that miss their key or their value. -/
def Value.literalPairs : List (Key × Value) → List (Expr × Expr)
  | [] => []
  | (key, value) :: rest => Expr.consPair key.literal? value.literal? (Value.literalPairs rest)
  termination_by structural entries => entries

end

/-! ## From text to tokens -/

theorem Text.numeralValue_magnitude (value : Int64) :
    Text.numeralValue (Text.magnitude value) = value.toInt.natAbs := by
  have digits : (Text.magnitude value).toList = Nat.toDigits 10 value.toInt.natAbs :=
    Nat.toList_repr
  rw [Text.numeralValue, digits]
  exact Nat.ofDigitChars_toDigits (by decide) (by decide)

/-- Every integer but the lowest one is a literal or the negation of one. -/
theorem Text.magnitude_lt_iff (value : Int64) :
    Text.numeralValue (Text.magnitude value) < Text.literalBound ↔ value ≠ Int64.minValue := by
  have low := value.le_toInt
  have high := value.toInt_lt
  rw [Text.numeralValue_magnitude, ne_eq, ← Int64.toInt_inj, Int64.toInt_minValue]
  change value.toInt.natAbs < 2 ^ 63 ↔ _
  omega

theorem Token.isNumeral_magnitude (value : Int64) :
    Token.isNumeral (Text.magnitude value) = true := by
  have digits : (Text.magnitude value).toList = Nat.toDigits 10 value.toInt.natAbs :=
    Nat.toList_repr
  rw [Token.isNumeral, digits, Bool.and_eq_true, List.all_eq_true]
  refine ⟨?_, fun c member => Nat.isDigit_of_mem_toDigits (by decide) (by decide) member⟩
  simp [Nat.toDigits_ne_nil]

theorem Key.inspect_integer (value : Int64) :
    (Key.integer value).inspect.toList =
      if value < 0 then '-' :: (Text.magnitude value).toList
      else (Text.magnitude value).toList := by
  have negative : value < 0 ↔ value.toInt < 0 := Int64.lt_iff_toInt_lt
  rw [Key.inspect, Text.magnitude, if_congr negative rfl rfl]
  cases value.toInt with
  | ofNat number => rfl
  | negSucc number =>
      have shown : toString (Int.negSucc number) = "-" ++ toString (number + 1) := rfl
      rw [shown, if_pos (Int.negSucc_lt_zero number), String.toList_append]
      rfl

variable {text : List Char}

theorem Key.scan_inspect {key : Key} (data : key.isData = true) (apart : isApart text = true) :
    scan (key.inspect.toList ++ text) = key.tokens ++ scan text := by
  cases key with
  | integer value =>
      have read : scan ((Text.magnitude value).toList ++ text) =
          .integer (Text.magnitude value) :: scan text :=
        @scan_of_isApart _ (.integer (Text.magnitude value)) (isNumeral_magnitude value) (by simp)
          apart
      rw [Key.inspect_integer, Key.tokens]
      split
      · rw [List.cons_append, scan_single .minus rfl rfl, read]
        rfl
      · exact read
  | boolean value =>
      cases value with
      | true => exact @scan_of_isApart _ (.keyword .trueWord) rfl (by simp) apart
      | false => exact @scan_of_isApart _ (.keyword .falseWord) rfl (by simp) apart
  | string text => cases data

mutual

theorem Value.scan_inspect : (value : Value) → value.isData = true → (text : List Char) →
    isApart text = true → scan (value.inspect.toList ++ text) = value.tokens ++ scan text
  | .integer value, _, text, apart => @Key.scan_inspect text (.integer value) rfl apart
  | .boolean true, _, text, apart => @Key.scan_inspect text (.boolean true) rfl apart
  | .boolean false, _, text, apart => @Key.scan_inspect text (.boolean false) rfl apart
  | .array identity elements, data, text, _ => by
      have shown : (Value.array identity elements).inspect.toList ++ text =
          '[' :: (listed (Value.inspectAll elements) ++ ']' :: text) := by
        simp [Value.inspect, listed]
      rw [shown, scan_single .leftBracket rfl rfl, Value.scan_inspectAll elements data text,
        Value.tokens_array, List.cons_append]
  | .dictionary identity entries, data, text, _ => by
      have shown : (Value.dictionary identity entries).inspect.toList ++ text =
          '\x7b' :: (listed (Value.inspectEntries entries) ++ '\x7d' :: text) := by
        simp [Value.inspect, listed]
      rw [shown, scan_single .leftBrace rfl rfl, Value.scan_inspectEntries entries data text,
        Value.tokens, List.cons_append]

theorem Value.scan_inspectAll : (values : List Value) → Value.allData values = true →
    (text : List Char) →
      scan (listed (Value.inspectAll values) ++ ']' :: text) =
        Value.elementTokens values ++ scan text
  | [], _, text => by
      rw [Value.inspectAll, listed_nil, List.nil_append, scan_single .rightBracket rfl rfl]
      rfl
  | [value], data, text => by
      rw [Value.allData, Bool.and_eq_true] at data
      rw [Value.inspectAll, Value.inspectAll, listed_singleton, value.scan_inspect data.1 _ rfl,
        scan_single .rightBracket rfl rfl, Value.elementTokens, Value.tokensAfter]
      simp
  | value :: next :: rest, data, text => by
      rw [Value.allData, Bool.and_eq_true] at data
      have shown : listed (Value.inspectAll (value :: next :: rest)) ++ ']' :: text =
          value.inspect.toList ++ ',' :: ' ' ::
            (listed (Value.inspectAll (next :: rest)) ++ ']' :: text) := by
        simp [Value.inspectAll]
      rw [shown, value.scan_inspect data.1 _ rfl, scan_comma,
        Value.scan_inspectAll (next :: rest) data.2 text, Value.elementTokens, Value.elementTokens,
        Value.tokensAfter]
      simp

theorem Value.scan_inspectEntries : (entries : List (Key × Value)) →
    Value.entriesData entries = true → (text : List Char) →
      scan (listed (Value.inspectEntries entries) ++ '\x7d' :: text) =
        Value.entryTokens entries ++ scan text
  | [], _, text => by
      rw [Value.inspectEntries, listed_nil, List.nil_append, scan_single .rightBrace rfl rfl]
      rfl
  | [(key, value)], data, text => by
      rw [Value.entriesData, Bool.and_eq_true, Bool.and_eq_true] at data
      have shown : listed (Value.inspectEntries [(key, value)]) ++ '\x7d' :: text =
          key.inspect.toList ++ ':' :: ' ' :: (value.inspect.toList ++ '\x7d' :: text) := by
        simp [Value.inspectEntries]
      rw [shown, Key.scan_inspect data.1.1 rfl, scan_single .colon rfl rfl, scan_separator rfl,
        value.scan_inspect data.1.2 _ rfl, scan_single .rightBrace rfl rfl]
      simp [Value.entryTokens, Value.commaBefore]
  | (key, value) :: next :: rest, data, text => by
      rw [Value.entriesData, Bool.and_eq_true, Bool.and_eq_true] at data
      have shown : listed (Value.inspectEntries ((key, value) :: next :: rest)) ++ '\x7d' :: text =
          key.inspect.toList ++ ':' :: ' ' :: (value.inspect.toList ++ ',' :: ' ' ::
            (listed (Value.inspectEntries (next :: rest)) ++ '\x7d' :: text)) := by
        simp [Value.inspectEntries]
      rw [shown, Key.scan_inspect data.1.1 rfl, scan_single .colon rfl rfl, scan_separator rfl,
        value.scan_inspect data.1.2 _ rfl, scan_comma,
        Value.scan_inspectEntries (next :: rest) data.2 text]
      change _ = key.tokens ++ .symbol .colon :: (value.tokens ++
        ([.symbol .comma] ++ Value.entryTokens (next :: rest))) ++ scan text
      simp

end

/-! ## From tokens to expressions -/

theorem Reader.bind_of_noted {α β : Type} {first : Reader α} {next : α → Reader β} {value : α}
    {result : β} {tokens middle rest : List Token} {issues later : List ParseError}
    (ended : first tokens = .done value middle issues)
    (continued : next value middle = .done result rest later) :
    (first >>= next) tokens = .done result rest (issues ++ later) := by
  change Reader.bind first next tokens = _
  unfold Reader.bind
  rw [ended]
  exact congrArg (Reply.after issues) continued

/-- What the lowest integer leaves behind at each of its places. -/
def Value.lowestIssues (count : Nat) : List ParseError :=
  List.replicate count (.invalidInteger "9223372036854775808")

theorem Value.lowestIssues_add (count others : Nat) :
    Value.lowestIssues (count + others) = Value.lowestIssues count ++ Value.lowestIssues others :=
  List.replicate_add ..

open Grammar Reader

section

variable {bound : Nat} {context : Precedence} {tokens rest : List Token}

/-- A primary that nothing continues is a whole expression. -/
theorem Grammar.expression_of_primary {found : Option Expr} {issues : List ParseError}
    (room : 0 < bound) (weak : Precedence.ofKind (frontKind rest) = .lowest)
    (read : primary (expression bound) bound tokens = .done found rest issues) :
    expression (bound + 1) context tokens = .done found rest issues := by
  have whole : expression (bound + 1) context tokens = .done found rest (issues ++ []) := by
    refine bind_of_noted read ?_
    cases found with
    | none => rfl
    | some left =>
        obtain ⟨steps, rfl⟩ := Nat.exists_eq_succ_of_ne_zero (Nat.ne_of_gt room)
        have notStronger : ¬ context < Precedence.ofKind (frontKind rest) := by
          rw [weak]
          exact Nat.not_lt_zero _
        exact if_neg notStronger
  rwa [List.append_nil] at whole

theorem Grammar.integer_magnitude (value : Int64) :
    Grammar.integer (Text.magnitude value) tokens =
      .done (if value = Int64.minValue then none else some (.integer (Text.magnitude value))) tokens
        (Value.lowestIssues (Key.integer value).lowestCount) := by
  rw [Grammar.integer, if_congr (Text.magnitude_lt_iff value) rfl rfl, Key.lowestCount]
  by_cases lowest : value = Int64.minValue
  · subst lowest
    rfl
  · rw [if_pos lowest, if_neg lowest, if_neg lowest]
    rfl

theorem Grammar.expression_magnitude (value : Int64)
    (weak : Precedence.ofKind (frontKind rest) = .lowest) (room : 0 < bound) :
    expression (bound + 1) context (.integer (Text.magnitude value) :: rest) =
      .done (if value = Int64.minValue then none else some (.integer (Text.magnitude value))) rest
        (Value.lowestIssues (Key.integer value).lowestCount) :=
  expression_of_primary room weak (integer_magnitude value)

theorem Key.read_tokens {key : Key} (data : key.isData = true)
    (weak : Precedence.ofKind (frontKind rest) = .lowest)
    (room : (key.tokens ++ rest).length < bound) :
    expression bound context (key.tokens ++ rest) =
      .done key.literal? rest (Value.lowestIssues key.lowestCount) := by
  cases key with
  | integer value =>
      rw [Key.tokens] at room ⊢
      by_cases negative : value < 0
      · rw [if_pos negative] at room ⊢
        -- The sign and the digits are two levels of nesting.
        obtain ⟨inner, rfl⟩ : ∃ inner, bound = inner + 3 :=
          Nat.exists_eq_add_of_le' (Nat.le_trans (Nat.le_add_left 3 rest.length) room)
        refine expression_of_primary (Nat.succ_pos _) weak ?_
        have read : unary (expression (inner + 2)) .negate
            (.integer (Text.magnitude value) :: rest) = .done _ rest (_ ++ []) :=
          bind_of_noted (expression_magnitude value weak (Nat.succ_pos inner)) rfl
        rw [List.append_nil] at read
        refine Eq.trans read ?_
        rw [Key.literal?, if_pos negative]
        split <;> rfl
      · rw [if_neg negative] at room ⊢
        obtain ⟨inner, rfl⟩ : ∃ inner, bound = inner + 2 :=
          Nat.exists_eq_add_of_le' (Nat.le_trans (Nat.le_add_left 2 rest.length) room)
        rw [Key.literal?, if_neg negative]
        exact expression_magnitude value weak (Nat.succ_pos inner)
  | boolean value =>
      cases value with
      | true =>
          obtain ⟨inner, rfl⟩ : ∃ inner, bound = inner + 2 :=
            Nat.exists_eq_add_of_le' (Nat.le_trans (Nat.le_add_left 2 rest.length) room)
          exact expression_of_primary (Nat.succ_pos _) weak rfl
      | false =>
          obtain ⟨inner, rfl⟩ : ∃ inner, bound = inner + 2 :=
            Nat.exists_eq_add_of_le' (Nat.le_trans (Nat.le_add_left 2 rest.length) room)
          exact expression_of_primary (Nat.succ_pos _) weak rfl
  | string text => cases data

theorem Key.opens_tokens (key : Key) : opensExpression (frontKind (key.tokens ++ rest)) = true := by
  cases key with
  | integer value =>
      rw [Key.tokens]
      split <;> rfl
  | boolean value => cases value <;> rfl
  | string text => rfl

theorem Value.opens_tokens {value : Value} (data : value.isData = true) :
    opensExpression (frontKind (value.tokens ++ rest)) = true := by
  cases value with
  | integer value => exact (Key.integer value).opens_tokens
  | boolean value => exact (Key.boolean value).opens_tokens
  | array identity elements =>
      rw [Value.tokens_array]
      rfl
  | dictionary identity entries => rfl
  | _ => cases data

/-- One round of the loop over the pairs of a dictionary. -/
theorem Grammar.pairs_round {reader : ExprReader} {key value : Option Expr}
    {others : List (Expr × Expr)} {middle ending next : List Token} {steps : Nat}
    {keyIssues valueIssues later : List ParseError}
    (opens : opensExpression (frontKind tokens) = true)
    (keyRead : reader .lowest tokens = .done key (.symbol .colon :: middle) keyIssues)
    (valueRead : reader .lowest middle = .done value ending valueIssues)
    (ended : pairEnd ending = .done () next [])
    (othersRead : pairs reader steps next = .done others rest later) :
    pairs reader (steps + 1) tokens =
      .done (Expr.consPair key value others) rest (keyIssues ++ (valueIssues ++ later)) := by
  unfold pairs
  rw [accept_bind_of_ne (frontKind_ne_of_opens opens rfl)]
  refine bind_of_noted keyRead ?_
  rw [expect_bind]
  refine bind_of_noted valueRead ?_
  rw [bind_of_done ended, ← List.append_nil later]
  refine bind_of_noted othersRead ?_
  cases key with
  | none => rfl
  | some key => cases value <;> rfl

end

theorem Value.commaBefore_weak (entries : List (Key × Value)) (rest : List Token) :
    Precedence.ofKind (frontKind
      (Value.commaBefore entries ++ (Value.entryTokens entries ++ rest))) = .lowest := by
  cases entries <;> rfl

theorem Grammar.pairEnd_commaBefore (entries : List (Key × Value)) (rest : List Token) :
    pairEnd (Value.commaBefore entries ++ (Value.entryTokens entries ++ rest)) =
      .done () (Value.entryTokens entries ++ rest) [] := by
  cases entries <;> rfl

theorem Value.tokensAfter_weak (values : List Value) (rest : List Token) :
    Precedence.ofKind (frontKind (Value.tokensAfter values ++ rest)) = .lowest := by
  cases values <;> rfl

-- Each level of nesting and each round of a loop consumes a token, so the bounds are kept above the
-- number of tokens left.
mutual

theorem Value.read_tokens : (value : Value) → value.isData = true → (bound : Nat) →
    (context : Precedence) → (rest : List Token) →
    Precedence.ofKind (frontKind rest) = .lowest → (value.tokens ++ rest).length < bound →
      expression bound context (value.tokens ++ rest) =
        .done value.literal? rest (Value.lowestIssues value.lowestCount)
  | .integer value, _, _, _, _, weak, room => @Key.read_tokens _ _ _ (.integer value) rfl weak room
  | .boolean value, _, _, _, _, weak, room => @Key.read_tokens _ _ _ (.boolean value) rfl weak room
  | .array identity [], _, bound, _, rest, weak, room => by
      obtain ⟨inner, rfl⟩ : ∃ inner, bound = inner + 3 :=
        Nat.exists_eq_add_of_le' (Nat.le_trans (Nat.le_add_left 3 rest.length) room)
      exact expression_of_primary (Nat.succ_pos _) weak rfl
  | .array identity (value :: others), data, bound, _, rest, weak, room => by
      rw [Value.isData, Value.allData, Bool.and_eq_true] at data
      rw [Value.tokens, List.cons_append, List.append_assoc] at room ⊢
      rw [List.length_cons] at room
      obtain ⟨inner, rfl⟩ := Nat.exists_eq_succ_of_ne_zero (Nat.ne_zero_of_lt room)
      have room := Nat.lt_of_succ_lt_succ room
      have roomAfter : (Value.tokensAfter others ++ rest).length < inner := by
        rw [List.length_append] at room
        omega
      have readFirst := value.read_tokens data.1 inner .lowest _
        (Value.tokensAfter_weak others rest) room
      have readOthers := Value.read_tokensAfter others data.2 inner inner rest roomAfter roomAfter
      have read : elements (expression inner) .rightBracket inner
          (value.tokens ++ (Value.tokensAfter others ++ rest)) = .done _ rest _ :=
        (accept_bind_of_ne (frontKind_ne_of_opens (value.opens_tokens data.1) rfl)).trans
          (bind_of_noted readFirst (bind_of_noted readOthers rfl))
      rw [List.append_nil, ← Value.lowestIssues_add] at read
      refine expression_of_primary (Nat.zero_lt_of_lt room) weak ?_
      rw [Value.lowestCount, Value.lowestCountAll, ← List.append_nil (Value.lowestIssues _)]
      exact bind_of_noted read rfl
  | .dictionary identity entries, data, bound, _, rest, weak, room => by
      rw [Value.tokens] at room ⊢
      rw [List.cons_append, List.length_cons] at room
      obtain ⟨inner, rfl⟩ := Nat.exists_eq_succ_of_ne_zero (Nat.ne_zero_of_lt room)
      have room := Nat.lt_of_succ_lt_succ room
      have read := Value.read_entryTokens entries data inner inner rest room room
      refine expression_of_primary (Nat.zero_lt_of_lt room) weak ?_
      rw [Value.lowestCount, ← List.append_nil (Value.lowestIssues _)]
      exact bind_of_noted read rfl

theorem Value.read_tokensAfter : (values : List Value) → Value.allData values = true →
    (bound steps : Nat) → (rest : List Token) →
    (Value.tokensAfter values ++ rest).length < bound →
    (Value.tokensAfter values ++ rest).length < steps →
      moreElements (expression bound) .rightBracket steps (Value.tokensAfter values ++ rest) =
        .done (Value.literals values) rest (Value.lowestIssues (Value.lowestCountAll values))
  | [], _, _, steps, rest, _, roomLoop => by
      obtain ⟨rounds, rfl⟩ := Nat.exists_eq_succ_of_ne_zero (Nat.ne_zero_of_lt roomLoop)
      rw [Value.tokensAfter, List.singleton_append, moreElements,
        accept_bind_of_ne (by rintro ⟨⟩)]
      exact expect_bind
  | value :: others, data, bound, steps, rest, room, roomLoop => by
      rw [Value.allData, Bool.and_eq_true] at data
      rw [Value.tokensAfter, List.cons_append, List.append_assoc] at room roomLoop ⊢
      rw [List.length_cons] at room roomLoop
      obtain ⟨rounds, rfl⟩ := Nat.exists_eq_succ_of_ne_zero (Nat.ne_zero_of_lt roomLoop)
      rw [List.length_append] at room roomLoop
      have readFirst := value.read_tokens data.1 bound .lowest _
        (Value.tokensAfter_weak others rest) (by rw [List.length_append]; omega)
      have readOthers := Value.read_tokensAfter others data.2 bound rounds rest
        (by omega) (by omega)
      rw [Value.lowestCountAll, Value.lowestIssues_add,
        ← List.append_nil (Value.lowestIssues (Value.lowestCountAll others)), moreElements,
        accept_bind]
      exact bind_of_noted readFirst (bind_of_noted readOthers rfl)

theorem Value.read_entryTokens : (entries : List (Key × Value)) →
    Value.entriesData entries = true → (bound steps : Nat) → (rest : List Token) →
    (Value.entryTokens entries ++ rest).length < bound →
    (Value.entryTokens entries ++ rest).length < steps →
      pairs (expression bound) steps (Value.entryTokens entries ++ rest) =
        .done (Value.literalPairs entries) rest
          (Value.lowestIssues (Value.lowestCountEntries entries))
  | [], _, _, steps, rest, _, roomLoop => by
      obtain ⟨rounds, rfl⟩ := Nat.exists_eq_succ_of_ne_zero (Nat.ne_zero_of_lt roomLoop)
      exact accept_bind
  | (key, value) :: others, data, bound, steps, rest, room, roomLoop => by
      rw [Value.entriesData, Bool.and_eq_true, Bool.and_eq_true] at data
      rw [Value.entryTokens, List.append_assoc, List.cons_append, List.append_assoc,
        List.append_assoc] at room roomLoop ⊢
      obtain ⟨rounds, rfl⟩ := Nat.exists_eq_succ_of_ne_zero (Nat.ne_zero_of_lt roomLoop)
      have readKey := @Key.read_tokens bound .lowest _ key data.1.1 rfl room
      simp only [List.length_append, List.length_cons] at room roomLoop
      have readValue := value.read_tokens data.1.2 bound .lowest _
        (Value.commaBefore_weak others rest) (by simp only [List.length_append]; omega)
      have readOthers := Value.read_entryTokens others data.2 bound rounds rest
        (by simp only [List.length_append]; omega) (by simp only [List.length_append]; omega)
      rw [Value.lowestCountEntries, Value.lowestIssues_add, Value.lowestIssues_add,
        List.append_assoc]
      exact pairs_round key.opens_tokens readKey readValue (pairEnd_commaBefore others rest)
        readOthers

end

/-- The text of data is not blank. -/
theorem Value.head?_inspect {value : Value} (data : value.isData = true) :
    ∃ c, value.inspect.toList.head? = some c ∧ Text.isBlank c = false := by
  cases value with
  | integer value =>
      change ∃ c, (Key.integer value).inspect.toList.head? = some c ∧ Text.isBlank c = false
      rw [Key.inspect_integer]
      split
      · exact ⟨'-', rfl, rfl⟩
      · have isNumeral := isNumeral_magnitude value
        rw [Token.isNumeral, Bool.and_eq_true] at isNumeral
        obtain ⟨c, front, opens⟩ := opensText_of_run (fun c digit => by simp [opensText, digit])
          isNumeral.1 isNumeral.2
        exact ⟨c, front, not_isBlank_of_opensText opens⟩
  | boolean value =>
      cases value with
      | true => exact ⟨'t', rfl, rfl⟩
      | false => exact ⟨'f', rfl, rfl⟩
  | array identity elements => exact ⟨'[', by simp [Value.inspect], rfl⟩
  | dictionary identity entries => exact ⟨'\x7b', by simp [Value.inspect], rfl⟩
  | _ => cases data

/-- A whole program that is one expression. -/
theorem Grammar.program_of_expression {found : Option Expr} {issues : List ParseError}
    {tokens : List Token} {bound : Nat} (opens : opensExpression (frontKind tokens) = true)
    (read : expression (bound + 2) .lowest tokens = .done found [] issues) :
    program (bound + 2) tokens = .done (found.map Stmt.expression).toList [] issues := by
  have readStatement : statement (expression (bound + 2)) tokens =
      .done (found.map Stmt.expression) [] issues := by
    unfold statement
    split
    · exact absurd opens Bool.false_ne_true
    · exact absurd opens Bool.false_ne_true
    · rw [← List.append_nil issues]
      exact bind_of_noted read rfl
  unfold program statements
  split
  · exact absurd opens Bool.false_ne_true
  · rw [← List.append_nil issues, ← List.append_nil (found.map Stmt.expression).toList]
    exact bind_of_noted readStatement rfl

theorem parse_inspect {value : Value} (data : value.isData = true) :
    parse value.inspect =
      .ok ⟨⟨(value.literal?.map Stmt.expression).toList⟩,
        Value.lowestIssues value.lowestCount⟩ := by
  have notBlank : ¬ Text.allBlank value.inspect.toList = true := by
    obtain ⟨c, front, visible⟩ := Value.head?_inspect data
    intro blank
    rw [Text.allBlank, List.all_eq_true] at blank
    rw [blank c (List.mem_of_head? front)] at visible
    exact Bool.noConfusion visible
  have scanned : scan value.inspect.toList = value.tokens := by
    have read := value.scan_inspect data [] rfl
    rwa [List.append_nil, scan_nil, List.append_nil] at read
  have opens := @Value.opens_tokens [] _ data
  have read := value.read_tokens data (value.tokens.length + 1) .lowest [] rfl
    (by rw [List.append_nil]; exact Nat.lt_succ_self _)
  rw [List.append_nil] at opens read
  have readWhole : parseTokens value.tokens =
      ⟨⟨(value.literal?.map Stmt.expression).toList⟩, Value.lowestIssues value.lowestCount⟩ := by
    unfold parseTokens
    cases listed : value.tokens with
    | nil =>
        rw [listed] at opens
        exact absurd opens Bool.false_ne_true
    | cons token others =>
        rw [listed] at opens read
        rw [List.length_cons] at read ⊢
        rw [Grammar.program_of_expression opens read]
        rfl
  unfold parse ofSource
  rw [if_neg notBlank, scanned]
  exact congrArg Except.ok readWhole

end Scriptlet
