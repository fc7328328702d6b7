import Scriptlet.Proofs.Parse.Literals
import Scriptlet.Proofs.Value.Contents
import Scriptlet.Session

/-!
# Data read back from its text

Run as a source, the text of a value that is made of integers, booleans, arrays and dictionaries
makes a copy of the value, with the entries of every dictionary in the same order, and changes no
scope.  If the lowest integer occurs in the value, the source is rejected instead, with one problem
for each of its places.
-/

namespace Scriptlet

/-! ## Making values -/

/-- Whether a computation always ends, with a result that is accepted, and neither makes a frame nor
binds a name: it may only use up identities. -/
def Run.Makes {α : Type} (run : Run α) (accepts : α → Prop) : Prop :=
  ∀ store, ∃ result next,
    run store = some (result, { store with nextIdentity := next }) ∧ accepts result

namespace Run.Makes

variable {α β : Type} {accepts : α → Prop} {approves : β → Prop}

theorem pure {value : α} (accepted : accepts value) : (pure value : Run α).Makes accepts :=
  fun store => ⟨value, store.nextIdentity, rfl, accepted⟩

theorem bind {first : Run α} {next : α → Run β} (makes : first.Makes accepts)
    (continued : ∀ value, accepts value → (next value).Makes approves) :
    (first >>= next).Makes approves := by
  intro store
  obtain ⟨value, middle, ended, accepted⟩ := makes store
  obtain ⟨result, last, endedNext, approved⟩ :=
    continued value accepted { store with nextIdentity := middle }
  refine ⟨result, last, ?_, approved⟩
  change (first store).bind (fun step => next step.1 step.2) = _
  rw [ended]
  exact endedNext

theorem mono {run : Run α} {allows : α → Prop} (makes : run.Makes accepts)
    (weaker : ∀ value, accepts value → allows value) : run.Makes allows := by
  intro store
  obtain ⟨result, next, ended, accepted⟩ := makes store
  exact ⟨result, next, ended, weaker result accepted⟩

theorem newIdentity {make : Identity → Value} {approves : Value → Prop}
    (approved : ∀ identity, approves (make identity)) :
    (do return make (← Run.newIdentity) : Run Value).Makes approves :=
  fun store => ⟨_, store.nextIdentity + 1, rfl, approved store.nextIdentity⟩

end Run.Makes

/-! ## Evaluating literals of data -/

theorem Value.interrupts_contents (value : Value) :
    value.contents.interrupts = value.interrupts := by
  cases value <;> rfl

theorem Value.interrupts_ofKey (key : Key) : (Value.ofKey key).interrupts = false := by
  cases key <;> rfl

theorem Value.interrupts_of_contents_eq {copy value : Value} (data : value.isData = true)
    (same : copy.contents = value.contents) : copy.interrupts = false := by
  rw [← copy.interrupts_contents, same, value.interrupts_contents]
  cases value <;> first | rfl | cases data

theorem Evaluate.integer_magnitude (value : Int64) :
    Evaluate.integer (Text.magnitude value) = .integer (if value < 0 then -value else value) := by
  have negative : value < 0 ↔ value.toInt < 0 := Int64.lt_iff_toInt_lt
  rw [Evaluate.integer, Text.numeralValue_magnitude, if_congr negative rfl rfl]
  congr 1
  change Int64.ofInt (value.toInt.natAbs : Int) = _
  split
  · next below =>
      rw [Int.ofNat_natAbs_of_nonpos (Int.le_of_lt below), Int64.ofInt_neg, Int64.ofInt_toInt]
  · next above =>
      rw [Int.natAbs_of_nonneg (Int.not_lt.1 above), Int64.ofInt_toInt]

section

variable (library : Library) (apply : Evaluate.Applier) (scope : FrameId)

theorem Key.makes_literal {key : Key} (data : key.isData = true) (fits : key.lowestCount = 0) :
    ∃ literal, key.literal? = some literal ∧
      (Evaluate.expression library apply scope literal).Makes (· = Value.ofKey key) := by
  cases key with
  | integer value =>
      have notLowest : value ≠ Int64.minValue := by
        rintro rfl
        cases fits
      rw [Key.literal?, if_neg notLowest]
      by_cases negative : value < 0
      · rw [if_pos negative]
        refine ⟨_, rfl, .bind (.pure rfl) ?_⟩
        rintro _ rfl
        refine .pure ?_
        rw [Evaluate.integer_magnitude, if_pos negative]
        exact congrArg Value.integer Int64.neg_neg
      · rw [if_neg negative]
        refine ⟨_, rfl, .pure ?_⟩
        rw [Evaluate.integer_magnitude, if_neg negative]
        rfl
  | boolean value => exact ⟨_, rfl, .pure rfl⟩
  | string text => cases data

end

theorem Entries.insert_of_notMem {α : Type} {entries : Entries α} {key : Key}
    (absent : key ∉ entries.keys) (value : α) :
    entries.insert key value = entries ++ [(key, value)] := by
  induction entries with
  | nil => rfl
  | cons entry rest ih =>
      simp only [keys, List.map_cons, List.mem_cons, not_or] at absent ih
      rw [insert, if_neg (Ne.symm absent.1), ih absent.2]
      rfl

mutual

theorem Value.makes_literal (library : Library) (apply : Evaluate.Applier) (scope : FrameId) :
    (value : Value) → value.isData = true → value.hasDistinctKeys = true → value.lowestCount = 0 →
      ∃ literal, value.literal? = some literal ∧
        (Evaluate.expression library apply scope literal).Makes
          (·.contents = value.contents)
  | .integer value, _, _, fits => by
      obtain ⟨literal, spelled, makes⟩ :=
        @Key.makes_literal library apply scope (.integer value) rfl fits
      exact ⟨literal, spelled, makes.mono fun _ same => congrArg Value.contents same⟩
  | .boolean value, _, _, fits => by
      obtain ⟨literal, spelled, makes⟩ :=
        @Key.makes_literal library apply scope (.boolean value) rfl fits
      exact ⟨literal, spelled, makes.mono fun _ same => congrArg Value.contents same⟩
  | .array identity elements, data, distinct, fits => by
      have makes := Value.makes_literals library apply scope elements data distinct fits
      refine ⟨_, rfl, .bind makes ?_⟩
      rintro _ ⟨copies, rfl, same⟩
      exact .newIdentity fun _ => congrArg (Value.array 0) same
  | .dictionary identity entries, data, distinct, fits => by
      rw [Value.hasDistinctKeys, Bool.and_eq_true, decide_eq_true_eq] at distinct
      have makes := Value.makes_literalPairs library apply scope entries data distinct.2 fits []
        distinct.1
      refine ⟨_, rfl, .bind makes ?_⟩
      rintro _ ⟨copies, rfl, same⟩
      exact .newIdentity fun _ => congrArg (Value.dictionary 0) same

theorem Value.makes_literals (library : Library) (apply : Evaluate.Applier) (scope : FrameId) :
    (values : List Value) → Value.allData values = true → Value.allDistinctKeys values = true →
    Value.lowestCountAll values = 0 →
      (Evaluate.expressions library apply scope (Value.literals values)).Makes fun found =>
        ∃ copies, found = .ok copies ∧ Value.contentsAll copies = Value.contentsAll values
  | [], _, _, _ => .pure ⟨[], rfl, rfl⟩
  | value :: rest, data, distinct, fits => by
      rw [Value.allData, Bool.and_eq_true] at data
      rw [Value.allDistinctKeys, Bool.and_eq_true] at distinct
      rw [Value.lowestCountAll, Nat.add_eq_zero_iff] at fits
      obtain ⟨literal, spelled, makes⟩ :=
        value.makes_literal library apply scope data.1 distinct.1 fits.1
      have makesOthers :=
        Value.makes_literals library apply scope rest data.2 distinct.2 fits.2
      rw [Value.literals, spelled]
      refine .bind makes fun copy same => ?_
      rw [Value.interrupts_of_contents_eq data.1 same]
      refine .bind makesOthers ?_
      rintro _ ⟨copies, rfl, sameOthers⟩
      exact .pure ⟨copy :: copies, rfl, congrArg₂ List.cons same sameOthers⟩

theorem Value.makes_literalPairs (library : Library) (apply : Evaluate.Applier) (scope : FrameId) :
    (entries : List (Key × Value)) → Value.entriesData entries = true →
    Value.entriesDistinctKeys entries = true → Value.lowestCountEntries entries = 0 →
    (found : Entries Value) → (Entries.keys found ++ Entries.keys entries).Nodup →
      (Evaluate.entries library apply scope (Value.literalPairs entries) found).Makes fun result =>
        ∃ copies, result = .ok (found ++ copies) ∧
          Value.contentsEntries copies = Value.contentsEntries entries
  | [], _, _, _, found, _ => .pure ⟨[], by rw [List.append_nil], rfl⟩
  | (key, value) :: rest, data, distinct, fits, found, different => by
      rw [Value.entriesData, Bool.and_eq_true, Bool.and_eq_true] at data
      rw [Value.entriesDistinctKeys, Bool.and_eq_true] at distinct
      rw [Value.lowestCountEntries, Nat.add_eq_zero_iff, Nat.add_eq_zero_iff] at fits
      obtain ⟨keyLiteral, keySpelled, makesKey⟩ :=
        Key.makes_literal library apply scope data.1.1 fits.1.1
      obtain ⟨literal, spelled, makes⟩ :=
        value.makes_literal library apply scope data.1.2 distinct.1 fits.1.2
      have absent : key ∉ Entries.keys found := fun present =>
        List.disjoint_of_nodup_append different present List.mem_cons_self
      have stillDifferent (copy : Value) :
          (Entries.keys (found ++ [(key, copy)]) ++ Entries.keys rest).Nodup := by
        simpa [Entries.keys] using different
      have makesOthers (copy : Value) := Value.makes_literalPairs library apply scope rest data.2
        distinct.2 fits.2 (found ++ [(key, copy)]) (stillDifferent copy)
      rw [Value.literalPairs, keySpelled, spelled]
      refine .bind makesKey ?_
      rintro _ rfl
      rw [Value.interrupts_ofKey]
      refine .bind makes fun copy same => ?_
      rw [Value.interrupts_of_contents_eq data.1.2 same]
      simp only [Value.key?_ofKey, Entries.insert_of_notMem absent]
      refine (makesOthers copy).mono ?_
      rintro _ ⟨copies, rfl, sameOthers⟩
      refine ⟨(key, copy) :: copies, by simp, ?_⟩
      rw [Value.contentsEntries, same, sameOthers]
      rfl

end

/-! ## Running the text of data -/

namespace Session

theorem ofSource_inspect {value : Value} (data : value.isData = true) :
    Program.ofSource value.inspect =
      if value.lowestCount = 0 then .ok ⟨(value.literal?.map Stmt.expression).toList⟩
      else .error (.parse (Value.lowestIssues value.lowestCount)) := by
  rw [Program.ofSource, parse_inspect data]
  cases value.lowestCount <;> rfl

theorem makes_program (library : Library) (depth : Nat) (scope : FrameId) {value : Value}
    {literal : Expr} (data : value.isData = true)
    (makes : (Evaluate.expression library (Evaluate.applyWithin library depth) scope literal).Makes
      (·.contents = value.contents)) :
    (Evaluate.program library depth scope ⟨[.expression literal]⟩).Makes
      (·.contents = value.contents) := by
  have makesBlock : (Evaluate.block library (Evaluate.applyWithin library depth) scope .null
      [.expression literal]).Makes (·.contents = value.contents) := by
    refine .bind makes fun copy same => ?_
    rw [Value.interrupts_of_contents_eq data same]
    exact .pure same
  refine .bind makesBlock fun copy same => .pure ?_
  have passed := Value.interrupts_of_contents_eq data same
  cases copy with
  | returned value => cases passed
  | _ => exact same

/-- In every session the text of data is read back as a copy of it, unless the lowest integer occurs
in it; then it is rejected, with one problem for each occurrence. -/
theorem run_inspect (session : Session) (depth : Nat) {value : Value} (data : value.isData = true)
    (distinct : value.hasDistinctKeys = true) :
    (value.lowestCount = 0 → ∃ copy next,
      session.run depth value.inspect =
        some (.ok copy, { session with store := { session.store with nextIdentity := next } }) ∧
      copy.equals value = true ∧ copy.contents = value.contents) ∧
    (value.lowestCount ≠ 0 →
      session.run depth value.inspect =
        some (.error (.parse (List.replicate value.lowestCount
          (.invalidInteger "9223372036854775808"))), session)) := by
  constructor
  · intro fits
    obtain ⟨literal, spelled, makes⟩ := value.makes_literal session.library
      (Evaluate.applyWithin session.library depth) session.root data distinct fits
    obtain ⟨copy, next, ended, same⟩ :=
      makes_program session.library depth session.root data makes session.store
    refine ⟨copy, next, ?_, ?_, same⟩
    · rw [run, ofSource_inspect data, if_pos fits, spelled]
      change ((session.runProgram depth ⟨[.expression literal]⟩).map _) = _
      rw [runProgram, perform, ended]
      rfl
    · refine copy.equals_of_contents_eq value ?_ same
      rw [← copy.hasDistinctKeys_contents, same, value.hasDistinctKeys_contents]
      exact distinct
  · intro occurs
    rw [run, ofSource_inspect data, if_neg occurs]
    rfl

/-- A row of data with nested parts, dictionaries with their keys out of order, and numbers at both
ends of the range. -/
def readBackSample (number : Int64) : Value :=
  .array 4 [.integer (-7),
    .dictionary 9 [(.integer number, .array 4 []), (.boolean true, .integer 0),
      (.integer (-1), .dictionary 2 [])],
    .integer number, .boolean false]

/-- A row of data is read back; with the lowest integer in two places, it is rejected. -/
theorem run_inspect_samples :
    (readBackSample Int64.maxValue).isData = true ∧
      (readBackSample Int64.maxValue).hasDistinctKeys = true ∧
      (readBackSample Int64.maxValue).lowestCount = 0 ∧
      (∃ copy next, (Session.start .standard).run 0 (readBackSample Int64.maxValue).inspect =
          some (.ok copy, { Session.start .standard with
            store := { (Session.start .standard).store with nextIdentity := next } }) ∧
        copy.equals (readBackSample Int64.maxValue) = true ∧
        copy.contents = (readBackSample Int64.maxValue).contents) ∧
      (Session.start .standard).run 0 (readBackSample Int64.minValue).inspect =
        some (.error (.parse [.invalidInteger "9223372036854775808",
          .invalidInteger "9223372036854775808"]), Session.start .standard) :=
  ⟨rfl, rfl, rfl, (run_inspect (.start .standard) 0 rfl rfl).1 rfl,
    (run_inspect (.start .standard) 0 rfl rfl).2 nofun⟩

end Session

end Scriptlet
