import Scriptlet.Parse

/-!
# Reading without issues

A reader that ends without an issue is made of parts that do, each going on where the one before it
stopped.  For each elementary reader this module says which tokens it ends on without an issue, and
with which result.
-/

namespace Scriptlet

namespace Reader

variable {α β : Type} {tokens rest : List Token}

@[simp] theorem after_nil (reply : Reply α) : reply.after [] = reply := by
  cases reply <;> rfl

@[simp] theorem pure_eq_done {value result : α} :
    (pure value : Reader α) tokens = .done result rest [] ↔ value = result ∧ tokens = rest := by
  change Reply.done value tokens [] = .done result rest [] ↔ _
  simp only [Reply.done.injEq, and_true]

theorem bind_eq_done {first : Reader α} {next : α → Reader β} {result : β} :
    (first >>= next) tokens = .done result rest [] ↔
      ∃ value middle, first tokens = .done value middle [] ∧
        next value middle = .done result rest [] := by
  change Reader.bind first next tokens = _ ↔ _
  unfold Reader.bind
  cases ended : first tokens with
  | stopped reason issues => simp
  | done value middle issues =>
      simp only [Reply.done.injEq]
      constructor
      · intro continued
        cases continuation : next value middle with
        | stopped reason later => simp [continuation, Reply.after] at continued
        | done output last later =>
            simp only [continuation, Reply.after, Reply.done.injEq, List.append_eq_nil_iff]
              at continued
            obtain ⟨rfl, rfl, rfl, rfl⟩ := continued
            exact ⟨value, middle, ⟨rfl, rfl, rfl⟩, continuation⟩
      · rintro ⟨_, _, ⟨rfl, rfl, rfl⟩, continued⟩
        rw [continued]
        rfl

theorem bind_of_done {first : Reader α} {next : α → Reader β} {value : α} {middle : List Token}
    (ended : first tokens = .done value middle []) :
    (first >>= next) tokens = next value middle := by
  change Reader.bind first next tokens = _
  unfold Reader.bind
  rw [ended]
  exact after_nil _

@[simp] theorem note_ne_done {issue : ParseError} :
    note issue tokens ≠ .done () rest [] := by
  simp [note]

@[simp] theorem stop_ne_done {reason : Stop} {value : α} :
    (stop reason : Reader α) tokens ≠ .done value rest [] := by
  simp [stop]

/-! ## Elementary readers -/

@[simp] theorem expect_eq_done {mark : Symbol} {value : Unit} :
    expect mark tokens = .done value rest [] ↔ tokens = .symbol mark :: rest := by
  unfold expect
  split
  · next found _ =>
      split
      · next equal => simp [equal]
      · next different => simp [different]
  · next other =>
      simp only [reduceCtorEq, false_iff]
      exact other mark rest

@[simp] theorem expectIdentifier_eq_done {name : String} :
    expectIdentifier tokens = .done name rest [] ↔ tokens = .identifier name :: rest := by
  unfold expectIdentifier
  split
  · simp
  · next other =>
      simp only [reduceCtorEq, false_iff]
      exact other name rest

@[simp] theorem frontKind_cons (token : Token) : frontKind (token :: rest) = token.kind := rfl

theorem frontKind_symbol_iff {mark : Symbol} :
    frontKind tokens = .symbol mark ↔ ∃ rest, tokens = .symbol mark :: rest := by
  cases tokens with
  | nil => simp [frontKind]
  | cons token rest => cases token <;> simp [Token.kind]

theorem frontKind_keyword_iff {word : Keyword} :
    frontKind tokens = .keyword word ↔ ∃ rest, tokens = .keyword word :: rest := by
  cases tokens with
  | nil => simp [frontKind]
  | cons token rest => cases token <;> simp [Token.kind]

@[simp] theorem accept_true_iff {mark : Symbol} :
    accept mark tokens = .done true rest [] ↔ tokens = .symbol mark :: rest := by
  unfold accept
  split
  · next found _ =>
      split
      · next equal => simp [equal]
      · next different => simp [different]
  · next other =>
      simp only [Reply.done.injEq, Bool.false_eq_true, false_and, false_iff]
      exact other mark rest

@[simp] theorem accept_false_iff {mark : Symbol} :
    accept mark tokens = .done false rest [] ↔ frontKind tokens ≠ .symbol mark ∧ tokens = rest := by
  rw [ne_eq, frontKind_symbol_iff]
  unfold accept
  split
  · next found others =>
      split
      · next equal => simp [equal]
      · next different => simp [different]
  · next other =>
      simp only [Reply.done.injEq, true_and, and_true, iff_and_self]
      rintro _ ⟨others, equal⟩
      exact other mark others equal

@[simp] theorem acceptKeyword_true_iff {word : Keyword} :
    acceptKeyword word tokens = .done true rest [] ↔ tokens = .keyword word :: rest := by
  unfold acceptKeyword
  split
  · next found _ =>
      split
      · next equal => simp [equal]
      · next different => simp [different]
  · next other =>
      simp only [Reply.done.injEq, Bool.false_eq_true, false_and, false_iff]
      exact other word rest

@[simp] theorem acceptKeyword_false_iff {word : Keyword} :
    acceptKeyword word tokens = .done false rest [] ↔
      frontKind tokens ≠ .keyword word ∧ tokens = rest := by
  rw [ne_eq, frontKind_keyword_iff]
  unfold acceptKeyword
  split
  · next found others =>
      split
      · next equal => simp [equal]
      · next different => simp [different]
  · next other =>
      simp only [Reply.done.injEq, true_and, and_true, iff_and_self]
      rintro _ ⟨others, equal⟩
      exact other word others equal

/-! ## Going on after an elementary reader -/

variable {mark : Symbol} {word : Keyword}

theorem expect_bind {next : Unit → Reader α} :
    (expect mark >>= next) (.symbol mark :: rest) = next () rest :=
  bind_of_done (expect_eq_done.2 rfl)

theorem expectIdentifier_bind {next : String → Reader α} {name : String} :
    (expectIdentifier >>= next) (.identifier name :: rest) = next name rest :=
  bind_of_done (expectIdentifier_eq_done.2 rfl)

theorem accept_bind {next : Bool → Reader α} :
    (accept mark >>= next) (.symbol mark :: rest) = next true rest :=
  bind_of_done (accept_true_iff.2 rfl)

theorem accept_bind_of_ne {next : Bool → Reader α} (other : frontKind tokens ≠ .symbol mark) :
    (accept mark >>= next) tokens = next false tokens :=
  bind_of_done (accept_false_iff.2 ⟨other, rfl⟩)

theorem acceptKeyword_bind {next : Bool → Reader α} :
    (acceptKeyword word >>= next) (.keyword word :: rest) = next true rest :=
  bind_of_done (acceptKeyword_true_iff.2 rfl)

theorem acceptKeyword_bind_of_ne {next : Bool → Reader α}
    (other : frontKind tokens ≠ .keyword word) :
    (acceptKeyword word >>= next) tokens = next false tokens :=
  bind_of_done (acceptKeyword_false_iff.2 ⟨other, rfl⟩)

end Reader

end Scriptlet
