import Mathlib.Algebra.Group.Nat.Defs
import Mathlib.Data.List.Forall2
import Scriptlet.Proofs.Parse.Bound
import Scriptlet.Proofs.Parse.Soundness
import Scriptlet.Proofs.Parse.Spelling

/-!
# Issues are noted in the order of reading

A reader goes on after an issue, but never back: what it notes later stands further on in the text,
and no place is noted twice.  The end of the input is a place too, although nothing is consumed
there, so every reader that may follow a position left empty must note nothing at the end.  A text
is read to its end or up to one unexpected token, whatever its tokens are.
-/

namespace Scriptlet

/-- Whether an issue says the truth about a place, given as the tokens that were still ahead: no
expression starts with the kind that it names, which is the kind in front; the numeral that it
quotes is in front, and too large. -/
def ParseError.Fits (ahead : List Token) : ParseError → Prop
  | noExpression found =>
      Reader.frontKind ahead = found ∧ Spelling.opensExpression found = false
  | invalidInteger numeral =>
      (∃ rest, ahead = .integer numeral :: rest) ∧
        Text.literalBound ≤ Text.numeralValue numeral
  | unexpectedToken .. => False

/-- Issues with the places at which they were noted, each further on than the one before. -/
structure Trail (tokens : List Token) (places : List (List Token))
    (issues : List ParseError) : Prop where
  fits : List.Forall₂ (fun place issue => issue.Fits place) places issues
  further : places.Pairwise fun earlier later => later.length < earlier.length
  ahead : ∀ place ∈ places, place <:+ tokens

namespace Trail

variable {tokens middle : List Token} {places laterPlaces : List (List Token)}
variable {issues laterIssues : List ParseError}

theorem nil (tokens : List Token) : Trail tokens [] [] :=
  ⟨.nil, .nil, by simp⟩

theorem singleton {issue : ParseError} (fits : issue.Fits tokens) :
    Trail tokens [tokens] [issue] :=
  ⟨.cons fits .nil, List.pairwise_singleton _ _, by simp⟩

theorem places_eq_nil (trail : Trail tokens places []) : places = [] :=
  List.forall₂_nil_right_iff.1 trail.fits

theorem mono (trail : Trail middle places issues) (suffix : middle <:+ tokens) :
    Trail tokens places issues :=
  ⟨trail.fits, trail.further, fun place member => (trail.ahead place member).trans suffix⟩

theorem append (trail : Trail tokens places issues)
    (later : Trail tokens laterPlaces laterIssues)
    (apart : ∀ place ∈ places, ∀ next ∈ laterPlaces, next.length < place.length) :
    Trail tokens (places ++ laterPlaces) (issues ++ laterIssues) where
  fits := List.rel_append trail.fits later.fits
  further := List.pairwise_append.2 ⟨trail.further, later.further, apart⟩
  ahead place member := (List.mem_append.1 member).elim (trail.ahead place) (later.ahead place)

end Trail

/-! ## Orderly readers -/

namespace Reply

variable {α : Type}

/-- The issues of a reply. -/
def issues : Reply α → List ParseError
  | done _ _ issues => issues
  | stopped _ issues => issues

/-- A reply to a list of tokens whose issues are in order and stand before what is left over. -/
def Orderly (tokens : List Token) : Reply α → Prop
  | done _ rest issues =>
      rest <:+ tokens ∧ ∃ places, Trail tokens places issues ∧
        (rest ≠ [] → ∀ place ∈ places, rest.length < place.length)
  | stopped _ issues => ∃ places, Trail tokens places issues

/-- A reply without issues that leaves tokens over as they were. -/
def Silent (tokens : List Token) : Reply α → Prop
  | done _ rest issues => rest <:+ tokens ∧ issues = []
  | stopped _ issues => issues = []

theorem Silent.orderly {reply : Reply α} {tokens : List Token} (silent : reply.Silent tokens) :
    reply.Orderly tokens := by
  cases reply with
  | done value rest issues =>
      obtain ⟨suffix, rfl⟩ := silent
      exact ⟨suffix, [], .nil tokens, by simp⟩
  | stopped reason issues =>
      cases silent
      exact ⟨[], .nil tokens⟩

theorem Silent.issues_eq_nil {reply : Reply α} {tokens : List Token}
    (silent : reply.Silent tokens) : reply.issues = [] := by
  cases reply with
  | done value rest issues => exact silent.2
  | stopped reason issues => exact silent

theorem Orderly.cons {reply : Reply α} {tokens : List Token} (orderly : reply.Orderly tokens)
    (token : Token) : reply.Orderly (token :: tokens) := by
  have further : tokens <:+ token :: tokens := List.suffix_cons token tokens
  cases reply with
  | done value rest issues =>
      obtain ⟨suffix, places, trail, before⟩ := orderly
      exact ⟨suffix.trans further, places, trail.mono further, before⟩
  | stopped reason issues =>
      obtain ⟨places, trail⟩ := orderly
      exact ⟨places, trail.mono further⟩

end Reply

namespace Reader

variable {α β : Type} {first : Reader α} {next : α → Reader β}

/-- A reader that notes issues in order. -/
def Orderly (reader : Reader α) : Prop := ∀ tokens, (reader tokens).Orderly tokens

/-- A reader that notes nothing. -/
def Silent (reader : Reader α) : Prop := ∀ tokens, (reader tokens).Silent tokens

/-- A reader that notes nothing at the end of the input. -/
def Quiet (reader : Reader α) : Prop := (reader []).issues = []

theorem Silent.orderly (silent : Silent first) : Orderly first :=
  fun tokens => (silent tokens).orderly

theorem Silent.quiet (silent : Silent first) : Quiet first := (silent []).issues_eq_nil

theorem silent_pure (value : α) : Silent (pure value : Reader α) :=
  fun tokens => ⟨List.suffix_refl tokens, rfl⟩

theorem silent_stop (reason : Stop) : Silent (stop reason : Reader α) := fun _ => rfl

/-- The places of two readers in a row, when they do not meet. -/
theorem orderly_after {tokens middle : List Token} {places : List (List Token)}
    {issues : List ParseError} {reply : Reply β} (suffix : middle <:+ tokens)
    (trail : Trail tokens places issues)
    (before : middle ≠ [] → ∀ place ∈ places, middle.length < place.length)
    (replyOrderly : reply.Orderly middle)
    (quiet : middle = [] → places = [] ∨ reply.issues = []) :
    (reply.after issues).Orderly tokens := by
  have apart : ∀ laterPlaces, Trail middle laterPlaces reply.issues →
      ∀ place ∈ places, ∀ next ∈ laterPlaces, next.length < place.length := by
    intro laterPlaces later place member next nextMember
    by_cases atEnd : middle = []
    · rcases quiet atEnd with rfl | noIssues
      · cases member
      · rw [noIssues] at later
        rw [later.places_eq_nil] at nextMember
        cases nextMember
    · exact Nat.lt_of_le_of_lt (later.ahead next nextMember).length_le (before atEnd place member)
  cases reply with
  | done value rest laterIssues =>
      obtain ⟨restSuffix, laterPlaces, later, laterBefore⟩ := replyOrderly
      refine ⟨restSuffix.trans suffix, places ++ laterPlaces,
        trail.append (later.mono suffix) (apart laterPlaces later), ?_⟩
      intro restLeft place member
      rcases List.mem_append.1 member with member | member
      · have middleLeft : middle ≠ [] := by
          rintro rfl
          exact restLeft (List.suffix_nil.1 restSuffix)
        exact Nat.lt_of_le_of_lt restSuffix.length_le (before middleLeft place member)
      · exact laterBefore restLeft place member
  | stopped reason laterIssues =>
      obtain ⟨laterPlaces, later⟩ := replyOrderly
      exact ⟨places ++ laterPlaces, trail.append (later.mono suffix) (apart laterPlaces later)⟩

theorem Orderly.bind (firstOrderly : Orderly first) (nextOrderly : ∀ value, Orderly (next value))
    (nextQuiet : ∀ value, Quiet (next value)) : Orderly (first >>= next) := by
  intro tokens
  have orderly := firstOrderly tokens
  change (Reader.bind first next tokens).Orderly tokens
  unfold Reader.bind
  cases ended : first tokens with
  | stopped reason issues =>
      rw [ended] at orderly
      exact orderly
  | done value middle issues =>
      rw [ended] at orderly
      obtain ⟨suffix, places, trail, before⟩ := orderly
      apply orderly_after suffix trail before (nextOrderly value middle)
      rintro rfl
      exact .inr (nextQuiet value)

theorem Silent.bind (firstSilent : Silent first) (nextOrderly : ∀ value, Orderly (next value)) :
    Orderly (first >>= next) := by
  intro tokens
  have silent := firstSilent tokens
  change (Reader.bind first next tokens).Orderly tokens
  unfold Reader.bind
  cases ended : first tokens with
  | stopped reason issues =>
      rw [ended] at silent
      exact silent.orderly
  | done value middle issues =>
      rw [ended] at silent
      obtain ⟨suffix, rfl⟩ := silent
      exact orderly_after suffix (.nil tokens) (by simp) (nextOrderly value middle)
        (fun _ => .inl rfl)

theorem Silent.bind_silent (firstSilent : Silent first)
    (nextSilent : ∀ value, Silent (next value)) : Silent (first >>= next) := by
  intro tokens
  have silent := firstSilent tokens
  change (Reader.bind first next tokens).Silent tokens
  unfold Reader.bind
  cases ended : first tokens with
  | stopped reason issues =>
      rw [ended] at silent
      exact silent
  | done value middle issues =>
      rw [ended] at silent
      obtain ⟨suffix, rfl⟩ := silent
      have later := nextSilent value middle
      change ((next value middle).after []).Silent tokens
      rw [after_nil]
      cases continuation : next value middle with
      | stopped reason laterIssues =>
          rw [continuation] at later
          exact later
      | done result rest laterIssues =>
          rw [continuation] at later
          exact ⟨later.1.trans suffix, later.2⟩

theorem Orderly.bind_pure {f : α → β} (firstOrderly : Orderly first) :
    Orderly (first >>= fun value => pure (f value)) :=
  firstOrderly.bind (fun _ => (silent_pure _).orderly) fun _ => (silent_pure _).quiet

/-- At the end of the input nothing is left for the next reader either. -/
theorem Orderly.bind_quiet (firstOrderly : Orderly first) (firstQuiet : Quiet first)
    (nextQuiet : ∀ value, Quiet (next value)) : Quiet (first >>= next) := by
  have orderly := firstOrderly []
  unfold Quiet at firstQuiet
  change (Reader.bind first next []).issues = []
  unfold Reader.bind
  cases ended : first [] with
  | stopped reason issues =>
      rw [ended] at firstQuiet
      exact firstQuiet
  | done value middle issues =>
      rw [ended] at orderly firstQuiet
      cases List.suffix_nil.1 orderly.1
      cases firstQuiet
      change ((next value []).after []).issues = []
      rw [after_nil]
      exact nextQuiet value

/-- A reader that ends is made of parts that end. -/
theorem exists_of_bind_eq_done {tokens rest : List Token} {result : β} {issues : List ParseError}
    (ended : (first >>= next) tokens = .done result rest issues) :
    ∃ value middle earlier later, first tokens = .done value middle earlier ∧
      next value middle = .done result rest later := by
  change Reader.bind first next tokens = _ at ended
  unfold Reader.bind at ended
  cases firstEnded : first tokens with
  | stopped reason earlier =>
      rw [firstEnded] at ended
      cases ended
  | done value middle earlier =>
      rw [firstEnded] at ended
      change (next value middle).after earlier = _ at ended
      cases continued : next value middle with
      | stopped reason later =>
          rw [continued] at ended
          cases ended
      | done output last later =>
          rw [continued] at ended
          cases ended
          exact ⟨value, middle, earlier, later, rfl, continued⟩

/-! ## Elementary readers -/

theorem silent_expect (mark : Symbol) : Silent (expect mark) := by
  intro tokens
  unfold expect
  split
  · split
    · exact ⟨List.suffix_cons _ _, rfl⟩
    · rfl
  · rfl

theorem silent_expectIdentifier : Silent expectIdentifier := by
  intro tokens
  unfold expectIdentifier
  split
  · exact ⟨List.suffix_cons _ _, rfl⟩
  · rfl

theorem silent_accept (mark : Symbol) : Silent (accept mark) := by
  intro tokens
  unfold accept
  split
  · split
    · exact ⟨List.suffix_cons _ _, rfl⟩
    · exact ⟨List.suffix_refl _, rfl⟩
  · exact ⟨List.suffix_refl _, rfl⟩

theorem silent_acceptKeyword (word : Keyword) : Silent (acceptKeyword word) := by
  intro tokens
  unfold acceptKeyword
  split
  · split
    · exact ⟨List.suffix_cons _ _, rfl⟩
    · exact ⟨List.suffix_refl _, rfl⟩
  · exact ⟨List.suffix_refl _, rfl⟩

theorem silent_sees (mark : Symbol) : Silent (sees mark) :=
  fun tokens => ⟨List.suffix_refl tokens, rfl⟩

/-- A required symbol is missing at the end of the input. -/
theorem quiet_expect_bind {mark : Symbol} {next : Unit → Reader β} :
    Quiet (expect mark >>= next) := rfl

end Reader

namespace Grammar

open Reader

variable {reader : ExprReader} {bound : Nat}

/-! ## Readers of parts -/

/-- A reader of expressions that is orderly in every context. -/
def NotesInOrder (reader : ExprReader) : Prop := ∀ context, (reader context).Orderly

theorem NotesInOrder.statementEnd (ordered : NotesInOrder reader) (build : Expr → Stmt) :
    Orderly (do
      let value ← reader .lowest
      let _ ← accept .semicolon
      return value.map build : Reader (Option Stmt)) := by
  have silentEnd (value : Option Expr) : Silent (do
      let _ ← accept .semicolon
      return value.map build : Reader (Option Stmt)) :=
    (silent_accept .semicolon).bind_silent fun _ => silent_pure _
  exact (ordered .lowest).bind (fun value => (silentEnd value).orderly)
    fun value => (silentEnd value).quiet

theorem NotesInOrder.statement (ordered : NotesInOrder reader) :
    Orderly (Grammar.statement reader) := by
  intro tokens
  unfold Grammar.statement
  split
  · next rest =>
      have orderly : Orderly (binding reader) :=
        silent_expectIdentifier.bind fun name =>
          (silent_expect .assign).bind fun _ => ordered.statementEnd (.bind name)
      exact (orderly rest).cons _
  · next rest => exact (ordered.statementEnd .returns rest).cons _
  · exact ordered.statementEnd .expression tokens

/-- One round of the loops over statements. -/
theorem NotesInOrder.statements_cons (ordered : NotesInOrder reader) {loop : Reader (List Stmt)}
    (loopOrderly : Orderly loop) (loopQuiet : Quiet loop) :
    Orderly (do
      let first ← Grammar.statement reader
      let others ← loop
      return first.toList ++ others : Reader (List Stmt)) := by
  apply ordered.statement.bind
  · intro first
    exact loopOrderly.bind_pure
  · intro first
    exact loopOrderly.bind_quiet loopQuiet fun others => (silent_pure _).quiet

theorem quiet_block : Quiet (Grammar.block reader bound) := by
  cases bound <;> rfl

theorem quiet_statements : Quiet (Grammar.statements reader bound) := by
  cases bound <;> rfl

theorem NotesInOrder.block (ordered : NotesInOrder reader) :
    Orderly (Grammar.block reader bound) := by
  induction bound with
  | zero => exact (silent_stop _).orderly
  | succ bound ih =>
      intro tokens
      unfold Grammar.block
      split
      · exact (silent_pure ([] : List Stmt) []).orderly
      · next rest => exact (silent_pure ([] : List Stmt) rest).orderly.cons _
      · exact ordered.statements_cons ih quiet_block tokens

theorem NotesInOrder.statements (ordered : NotesInOrder reader) :
    Orderly (Grammar.statements reader bound) := by
  induction bound with
  | zero => exact (silent_stop _).orderly
  | succ bound ih =>
      intro tokens
      unfold Grammar.statements
      split
      · exact (silent_pure ([] : List Stmt) []).orderly
      · exact ordered.statements_cons ih quiet_statements tokens

theorem quiet_moreElements {close : Symbol} : Quiet (moreElements reader close bound) := by
  cases bound <;> rfl

theorem NotesInOrder.element (ordered : NotesInOrder reader) {loop : Reader (List Expr)}
    (loopOrderly : Orderly loop) (loopQuiet : Quiet loop) :
    Orderly (do
      let next ← reader .lowest
      let others ← loop
      return next.toList ++ others : Reader (List Expr)) := by
  apply (ordered .lowest).bind
  · intro next
    exact loopOrderly.bind_pure
  · intro next
    exact loopOrderly.bind_quiet loopQuiet fun others => (silent_pure _).quiet

theorem NotesInOrder.moreElements (ordered : NotesInOrder reader) (close : Symbol) :
    Orderly (Grammar.moreElements reader close bound) := by
  induction bound with
  | zero => exact (silent_stop _).orderly
  | succ bound ih =>
      apply (silent_accept .comma).bind
      intro accepted
      cases accepted with
      | true => exact ordered.element ih quiet_moreElements
      | false => exact (silent_expect close).bind fun _ => (silent_pure _).orderly

theorem NotesInOrder.elements (ordered : NotesInOrder reader) (close : Symbol) :
    Orderly (Grammar.elements reader close bound) := by
  apply (silent_accept close).bind
  intro accepted
  cases accepted with
  | true => exact (silent_pure _).orderly
  | false => exact ordered.element (ordered.moreElements close) quiet_moreElements

theorem silent_pairEnd : Silent pairEnd := by
  apply (silent_sees .rightBrace).bind_silent
  intro seen
  cases seen with
  | true => exact silent_pure _
  | false => exact silent_expect .comma

theorem NotesInOrder.pairs (ordered : NotesInOrder reader) :
    Orderly (Grammar.pairs reader bound) := by
  induction bound with
  | zero => exact (silent_stop _).orderly
  | succ bound ih =>
      apply (silent_accept .rightBrace).bind
      intro accepted
      cases accepted with
      | true => exact (silent_pure _).orderly
      | false =>
          -- After a key and after a value a symbol is required, so neither is read twice at the end.
          apply (ordered .lowest).bind
          · intro key
            apply (silent_expect .colon).bind
            intro _
            apply (ordered .lowest).bind
            · intro value
              apply silent_pairEnd.bind
              intro _
              apply ih.bind
              · intro others
                cases key <;> cases value <;> exact (silent_pure _).orderly
              · intro others
                cases key <;> cases value <;> rfl
            · intro value
              rfl
          · intro key
            rfl

theorem silent_moreParameters : Silent (moreParameters bound) := by
  induction bound with
  | zero => exact silent_stop _
  | succ bound ih =>
      apply silent_expectIdentifier.bind_silent
      intro name
      apply (silent_accept .comma).bind_silent
      intro accepted
      cases accepted with
      | true => exact ih.bind_silent fun others => silent_pure _
      | false => exact (silent_expect .rightParen).bind_silent fun _ => silent_pure _

theorem silent_parameters : Silent (parameters bound) := by
  apply (silent_accept .rightParen).bind_silent
  intro accepted
  cases accepted with
  | true => exact silent_pure _
  | false => exact silent_moreParameters

theorem NotesInOrder.conditional (ordered : NotesInOrder reader) :
    Orderly (Grammar.conditional reader bound) := by
  apply (silent_expect .leftParen).bind
  intro _
  apply (ordered .lowest).bind _ fun condition => quiet_expect_bind
  intro condition
  apply (silent_expect .rightParen).bind
  intro _
  apply (silent_expect .leftBrace).bind
  intro _
  apply ordered.block.bind
  · intro consequence
    apply (silent_acceptKeyword .elseWord).bind
    intro accepted
    cases accepted with
    | true =>
        apply (silent_expect .leftBrace).bind
        intro _
        exact ordered.block.bind_pure
    | false => exact (silent_pure _).orderly
  · intro consequence
    rfl

theorem NotesInOrder.function (ordered : NotesInOrder reader) :
    Orderly (Grammar.function reader bound) := by
  apply (silent_expect .leftParen).bind
  intro _
  apply silent_parameters.bind
  intro names
  apply (silent_expect .leftBrace).bind
  intro _
  exact ordered.block.bind_pure

theorem NotesInOrder.unary (ordered : NotesInOrder reader) (op : UnaryOp) :
    Orderly (Grammar.unary reader op) :=
  (ordered .operand).bind_pure

theorem NotesInOrder.grouped (ordered : NotesInOrder reader) :
    Orderly (Grammar.grouped reader) :=
  (ordered .lowest).bind
    (fun _ => (silent_expect .rightParen).bind fun _ => (silent_pure _).orderly)
    fun _ => quiet_expect_bind

/-! ## Where issues are noted -/

/-- An issue at a token, which is then consumed. -/
theorem orderly_note {token : Token} {rest : List Token} {issue : ParseError}
    (fits : issue.Fits (token :: rest)) :
    (Reply.done (none : Option Expr) rest [issue]).Orderly (token :: rest) := by
  refine ⟨List.suffix_cons token rest, [token :: rest], .singleton fits, ?_⟩
  intro _ place member
  cases List.mem_singleton.1 member
  exact Nat.lt_succ_self _

theorem orderly_integer (numeral : String) (rest : List Token) :
    (Grammar.integer numeral rest).Orderly (.integer numeral :: rest) := by
  unfold Grammar.integer
  split
  · exact (silent_pure (some (Expr.integer numeral)) rest).orderly.cons _
  · next tooLarge => exact orderly_note ⟨⟨rest, rfl⟩, Nat.le_of_not_lt tooLarge⟩

theorem orderly_missing_end : (missing .endOfInput []).Orderly [] :=
  ⟨List.suffix_refl [], [[]], .singleton ⟨rfl, rfl⟩, fun left => absurd rfl left⟩

theorem NotesInOrder.primary (ordered : NotesInOrder reader) :
    Orderly (Grammar.primary reader bound) := by
  intro tokens
  unfold Grammar.primary
  split
  · exact orderly_missing_end
  · exact (silent_pure _ _).orderly.cons _
  · exact orderly_integer _ _
  · exact (silent_pure _ _).orderly.cons _
  · exact (silent_pure _ _).orderly.cons _
  · exact (silent_pure _ _).orderly.cons _
  · exact (ordered.conditional _).cons _
  · exact (ordered.function _).cons _
  · exact (ordered.unary .not _).cons _
  · exact (ordered.unary .negate _).cons _
  · exact (ordered.grouped _).cons _
  · next rest =>
      have orderly : Orderly (do
          return some (.array (← Grammar.elements reader .rightBracket bound)) :
            Reader (Option Expr)) :=
        (ordered.elements .rightBracket).bind_pure
      exact (orderly rest).cons _
  · next rest =>
      have orderly : Orderly (do
          return some (.dictionary (← Grammar.pairs reader bound)) : Reader (Option Expr)) :=
        ordered.pairs.bind_pure
      exact (orderly rest).cons _
  · next token rest _ _ _ _ _ _ _ _ _ _ _ _ =>
      have opensNothing : Spelling.opensExpression token.kind = false := by
        cases token with
        | keyword word => cases word <;> first | rfl | simp_all
        | symbol mark => cases mark <;> first | rfl | simp_all
        | illegal character => rfl
        | _ => simp_all
      exact orderly_note ⟨rfl, opensNothing⟩

/-! ## Expressions and programs -/

theorem quiet_continued {context : Precedence} {steps : Nat} {left : Expr} :
    Quiet (continued reader context bound steps left) := by
  cases steps with
  | zero => rfl
  | succ steps =>
      have weak : ¬ context < Precedence.ofKind (frontKind []) := Nat.not_lt_zero _
      unfold Quiet continued
      rw [if_neg weak]
      rfl

theorem NotesInOrder.continued (ordered : NotesInOrder reader) {context : Precedence}
    {steps : Nat} : ∀ left, Orderly (Grammar.continued reader context bound steps left) := by
  induction steps with
  | zero => exact fun left => (silent_stop _).orderly
  | succ steps ih =>
      intro left tokens
      unfold Grammar.continued
      split
      · split
        · have orderly : Orderly (do
              let arguments ← Grammar.elements reader .rightParen bound
              Grammar.continued reader context bound steps (.call left arguments) :
                Reader (Option Expr)) :=
            (ordered.elements .rightParen).bind (fun arguments => ih _)
              fun arguments => quiet_continued
          exact (orderly _).cons _
        · suffices orderly : Orderly _ from (orderly _).cons _
          apply (ordered .lowest).bind _ fun position => quiet_expect_bind
          intro position
          apply (silent_expect .rightBracket).bind
          intro _
          cases position with
          | none => exact (silent_pure _).orderly
          | some position => exact ih _
        · split
          · next op _ =>
              suffices orderly : Orderly _ from (orderly _).cons _
              apply (ordered op.precedence).bind
              · intro right
                cases right with
                | none => exact (silent_pure _).orderly
                | some right => exact ih _
              · intro right
                cases right with
                | none => exact (silent_pure _).quiet
                | some right => exact quiet_continued
          · exact (silent_pure _ _).orderly
        · exact (silent_pure _ _).orderly
      · exact (silent_pure _ _).orderly

theorem notesInOrder_expression (bound : Nat) : NotesInOrder (Grammar.expression bound) := by
  induction bound with
  | zero => exact fun context => (silent_stop _).orderly
  | succ bound ih =>
      intro context
      apply ih.primary.bind
      · intro left
        cases left with
        | none => exact (silent_pure _).orderly
        | some left => exact ih.continued left
      · intro left
        cases left with
        | none => exact (silent_pure _).quiet
        | some left => exact quiet_continued

theorem orderly_program (bound : Nat) : Orderly (Grammar.program bound) :=
  (notesInOrder_expression bound).statements

/-- Statements are read up to the end of the input, whatever is noted on the way. -/
theorem rest_of_statements {tokens rest : List Token} {stmts : List Stmt}
    {issues : List ParseError}
    (ended : Grammar.statements reader bound tokens = .done stmts rest issues) : rest = [] := by
  induction bound generalizing tokens stmts issues with
  | zero => cases ended
  | succ bound ih =>
      unfold Grammar.statements at ended
      split at ended
      · cases ended
        rfl
      · obtain ⟨first, middle, _, _, _, afterFirst⟩ := exists_of_bind_eq_done ended
        obtain ⟨others, last, _, _, othersRead, concluded⟩ := exists_of_bind_eq_done afterFirst
        cases concluded
        exact ih othersRead

end Grammar

/-! ## Positions -/

/-- The kind of the token at a position; after the last token stands the end of the input. -/
def kindAt (tokens : List Token) (position : Nat) : TokenKind :=
  (tokens[position]?.map Token.kind).getD .endOfInput

/-- Whether a problem that does not end the reading belongs to a position: it names the kind that
stands there, or quotes the numeral that stands there and is no 64-bit integer. -/
def ParseError.BelongsTo (tokens : List Token) (position : Nat) : ParseError → Prop
  | noExpression found =>
      position ≤ tokens.length ∧ kindAt tokens position = found ∧
        Spelling.opensExpression found = false
  | invalidInteger numeral =>
      tokens[position]? = some (.integer numeral) ∧ 2 ^ 63 - 1 < Text.numeralValue numeral
  | unexpectedToken .. => False

theorem ParseError.belongsTo_of_fits {tokens place : List Token} {issue : ParseError}
    (suffix : place <:+ tokens) (fits : issue.Fits place) :
    issue.BelongsTo tokens (tokens.length - place.length) := by
  obtain ⟨front, rfl⟩ := suffix
  have position : (front ++ place).length - place.length = front.length := by
    rw [List.length_append, Nat.add_sub_cancel]
  rw [position]
  cases issue with
  | unexpectedToken expected found => exact fits
  | noExpression found =>
      obtain ⟨kindEq, opensNothing⟩ := fits
      refine ⟨by simp, ?_, opensNothing⟩
      rw [← kindEq, kindAt, List.getElem?_append_right (Nat.le_refl _), Nat.sub_self]
      cases place <;> rfl
  | invalidInteger numeral =>
      obtain ⟨⟨rest, rfl⟩, tooLarge⟩ := fits
      refine ⟨?_, Nat.lt_of_lt_of_le (by decide) tooLarge⟩
      rw [List.getElem?_append_right (Nat.le_refl _), Nat.sub_self]
      rfl

theorem Trail.positions {tokens : List Token} {places : List (List Token)}
    {issues : List ParseError} (trail : Trail tokens places issues) :
    ∃ positions : List Nat, positions.Pairwise (· < ·) ∧
      List.Forall₂ (fun position issue => issue.BelongsTo tokens position) positions issues := by
  refine ⟨places.map fun place => tokens.length - place.length, ?_, ?_⟩
  · rw [List.pairwise_map]
    apply trail.further.imp_of_mem
    intro earlier later earlierMember laterMember further
    have inTokens := (trail.ahead earlier earlierMember).length_le
    omega
  · rw [List.forall₂_map_left_iff]
    have fits := trail.fits
    have ahead := trail.ahead
    clear trail
    induction fits with
    | nil => exact .nil
    | cons fit others ih =>
        rw [List.forall_mem_cons] at ahead
        exact .cons (ParseError.belongsTo_of_fits ahead.1 fit) (ih ahead.2)

/-- Every source that can be scanned is parsed: no bound above the number of its tokens is ever
spent.  Problems that do not end the reading belong to strictly increasing positions; beyond them
either there is no other problem and all tokens were consumed, or there is one unexpected token,
noted last, and no program. -/
theorem parse_in_order {source : String} {tokens : List Token}
    (scanned : Token.ofSource source = .ok tokens) :
    (∀ bound issues, tokens.length < bound →
      Grammar.program bound tokens ≠ .stopped .boundSpent issues) ∧
    ∃ positions recoverable,
      positions.Pairwise (· < ·) ∧
      List.Forall₂ (fun position issue => issue.BelongsTo tokens position) positions
        recoverable ∧
      ((∃ program, parse source = .ok ⟨program, recoverable⟩ ∧
          Grammar.program (tokens.length + 1) tokens = .done program.statements [] recoverable) ∨
        ∃ expected found, parse source =
          .ok ⟨⟨[]⟩, recoverable ++ [.unexpectedToken expected found]⟩) := by
  constructor
  · intro bound issues enough spent
    have leaves : (Grammar.program bound tokens).Leaves tokens.length :=
      (Grammar.settling_expression bound).statements tokens enough enough
    rw [spent] at leaves
    exact leaves rfl
  · have parsed : parse source = .ok (parseTokens tokens) := by
      unfold parse
      rw [scanned]
      rfl
    have leaves := Grammar.leaves_program tokens
    have orderly := Grammar.orderly_program (tokens.length + 1) tokens
    rw [parsed, parseTokens]
    cases ended : Grammar.program (tokens.length + 1) tokens with
    | done stmts rest issues =>
        rw [ended] at orderly
        obtain ⟨_, places, trail, _⟩ := orderly
        obtain ⟨positions, increasing, belong⟩ := trail.positions
        cases Grammar.rest_of_statements ended
        exact ⟨positions, issues, increasing, belong, .inl ⟨⟨stmts⟩, rfl, rfl⟩⟩
    | stopped reason issues =>
        rw [ended] at orderly leaves
        obtain ⟨places, trail⟩ := orderly
        obtain ⟨positions, increasing, belong⟩ := trail.positions
        cases reason with
        | unexpected expected found =>
            exact ⟨positions, issues, increasing, belong, .inr ⟨expected, found, rfl⟩⟩
        | boundSpent => exact absurd rfl leaves

/-- Three positions are left empty before a bracket is missing. -/
theorem parse_in_order_of_damaged :
    (parse "+ 99999999999999999999; [1, ) 2").toOption.map (·.errors) =
        some [.noExpression (.symbol .plus), .invalidInteger "99999999999999999999",
          .noExpression (.symbol .rightParen),
          .unexpectedToken (.symbol .rightBracket) .integer] ∧
      ∃ tokens positions recoverable,
        Token.ofSource "+ 99999999999999999999; [1, ) 2" = .ok tokens ∧
          positions.Pairwise (· < ·) ∧
          List.Forall₂ (fun position issue => ParseError.BelongsTo tokens position issue) positions
            recoverable := by
  refine ⟨by decide +kernel, ?_⟩
  have accepted : (Token.ofSource "+ 99999999999999999999; [1, ) 2").isOk = true := by
    decide +kernel
  cases scanned : Token.ofSource "+ 99999999999999999999; [1, ) 2" with
  | error failure =>
      rw [scanned] at accepted
      cases accepted
  | ok tokens =>
      obtain ⟨positions, recoverable, increasing, belong, _⟩ := (parse_in_order scanned).2
      exact ⟨tokens, positions, recoverable, rfl, increasing, belong⟩

end Scriptlet
