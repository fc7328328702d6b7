import Mathlib.Data.List.ReduceOption
import Scriptlet.Proofs.Token.Layout
import Scriptlet.Terminal.Dialogue

/-!
# A dialogue is a session

A dialogue reads its input line by line, and checks, parses and runs each line by itself.  What it
writes is what a session says that is given the same lines as sources, with a prompt before each of
them: blank lines are passed over, and the first line that is not text ends the dialogue.
-/

namespace Scriptlet

/-! ## Lines -/

namespace Text

/-- The bytes of a text in UTF-8. -/
def encode (text : String) : List UInt8 := text.toUTF8.data.toList

/-- A line without the carriage return, byte 13, that it may end with. -/
def withoutReturn (line : List UInt8) : List UInt8 :=
  if line.getLast? = some 13 then line.dropLast else line

/-- The lines that are made of what stands between line feeds: what stands before a line feed is a
line, without a carriage return at its end, and what stands after the last one is a line if it is
not empty. -/
def linesOf (pieces : List (List UInt8)) : List (List UInt8) :=
  pieces.dropLast.map withoutReturn ++ pieces.getLast?.toList.filter (!·.isEmpty)

/-- The lines of a stream of bytes, cut at the line feeds, byte 10. -/
def linesIn (bytes : List UInt8) : List (List UInt8) := linesOf (bytes.splitOn 10)

theorem linesOf_cons (piece : List UInt8) {pieces : List (List UInt8)} (nonempty : pieces ≠ []) :
    linesOf (piece :: pieces) = withoutReturn piece :: linesOf pieces := by
  cases pieces with
  | nil => exact absurd rfl nonempty
  | cons next pieces => simp [linesOf]

theorem reverse_dropReturn (current : List UInt8) :
    (dropReturn current).reverse = withoutReturn current.reverse := by
  cases current with
  | nil => rfl
  | cons byte rest =>
      by_cases isReturn : byte = 13 <;> simp [dropReturn, carriageReturn, withoutReturn, isReturn]

theorem linesAfter_eq (current bytes : List UInt8) :
    linesAfter current bytes =
      linesOf ((bytes.splitOn lineFeed).modifyHead (current.reverse ++ ·)) := by
  induction bytes generalizing current with
  | nil => cases current <;> simp [linesAfter, linesOf]
  | cons byte rest ih =>
      have nonempty := List.splitOn_ne_nil lineFeed rest
      simp only [linesAfter, List.splitOn, List.splitOnP_cons_eq_if_modifyHead, beq_iff_eq] at *
      split
      · rw [ih, reverse_dropReturn, List.modifyHead_cons, List.append_nil, linesOf_cons _ nonempty]
        exact congrArg (_ :: linesOf ·) (congrFun List.modifyHead_id _)
      · rw [ih, List.modifyHead_modifyHead]
        simp [Function.comp_def]

/-- The lines of a stream are made of what stands between its line feeds. -/
theorem lines_eq (bytes : List UInt8) : lines bytes = linesIn bytes := by
  rw [lines, linesAfter_eq]
  exact congrArg linesOf (congrFun List.modifyHead_id _)

/-- The texts of the lines before the first one that is not valid UTF-8. -/
def readable (lines : List (List UInt8)) : List String :=
  ((lines.map fun line => String.fromUTF8? ⟨line.toArray⟩).takeWhile Option.isSome).reduceOption

/-- Whether all lines are valid UTF-8. -/
def allReadable (lines : List (List UInt8)) : Bool :=
  lines.all fun line => (String.fromUTF8? ⟨line.toArray⟩).isSome

end Text

/-! ## Sessions over lines -/

namespace Session

/-- Gives a line to a session: a line of blank characters only is passed over. -/
def hear (session : Session) (depth : Nat) (line : String) :
    Option (Option (Except SourceError Value) × Session) :=
  if line.toList.all Text.isBlank then
    some (none, session)
  else
    (session.run depth line).map fun (outcome, next) => (some outcome, next)

/-- Gives lines to a session, one after the other. -/
def hearAll (depth : Nat) :
    Session → List String → Option (List (Option (Except SourceError Value)) × Session)
  | session, [] => some ([], session)
  | session, line :: rest => do
      let (outcome, next) ← session.hear depth line
      let (outcomes, last) ← hearAll depth next rest
      return (outcome :: outcomes, last)

section Hear

variable {session : Session} {depth : Nat} {line : String}

theorem hear_of_blank (blank : Text.allBlank line.toList = true) :
    session.hear depth line = some (none, session) :=
  if_pos blank

theorem hear_of_visible (visible : Text.allBlank line.toList = false) :
    session.hear depth line =
      (session.run depth line).map fun (outcome, next) => (some outcome, next) := by
  rw [Text.allBlank] at visible
  rw [hear, visible]
  rfl

end Hear

theorem eq_of_run_error {session next : Session} {depth : Nat} {source : String}
    {error : SourceError} (ended : session.run depth source = some (.error error, next)) :
    next = session := by
  unfold run at ended
  split at ended
  · cases ended
    rfl
  · obtain ⟨step, _, impossible⟩ := Option.map_eq_some_iff.1 ended
    cases impossible

end Session

namespace Dialogue

/-! ### What is to be written -/

/-- What is written before the first line is read, if anything is. -/
def heading (settings : Settings) : String :=
  match settings.banner, settings.user with
  | false, _ => ""
  | true, some user =>
      "Hello " ++ user ++ "! This is the Kestrel programming language!\n" ++
        "Feel free to type in commands!\n"
  | true, none =>
      "Hello! This is the Kestrel programming language!\n" ++ "Feel free to type in commands!\n"

/-- A message on a line of its own in the style of errors: between the codes for bold and red and
those that end them if messages are coloured, and as it is otherwise. -/
def inErrorStyle (colored : Bool) (message : String) : String :=
  match colored with
  | true => "\x1b[1m\x1b[31m" ++ message ++ "\x1b[39m\x1b[0m\n"
  | false => message ++ "\n"

/-- What is to be written after a line has been given to a session: nothing for a blank line, the
text of a value, or each problem in order.  A line never fails to be scanned, so nothing is said
about that. -/
def told (colored : Bool) : Option (Except SourceError Value) → String
  | none => ""
  | some (.ok (.error message)) => inErrorStyle colored ("ERROR: " ++ message)
  | some (.ok value) => value.inspect ++ "\n"
  | some (.error (.parse errors)) =>
      String.join (errors.map fun error => inErrorStyle colored ("parser error: " ++ error.message))
  | some (.error (.scan _)) => ""

theorem opening_eq (settings : Settings) : opening settings = heading settings := by
  unfold opening heading greeting
  cases settings.banner with
  | false => rfl
  | true => cases settings.user <;> simp [String.append_assoc]

theorem errorLine_eq (settings : Settings) (message : String) :
    settings.errorLine message = inErrorStyle settings.colored message := by
  unfold Settings.errorLine Settings.errorText inErrorStyle
  cases settings.colored <;> simp [String.append_assoc]

/-- A value is shown as its text, an error in the style of errors. -/
theorem shown_eq (settings : Settings) (value : Value) :
    shown settings value = told settings.colored (some (.ok value)) := by
  cases value with
  | error message => exact errorLine_eq settings _
  | _ => rfl

/-- The problems of a line are written one a line. -/
theorem complaint_eq (settings : Settings) (errors : List ParseError) :
    complaint settings errors = told settings.colored (some (.error (.parse errors))) := by
  simp only [complaint, problem, told, errorLine_eq]

/-! ### One line after the other -/

theorem parse_of_visible {line : String} (visible : Text.allBlank line.toList = false) :
    ∃ result, parse line = .ok result := by
  refine ⟨parseTokens (Token.scan line.toList), ?_⟩
  rw [parse, Token.ofSource, visible]
  rfl

/-- One line is answered with what a session says about it. -/
theorem answer_eq (settings : Settings) (depth : Nat) (session : Session) (line : String) :
    answer settings depth session line =
      (session.hear depth line).map fun step => (told settings.colored step.1, step.2) := by
  unfold answer
  cases blank : Text.allBlank line.toList with
  | true =>
      rw [Session.hear_of_blank blank]
      rfl
  | false =>
      obtain ⟨result, parsed⟩ := parse_of_visible blank
      rw [Session.hear_of_visible blank]
      cases accepted : result.isOk with
      | true =>
          simp [Session.run, Program.ofSource, parsed, accepted, shown_eq, Function.comp_def]
      | false => simp [Session.run, Program.ofSource, parsed, accepted, complaint_eq]

/-- The dialogue over the remaining lines writes a prompt and what the session says for each line
that is text, up to the end or to the first line that is not. -/
theorem continued_eq (settings : Settings) (depth : Nat) (session : Session)
    (lines : List (List UInt8)) :
    continued settings depth session lines =
      (session.hearAll depth (Text.readable lines)).map fun step =>
        { output := String.join (step.1.map fun outcome =>
              ">> " ++ told settings.colored outcome) ++
            ">> " ++ (if Text.allReadable lines then "\n" else "")
          undecodable := !Text.allReadable lines } := by
  induction lines generalizing session with
  | nil => rfl
  | cons line rest ih =>
      cases decoded : Text.decode? line with
      | none =>
          have unreadable : String.fromUTF8? ⟨line.toArray⟩ = none := decoded
          simp [continued, prompt, Text.readable, Text.allReadable, Session.hearAll, decoded,
            unreadable]
      | some text =>
          have valid : String.fromUTF8? ⟨line.toArray⟩ = some text := decoded
          have readable : Text.readable (line :: rest) = text :: Text.readable rest := by
            simp [Text.readable, valid]
          have allReadable : Text.allReadable (line :: rest) = Text.allReadable rest := by
            simp [Text.allReadable, valid]
          rw [readable, allReadable]
          simp only [continued, decoded, Session.hearAll, answer_eq, ih]
          cases session.hear depth text with
          | none => rfl
          | some step =>
              obtain ⟨outcome, next⟩ := step
              simp only [Option.map_some, Option.bind_eq_bind, Option.bind_some]
              cases next.hearAll depth (Text.readable rest) with
              | none => rfl
              | some others => simp [Transcript.after, prompt, String.append_assoc]

/-- A dialogue writes the heading, then for each line a prompt and what a session says about it, and
a last prompt; the line feed at the end is missing when a line is not text, and neither that line
nor any after it is given to the session.  No line fails to be scanned, and a line with problems
leaves the session as it is. -/
theorem transcript_eq_session (settings : Settings) (depth : Nat) (input : List UInt8) :
    transcript settings depth input =
        ((Session.start Library.standard).hearAll depth
          (Text.readable (Text.linesIn input))).map (fun step =>
            { output := heading settings ++
                String.join (step.1.map fun outcome => ">> " ++ told settings.colored outcome) ++
                ">> " ++ (if Text.allReadable (Text.linesIn input) then "\n" else "")
              undecodable := !Text.allReadable (Text.linesIn input) }) ∧
      (∀ line : String, (∀ c ∈ line.toList, Text.isBlank c = true) ∨
        ∃ result, parse line = .ok result) ∧
      ∀ (session : Session) (line : String) (errors : List ParseError) (next : Session),
        session.run depth line = some (.error (.parse errors), next) → next = session := by
  refine ⟨?_, ?_, fun session line errors next ended => Session.eq_of_run_error ended⟩
  · rw [transcript, continued_eq, Text.lines_eq]
    simp only [Option.bind_eq_bind, Option.bind_map]
    cases (Session.start Library.standard).hearAll depth (Text.readable (Text.linesIn input)) with
    | none => rfl
    | some step => simp [Transcript.after, opening_eq, String.append_assoc]
  · intro line
    cases blank : Text.allBlank line.toList with
    | true => exact .inl (List.all_eq_true.1 blank)
    | false => exact .inr (parse_of_visible blank)

/-- The settings of a host that greets its user and uses colours. -/
def greetedSample : Settings := ⟨true, false, true, some "ada"⟩

/-- Seven lines: a binding, blank characters, a value, a runtime error, a binding with two problems
behind it, a function, and a name without a line feed. -/
def sevenLines : List UInt8 :=
  Text.encode ("let x = 40;\r\n" ++ "\u3000\t\n" ++ "[x + 2, \"é\"]\n" ++ "x + true\n" ++
    "let x = 1; + 2; )\n" ++ "fn(a) \x7b a \x7d\r\n" ++ "x")

/-- Two lines with a byte between them that is no text. -/
def brokenSample : List UInt8 := Text.encode "let y = 1\n" ++ [255, 10] ++ Text.encode "y\n"

theorem transcript_eq_session_samples :
    transcript greetedSample 1 sevenLines =
        some
          { output :=
              "Hello ada! This is the Kestrel programming language!\n" ++
              "Feel free to type in commands!\n" ++
              ">> null\n" ++
              ">> " ++
              ">> [42, é]\n" ++
              ">> \x1b[1m\x1b[31mERROR: Type mismatch: INTEGER + BOOLEAN\x1b[39m\x1b[0m\n" ++
              ">> \x1b[1m\x1b[31mparser error: No prefix parsing function found for PLUS" ++
              "\x1b[39m\x1b[0m\n" ++
              "\x1b[1m\x1b[31mparser error: No prefix parsing function found for RPAREN" ++
              "\x1b[39m\x1b[0m\n" ++
              ">> fn(a) \x7b\na\n\x7d\n" ++
              ">> 40\n" ++
              ">> \n"
            undecodable := false } ∧
      transcript ⟨false, false, false, none⟩ 1 brokenSample =
        some ⟨">> null\n" ++ ">> ", true⟩ :=
  ⟨(transcript_eq_session greetedSample 1 sevenLines).1.trans (by decide +kernel),
    (transcript_eq_session _ 1 brokenSample).1.trans (by decide +kernel)⟩

end Dialogue

end Scriptlet
