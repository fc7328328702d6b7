import Scriptlet.Proofs.Evaluate.Interruption
import Scriptlet.Proofs.Parse.Concatenation
import Scriptlet.Session

/-!
# A source fed in pieces

A session can be given a source at once or in two pieces.  Where the first piece ends with a
semicolon and closes every brace it opens, both ways read the same statements.  They also run the
same statements, unless the first piece is interrupted on its top level, by an error or by a return:
then a source given at once ends there, while in pieces the second one would still be run.
-/

namespace Scriptlet

namespace Session

open Evaluate Activation

variable {session : Session} {depth : Nat}

/-- The run of a program ends without an error, and no return is left to the program itself. -/
structure RunsThrough (session : Session) (depth : Nat) (program : Program) : Prop where
  ends : ∃ value next, session.runProgram depth program = some (value, next) ∧
    value.isError = false
  noReturn : ∀ activation : Activation,
    Owns session.library ⟨.program session.root program, depth, session.store⟩ activation →
      ∀ value after, activation.run session.library ≠ some (.returned value, after)

/-- What statements in the root scope end with, before a pending return is answered. -/
def outcome (session : Session) (depth : Nat) (stmts : List Stmt) : Option (Value × Store) :=
  Evaluate.block session.library (applyWithin session.library depth) session.root .null stmts
    session.store

theorem runProgram_eq (program : Program) :
    session.runProgram depth program = (session.outcome depth program.statements).map fun step =>
      (step.1.settled, { session with store := step.2 }) := by
  change Option.map _ ((session.outcome depth program.statements).bind _) = _
  cases session.outcome depth program.statements <;> rfl

/-- A program runs through when its statements hand on what they end with. -/
theorem runsThrough_iff {program : Program} :
    session.RunsThrough depth program ↔ ∃ value after,
      session.outcome depth program.statements = some (value, after) ∧
        value.interrupts = false := by
  constructor
  · rintro ⟨⟨value, next, ended, noError⟩, noReturn⟩
    rw [runProgram_eq, Option.map_eq_some_iff] at ended
    obtain ⟨⟨result, after⟩, blockEnded, settled⟩ := ended
    cases settled
    refine ⟨result, after, blockEnded, ?_⟩
    cases interrupts : result.interrupts with
    | false => rfl
    | true =>
        obtain ⟨front, stmt, back, _, middle, split, frontEnded, frontPassed, run⟩ :=
          exists_statement_of_block rfl interrupts blockEnded
        cases result with
        | error message => cases noError
        | returned value =>
            obtain ⟨stmts⟩ := program
            cases split
            exact absurd run (noReturn ⟨.statement session.root stmt, depth, middle⟩
              ⟨rfl, _, .topLevel ⟨frontEnded, frontPassed⟩, .refl⟩ value after)
        | _ => cases interrupts
  · rintro ⟨value, after, ended, passed⟩
    constructor
    · refine ⟨value.settled, { session with store := after }, ?_, ?_⟩
      · rw [runProgram_eq, ended]
        rfl
      · cases value <;> first | rfl | cases passed
    · rintro activation ⟨_, child, calls, inside⟩ returned last activationEnded
      have childEnded := inside.run_of_returned activationEnded
      cases calls with
      | @topLevel _ _ _ front stmt back _ _ frontPassed =>
          have awaits : Run.Awaits _ id (session.outcome depth (front ++ stmt :: back)) :=
            awaits_statement frontPassed.1 frontPassed.2
          cases ended.symm.trans (awaits.interrupted childEnded rfl)
          cases passed

/-- A program in two parts is run part by part, up to the first that does not run through. -/
theorem runProgram_append (session : Session) (depth : Nat) (front : List Stmt) {back : List Stmt}
    (nonempty : back ≠ []) :
    (session.RunsThrough depth ⟨front⟩ →
      session.runProgram depth ⟨front ++ back⟩ =
        (session.runProgram depth ⟨front⟩).bind fun step => step.2.runProgram depth ⟨back⟩) ∧
    (¬ session.RunsThrough depth ⟨front⟩ →
      session.runProgram depth ⟨front ++ back⟩ = session.runProgram depth ⟨front⟩) := by
  have joined : session.outcome depth (front ++ back) = (session.outcome depth front).bind _ :=
    congrFun (block_append rfl front back) session.store
  simp only [runsThrough_iff, runProgram_eq, joined]
  cases session.outcome depth front with
  | none => exact ⟨fun _ => rfl, fun _ => rfl⟩
  | some step =>
      obtain ⟨value, after⟩ := step
      cases interrupts : value.interrupts with
      | true => simp [interrupts]
      | false =>
          constructor
          · intro _
            -- The second part does not see the value that the first one ends with.
            cases back with
            | nil => exact absurd rfl nonempty
            | cons stmt back => simp [interrupts]; rfl
          · intro interrupted
            exact absurd ⟨value, after, rfl, interrupts⟩ interrupted

theorem run_eq_of_parse {source : String} {result : ParseResult}
    (parsed : parse source = .ok result) (noErrors : result.errors = []) (session : Session)
    (depth : Nat) :
    session.run depth source =
      (session.runProgram depth result.program).map fun step => (.ok step.1, step.2) := by
  have accepted : Program.ofSource source = .ok result.program := by
    simp [Program.ofSource, parsed, ParseResult.isOk, noErrors]
  rw [run, accepted]

/-- Let a source parse without errors, end with a semicolon and close every brace that it opens.
Then whatever source follows it has the errors and, unless one of them is fatal, the statements that
it has alone.  If there are no errors, a session that is given both at once ends like one that is
given them one after the other, as long as the first runs through; else it ends like one that is
given the first alone. -/
theorem run_append {first second : String} {tokens : List Token} {front : ParseResult}
    (scanned : Token.ofSource first = .ok tokens) (parsed : parse first = .ok front)
    (noErrors : front.errors = []) (ends : tokens.getLast? = some (.symbol .semicolon))
    (balanced : tokens.count (.symbol .leftBrace) = tokens.count (.symbol .rightBrace))
    (visible : ∃ c ∈ second.toList, Text.isBlank c = false) :
    ∃ back whole, parse second = .ok back ∧ parse (first ++ second) = .ok whole ∧
      whole.errors = back.errors ∧
      ((∀ error ∈ back.errors, error.isFatal = false) →
        whole.program.statements = front.program.statements ++ back.program.statements) ∧
      (back.errors = [] → ∀ (session : Session) (depth : Nat),
        (session.RunsThrough depth front.program →
          session.run depth (first ++ second) =
            (session.run depth first).bind fun step => step.2.run depth second) ∧
        (¬ session.RunsThrough depth front.program →
          session.run depth (first ++ second) = session.run depth first)) := by
  have visible : Text.allBlank second.toList = false := List.all_eq_false.2 (by simpa using visible)
  obtain ⟨back, whole, secondParsed, wholeParsed, sameErrors, joined⟩ :=
    parse_append scanned parsed noErrors ends balanced visible
  refine ⟨back, whole, secondParsed, wholeParsed, sameErrors, joined, ?_⟩
  intro backNoErrors session depth
  have nonempty := (spelledBy_of_parse secondParsed backNoErrors).1
  have statements := joined (by simp [backNoErrors])
  have wholeProgram : whole.program = ⟨front.program.statements ++ back.program.statements⟩ :=
    congrArg Program.mk statements
  simp only [run_eq_of_parse parsed noErrors, run_eq_of_parse secondParsed backNoErrors,
    run_eq_of_parse wholeParsed (sameErrors.trans backNoErrors), wholeProgram]
  obtain ⟨through, interrupted⟩ :=
    runProgram_append session depth front.program.statements nonempty
  constructor
  · intro runsThrough
    rw [through runsThrough]
    cases session.runProgram depth front.program <;> rfl
  · intro notThrough
    rw [interrupted notThrough]

theorem run_append_samples :
    (start Library.standard).run 0 ("let x = 1;" ++ "x") =
        ((start Library.standard).run 0 "let x = 1;").bind (fun step => step.2.run 0 "x") ∧
      (start Library.standard).run 0 ("return 2;" ++ "x") =
        (start Library.standard).run 0 "return 2;" := by
  have scanned {source : String} {tokens : List Token}
      (visible : Text.allBlank source.toList = false) (found : Token.scan source.toList = tokens) :
      Token.ofSource source = .ok tokens := by
    rw [Token.ofSource, visible, found]
    rfl
  have parsed {source : String} {tokens : List Token} (scanned : Token.ofSource source = .ok tokens) :
      parse source = .ok (parseTokens tokens) := by
    rw [parse, scanned]
    rfl
  have second : parse "x" = .ok (parseTokens [.identifier "x"]) :=
    parsed (scanned (by decide) (by decide +kernel))
  have visible : ∃ c ∈ "x".toList, Text.isBlank c = false := ⟨'x', by decide, by decide⟩
  constructor
  · have first : Token.ofSource "let x = 1;" = .ok [.keyword .letWord, .identifier "x",
        .symbol .assign, .integer "1", .symbol .semicolon] :=
      scanned (by decide) (by decide +kernel)
    obtain ⟨_, _, found, _, _, _, runs⟩ := run_append first (parsed first) rfl rfl rfl visible
    cases second.symm.trans found
    exact (runs rfl _ _).1 (runsThrough_iff.2 ⟨.null, _, rfl, rfl⟩)
  · have first : Token.ofSource "return 2;" =
        .ok [.keyword .returnWord, .integer "2", .symbol .semicolon] :=
      scanned (by decide) (by decide +kernel)
    obtain ⟨_, _, found, _, _, _, runs⟩ := run_append first (parsed first) rfl rfl rfl visible
    cases second.symm.trans found
    refine (runs rfl _ _).2 ?_
    rw [runsThrough_iff]
    rintro ⟨value, after, ended, passed⟩
    cases ended
    cases passed

end Session

end Scriptlet
