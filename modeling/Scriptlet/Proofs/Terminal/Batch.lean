import Scriptlet.Proofs.Terminal.Dialogue
import Scriptlet.Terminal.Batch

/-!
# A batch run is a dialogue of one line

A source text that fits on a line can be given to a dialogue or run on its own.  Each of the two
hosts sorts the outcomes and words them by itself; yet what the dialogue writes between its two
prompts is what the batch run writes in all, and the batch run succeeds, and writes to its output,
exactly if there is a value that is no error.
-/

namespace Scriptlet

/-! ## Texts as bytes -/

namespace Text

theorem encode_eq (text : String) : encode text = text.toList.flatMap String.utf8EncodeChar := by
  rw [encode, String.toUTF8_eq_toByteArray, ← String.utf8Encode_toList, List.utf8Encode,
    List.toList_data_toByteArray]

/-- What was encoded is decoded. -/
theorem decode?_encode (text : String) : decode? (encode text) = some text := by
  have valid : ByteArray.IsValidUTF8 ⟨(encode text).toArray⟩ := text.isValidUTF8
  rw [decode?, String.fromUTF8?, dif_pos valid]
  rfl

/-- A byte below 128 stands only for the character with its number. -/
theorem toNat_of_mem_utf8EncodeChar {c : Char} {byte : UInt8} (ascii : byte.toNat < 128)
    (member : byte ∈ String.utf8EncodeChar c) : c.toNat = byte.toNat := by
  have isVal : c.toNat = c.val.toNat := rfl
  rw [isVal]
  simp only [String.utf8EncodeChar] at member
  split at member
  · next low =>
      rw [List.mem_singleton.1 member, UInt8.toNat_ofNat']
      omega
  · -- All bytes of a longer encoding are marked by their highest bit.
    exfalso
    split at member
    · simp only [List.mem_cons, List.not_mem_nil, or_false] at member
      rcases member with rfl | rfl <;> rw [UInt8.toNat_ofNat'] at ascii <;> omega
    · split at member
      · simp only [List.mem_cons, List.not_mem_nil, or_false] at member
        rcases member with rfl | rfl | rfl <;> rw [UInt8.toNat_ofNat'] at ascii <;> omega
      · simp only [List.mem_cons, List.not_mem_nil, or_false] at member
        rcases member with rfl | rfl | rfl | rfl <;> rw [UInt8.toNat_ofNat'] at ascii <;> omega

section Ascii

variable {c : Char} {byte : UInt8} {text : String}

theorem eq_of_mem_utf8EncodeChar {other : Char} (ascii : byte.toNat < 128)
    (number : c.toNat = byte.toNat) (member : byte ∈ String.utf8EncodeChar other) : other = c := by
  apply Char.toNat_inj.1
  rw [toNat_of_mem_utf8EncodeChar ascii member, number]

theorem mem_of_mem_encode (ascii : byte.toNat < 128) (number : c.toNat = byte.toNat)
    (member : byte ∈ encode text) : c ∈ text.toList := by
  rw [encode_eq] at member
  obtain ⟨other, inText, inEncoding⟩ := List.mem_flatMap.1 member
  rwa [← eq_of_mem_utf8EncodeChar ascii number inEncoding]

theorem getLast?_of_getLast?_encode (ascii : byte.toNat < 128) (number : c.toNat = byte.toNat)
    (last : (encode text).getLast? = some byte) : text.toList.getLast? = some c := by
  rw [encode_eq, List.getLast?_flatMap] at last
  rw [← List.head?_reverse]
  cases reversed : text.toList.reverse with
  | nil =>
      rw [reversed] at last
      cases last
  | cons other before =>
      have ends := List.getLast?_eq_some_getLast (@String.utf8EncodeChar_ne_nil other)
      rw [reversed, List.findSome?_cons, ends] at last
      have member := List.mem_of_getLast? (ends.trans last)
      rw [List.head?_cons, eq_of_mem_utf8EncodeChar ascii number member]

end Ascii

/-- A text that is followed by a line feed is one line. -/
theorem lines_encode {text : String} (oneLine : '\n' ∉ text.toList)
    (noReturn : text.toList.getLast? ≠ some '\r') :
    lines (encode text ++ [lineFeed]) = [encode text] := by
  have noLineFeed : ∀ byte ∈ encode text, (byte == lineFeed) = false := by
    intro byte member
    rw [beq_eq_false_iff_ne]
    rintro rfl
    exact oneLine (mem_of_mem_encode (by decide) rfl member)
  have kept : withoutReturn (encode text) = encode text := by
    rw [withoutReturn, if_neg]
    intro ends
    exact noReturn (getLast?_of_getLast?_encode (by decide) rfl ends)
  have pieces : (encode text ++ [lineFeed]).splitOn 10 = [encode text, []] :=
    List.splitOnP_append_cons_of_forall_mem noLineFeed lineFeed (by decide) []
  rw [lines_eq, linesIn, pieces, linesOf_cons _ (List.cons_ne_nil _ _), kept]
  rfl

end Text

/-! ## One line -/

namespace Dialogue

/-- A dialogue over one line writes a prompt, the answer, and a prompt on which the input ends. -/
theorem transcript_of_line {settings : Settings} (quiet : settings.banner = false) (depth : Nat)
    {line : String} (oneLine : '\n' ∉ line.toList)
    (noReturn : line.toList.getLast? ≠ some '\r') :
    transcript settings depth (Text.encode line ++ [Text.lineFeed]) =
      (answer settings depth (Session.start Library.standard) line).map fun step =>
        ⟨prompt ++ step.1 ++ prompt ++ "\n", false⟩ := by
  have noOpening : opening settings = "" := by simp [opening, quiet]
  rw [transcript, Text.lines_encode oneLine noReturn, noOpening]
  simp only [continued, Text.decode?_encode]
  cases answer settings depth (Session.start Library.standard) line with
  | none => rfl
  | some step => simp [Transcript.after, String.append_assoc]

end Dialogue

/-- A text that is not blank is refused only for the errors that parsing finds in it. -/
theorem Session.ne_scan_of_run {session next : Session} {depth : Nat} {source : String}
    {outcome : Except SourceError Value} (visible : Text.allBlank source.toList = false)
    (ended : session.run depth source = some (outcome, next)) (error : ScanError) :
    outcome ≠ .error (.scan error) := by
  rintro rfl
  obtain ⟨result, parsed⟩ := Dialogue.parse_of_visible visible
  cases accepted : result.isOk <;>
    simp [Session.run, Program.ofSource, parsed, accepted] at ended

namespace Batch

/-- Whether a source text had a value that is no error. -/
def succeeds : Except SourceError Value → Bool
  | .ok value => !value.isError
  | .error _ => false

/-- A batch run reports what a dialogue would tell, as its output or as errors. -/
theorem report_eq_told (settings : Settings) {outcome : Except SourceError Value}
    (scanned : ∀ error, outcome ≠ .error (.scan error)) :
    report settings outcome =
      if succeeds outcome then .success (Dialogue.told settings.colored (some outcome))
      else .failure (Dialogue.told settings.colored (some outcome)) := by
  cases outcome with
  | ok value =>
      rw [← Dialogue.shown_eq]
      cases isError : value.isError <;> simp [report, succeeds, Dialogue.shown, isError]
  | error error =>
      cases error with
      | scan error => exact absurd rfl (scanned error)
      | parse errors =>
          rw [← Dialogue.complaint_eq]
          rfl

/-- A source text that fits on a line is answered in a dialogue, between the prompts, with what a
batch run of it writes in all.  The batch run writes to its output and succeeds if there is a value
that is no error, and writes to the error stream and fails otherwise. -/
theorem run_eq_dialogue {settings : Settings} (quiet : settings.banner = false) {depth : Nat}
    {source : String} (visible : Text.allBlank source.toList = false)
    (oneLine : '\n' ∉ source.toList) (noReturn : source.toList.getLast? ≠ some '\r')
    {outcome : Except SourceError Value} {next : Session}
    (ended : (Session.start Library.standard).run depth source = some (outcome, next)) :
    ∃ written,
      Dialogue.transcript settings depth (Text.encode source ++ [Text.lineFeed]) =
        some ⟨Dialogue.prompt ++ written ++ Dialogue.prompt ++ "\n", false⟩ ∧
      run settings depth source =
        some (if succeeds outcome then ⟨0, written, ""⟩ else ⟨1, "", written⟩) := by
  refine ⟨Dialogue.told settings.colored (some outcome), ?_, ?_⟩
  · rw [Dialogue.transcript_of_line quiet depth oneLine noReturn, Dialogue.answer_eq,
      Session.hear_of_visible visible, ended]
    rfl
  · have reported := report_eq_told settings (Session.ne_scan_of_run visible ended)
    rw [run, ended]
    exact congrArg some reported

/-- The settings of a plain host. -/
def plainSample : Settings := ⟨false, false, false, none⟩

/-- The settings of a host that uses colours and knows its user. -/
def coloredSample : Settings := ⟨true, true, false, some "ada"⟩

/-- What a host that uses colours writes about a line with two errors. -/
def complaintSample : String :=
  "\x1b[1m\x1b[31mparser error: No prefix parsing function found for PLUS\x1b[39m\x1b[0m\n" ++
    "\x1b[1m\x1b[31mparser error: No prefix parsing function found for RPAREN\x1b[39m\x1b[0m\n"

theorem run_eq_dialogue_samples :
    Dialogue.transcript plainSample 1 (Text.encode "[6 * 7, \"é\"]" ++ [Text.lineFeed]) =
        some ⟨Dialogue.prompt ++ "[42, é]\n" ++ Dialogue.prompt ++ "\n", false⟩ ∧
      run plainSample 1 "[6 * 7, \"é\"]" = some ⟨0, "[42, é]\n", ""⟩ ∧
      Dialogue.transcript coloredSample 1 (Text.encode "+ 1; )" ++ [Text.lineFeed]) =
        some ⟨Dialogue.prompt ++ complaintSample ++ Dialogue.prompt ++ "\n", false⟩ ∧
      run coloredSample 1 "+ 1; )" = some ⟨1, "", complaintSample⟩ := by
  have shown : run plainSample 1 "[6 * 7, \"é\"]" = some ⟨0, "[42, é]\n", ""⟩ := by decide +kernel
  have complained : run coloredSample 1 "+ 1; )" = some ⟨1, "", complaintSample⟩ := by
    decide +kernel
  have succeeded : ((Session.start Library.standard).run 1 "[6 * 7, \"é\"]").map
      (fun step => succeeds step.1) = some true := by decide +kernel
  have failed : ((Session.start Library.standard).run 1 "+ 1; )").map
      (fun step => succeeds step.1) = some false := by decide +kernel
  obtain ⟨⟨value, next⟩, ended, isValue⟩ := Option.map_eq_some_iff.1 succeeded
  obtain ⟨⟨refusal, same⟩, refused, isRefusal⟩ := Option.map_eq_some_iff.1 failed
  obtain ⟨written, told, ran⟩ := @run_eq_dialogue plainSample rfl 1 _ (by decide) (by decide)
    (by decide) _ _ ended
  obtain ⟨noted, warned, ranToo⟩ := @run_eq_dialogue coloredSample rfl 1 _ (by decide) (by decide)
    (by decide) _ _ refused
  dsimp only at isValue isRefusal
  rw [shown, isValue] at ran
  rw [complained, isRefusal] at ranToo
  cases ran
  cases ranToo
  exact ⟨told, shown, warned, complained⟩

end Batch

end Scriptlet
