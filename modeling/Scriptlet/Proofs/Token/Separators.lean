import Mathlib.Data.List.Chain
import Scriptlet.Proofs.Token.Layout

/-!
# Where separators are needed

Any list of tokens that scanning can find at all is found again in every text that writes them one
after another, whatever separators stand around them, provided that no two of them run together.
Only three sorts of neighbours do: two words, two numerals, and an equals sign after `=` or `!`.
Between these a separator is needed; between all others it may be left out.
-/

namespace Scriptlet

namespace Token

variable {token next : Token} {tokens : List Token} {rest : List Char}

/-! ## Written tokens -/

/-- Tokens one after another, each after its separators, and the separators at the end. -/
def write : List (List Char × Token) → List Char → List Char
  | [], last => last
  | (gap, token) :: parts, last => gap ++ (token.spelling ++ write parts last)

/-- Whether a token is a word: a name or a reserved word. -/
def isWord : Token → Bool
  | identifier _ => true
  | keyword _ => true
  | _ => false

/-- Whether two tokens become one, or other ones, when nothing stands between them. -/
def runsInto : Token → Token → Bool
  | identifier _, next => next.isWord
  | keyword _, next => next.isWord
  | integer _, next => next.kind == .integer
  | symbol .assign, next => next == symbol .assign || next == symbol .equal
  | symbol .bang, next => next == symbol .assign || next == symbol .equal
  | _, _ => false

/-- Two tokens written one after the other do not run together, or a separator keeps them apart. -/
def Apart (part next : List Char × Token) : Prop := next.1 = [] → part.2.runsInto next.2 = false

instance (part next : List Char × Token) : Decidable (Apart part next) :=
  inferInstanceAs (Decidable (next.1 = [] → part.2.runsInto next.2 = false))

/-! ## A token and the text after it -/

/-- A run of characters of one class that the text goes on with is cut off later. -/
theorem length_lt_takeWhile {p : Char → Bool} {run : List Char} (inClass : run.all p = true)
    (goesOn : rest.head?.any p = true) : run.length < ((run ++ rest).takeWhile p).length := by
  rw [List.all_eq_true] at inClass
  rw [List.takeWhile_append_of_pos inClass, List.length_append]
  cases rest with
  | nil => cases goesOn
  | cons c others =>
      have first : p c = true := goesOn
      rw [List.takeWhile_cons_of_pos first, List.length_cons]
      omega

theorem scan_numeral_ne {numeral : String} (isNumeral : isNumeral numeral = true)
    (goesOn : rest.head?.any Char.isDigit = true) :
    scan (numeral.toList ++ rest) ≠ .integer numeral :: tokens := by
  intro read
  rw [Token.isNumeral, Bool.and_eq_true] at isNumeral
  obtain ⟨nonempty, digits⟩ := isNumeral
  cases spelled : numeral.toList with
  | nil => simp [spelled] at nonempty
  | cons digit others =>
      rw [spelled, List.all_cons, Bool.and_eq_true] at digits
      rw [spelled, List.cons_append, scan_digit digits.1, List.cons.injEq, Token.integer.injEq]
        at read
      have longer := length_lt_takeWhile digits.2 goesOn
      have same := congrArg String.toList read.1
      rw [String.toList_ofList, spelled, List.cons.injEq] at same
      rw [same.2] at longer
      exact Nat.lt_irrefl _ longer

theorem scan_word_ne {word : String} (nonempty : (!word.toList.isEmpty) = true)
    (wordChars : word.toList.all isWordChar = true) (literal : token.literal = word)
    (goesOn : rest.head?.any isWordChar = true) :
    scan (word.toList ++ rest) ≠ token :: tokens := by
  intro read
  cases spelled : word.toList with
  | nil => simp [spelled] at nonempty
  | cons c others =>
      rw [spelled, List.all_cons, Bool.and_eq_true] at wordChars
      rw [spelled, List.cons_append, scan_wordChar wordChars.1, List.cons.injEq] at read
      have longer := length_lt_takeWhile wordChars.2 goesOn
      have same := congrArg (String.toList ∘ Token.literal) read.1
      rw [Function.comp, Function.comp, literal_ofWord, String.toList_ofList, literal, spelled,
        List.cons.injEq] at same
      rw [same.2] at longer
      exact Nat.lt_irrefl _ longer

/-- A token is not found at the front of a text that goes on with what the token takes. -/
theorem scan_spelling_ne (wellFormed : token.isWellFormed = true)
    (goesOn : token.endsBefore rest = false) : scan (token.spelling ++ rest) ≠ token :: tokens := by
  cases token with
  | illegal | string => cases goesOn
  | integer numeral => exact scan_numeral_ne wellFormed (by simpa [endsBefore] using goesOn)
  | identifier name =>
      rw [isWellFormed, isName, Bool.and_eq_true, Bool.and_eq_true] at wellFormed
      exact scan_word_ne wellFormed.1.1 wellFormed.1.2 rfl (by simpa [endsBefore] using goesOn)
  | keyword word =>
      have isWord := isWord_text word
      exact scan_word_ne isWord.1 isWord.2 rfl (by simpa [endsBefore] using goesOn)
  | symbol mark =>
      cases mark with
      | assign | bang =>
          have front : rest.head? = some '=' := by simpa [endsBefore] using goesOn
          obtain ⟨others, rfl⟩ := List.head?_eq_some_iff.1 front
          intro read
          rw [spelling, Symbol.spelling, List.singleton_append, scan_mark (by decide)] at read
          cases read
      | _ => cases goesOn

theorem scan_spelling_iff (wellFormed : token.isWellFormed = true) :
    scan (token.spelling ++ rest) = token :: tokens ↔
      token.endsBefore rest = true ∧ scan rest = tokens := by
  constructor
  · intro read
    have ends : token.endsBefore rest = true := by
      rw [← Bool.not_eq_false]
      intro goesOn
      exact scan_spelling_ne wellFormed goesOn read
    rw [scan_spelling wellFormed ends, List.cons.injEq] at read
    exact ⟨ends, read.2⟩
  · rintro ⟨ends, rfl⟩
    exact scan_spelling wellFormed ends

/-! ## Two tokens -/

/-- The first character of a word is a word character and nothing else. -/
theorem front_of_word {c : Char} {others : List Char} {word : String}
    (spelled : word.toList = c :: others) (wordChars : word.toList.all isWordChar = true) :
    isWordChar c = true ∧ c.isDigit = false ∧ (c == '=') = false := by
  rw [spelled, List.all_cons, Bool.and_eq_true] at wordChars
  have notEquals : c ≠ '=' := by
    rintro rfl
    exact absurd wordChars.1 (by decide)
  exact ⟨wordChars.1, not_isDigit_of_isWordChar wordChars.1, beq_eq_false_iff_ne.2 notEquals⟩

/-- What a token begins with tells whether it is a word, a numeral or an equals sign. -/
theorem exists_front (wellFormed : token.isWellFormed = true) :
    ∃ c others, token.spelling = c :: others ∧
      isWordChar c = token.isWord ∧ c.isDigit = (token.kind == .integer) ∧
        (c == '=') = (token == symbol .assign || token == symbol .equal) := by
  cases token with
  | illegal c =>
      simp only [isWellFormed, isMark, Bool.and_eq_true, Bool.not_eq_true',
        Option.isNone_iff_eq_none] at wellFormed
      obtain ⟨⟨⟨⟨_, notDigit⟩, notWordChar⟩, _⟩, noSymbol⟩ := wellFormed
      have notEquals : c ≠ '=' := by
        rintro rfl
        exact absurd noSymbol (by decide)
      exact ⟨c, [], rfl, notWordChar, notDigit, beq_eq_false_iff_ne.2 notEquals⟩
  | identifier name =>
      rw [isWellFormed, isName, Bool.and_eq_true, Bool.and_eq_true] at wellFormed
      cases spelled : name.toList with
      | nil => simp [spelled] at wellFormed
      | cons c others => exact ⟨c, others, spelled, front_of_word spelled wellFormed.1.2⟩
  | integer numeral =>
      rw [isWellFormed, isNumeral, Bool.and_eq_true] at wellFormed
      cases spelled : numeral.toList with
      | nil => simp [spelled] at wellFormed
      | cons c others =>
          have digits := wellFormed.2
          rw [spelled, List.all_cons, Bool.and_eq_true] at digits
          have notWordChar : isWordChar c = false := by
            rw [Bool.eq_false_iff]
            intro wordChar
            rw [not_isDigit_of_isWordChar wordChar] at digits
            cases digits.1
          have notEquals : c ≠ '=' := by
            rintro rfl
            exact absurd digits.1 (by decide)
          exact ⟨c, others, spelled, notWordChar, digits.1, beq_eq_false_iff_ne.2 notEquals⟩
  | string text => exact ⟨'"', _, rfl, rfl, rfl, rfl⟩
  | keyword word =>
      obtain ⟨nonempty, wordChars⟩ := isWord_text word
      cases spelled : word.text.toList with
      | nil => simp [spelled] at nonempty
      | cons c others => exact ⟨c, others, spelled, front_of_word spelled wordChars⟩
  | symbol mark => cases mark <;> exact ⟨_, _, rfl, rfl, rfl, rfl⟩

/-- Whether a token ends before another one depends on what the other one is, not on its text. -/
theorem endsBefore_spelling (wellFormed : next.isWellFormed = true) :
    token.endsBefore (next.spelling ++ rest) = !token.runsInto next := by
  obtain ⟨c, others, spelled, wordChar, digit, equals⟩ := exists_front wellFormed
  rw [spelled, List.cons_append]
  cases token with
  | illegal | string => rfl
  | identifier | keyword => exact congrArg not wordChar
  | integer => exact congrArg not digit
  | symbol mark =>
      cases mark with
      | assign | bang => exact congrArg not equals
      | _ => rfl

theorem endsBefore_write_iff {gap : List Char} (separators : gap.all Char.isWhitespace = true)
    (wellFormed : next.isWellFormed = true) :
    token.endsBefore (gap ++ (next.spelling ++ rest)) = true ↔
      (gap = [] → token.runsInto next = false) := by
  cases gap with
  | nil =>
      rw [List.nil_append, endsBefore_spelling wellFormed, Bool.not_eq_true']
      exact ⟨fun apart _ => apart, fun apart => apart rfl⟩
  | cons c gap =>
      rw [List.all_cons, Bool.and_eq_true] at separators
      exact ⟨nofun, fun _ => endsBefore_of_separator token separators.1⟩

/-! ## All tokens -/

/-- Written tokens are scanned as they are exactly if no two of them run together. -/
theorem scan_write_iff {parts : List (List Char × Token)} {last : List Char}
    (separators : ∀ part ∈ parts, part.1.all Char.isWhitespace = true)
    (lastSeparators : last.all Char.isWhitespace = true)
    (wellFormed : ∀ part ∈ parts, part.2.isWellFormed = true) :
    scan (write parts last) = parts.map Prod.snd ↔ parts.IsChain Apart := by
  induction parts with
  | nil =>
      have read : scan (last ++ []) = scan [] := scan_separators lastSeparators
      rw [List.append_nil, scan] at read
      exact ⟨fun _ => .nil, fun _ => read⟩
  | cons part parts ih =>
      obtain ⟨gap, token⟩ := part
      rw [List.forall_mem_cons] at separators wellFormed
      rw [write, scan_separators separators.1, List.map_cons, scan_spelling_iff wellFormed.1,
        ih separators.2 wellFormed.2]
      cases parts with
      | nil =>
          have ends : token.endsBefore last = true := by
            cases last with
            | nil => exact endsBefore_nil token
            | cons c gap =>
                rw [List.all_cons, Bool.and_eq_true] at lastSeparators
                exact endsBefore_of_separator token lastSeparators.1
          exact ⟨fun _ => .singleton _, fun _ => ⟨ends, .nil⟩⟩
      | cons next parts =>
          rw [List.forall_mem_cons] at separators wellFormed
          rw [write, endsBefore_write_iff separators.2.1 wellFormed.2.1, List.isChain_cons_cons]
          rfl

/-- Tokens that can be scanned at all, written one after another with any separators before, between
and after them: unless the text is blank, it is read as just these tokens if and only if a separator
stands between any two neighbours that would run together. -/
theorem ofSource_write_iff {parts : List (List Char × Token)} {last : List Char}
    (separators : ∀ part ∈ parts, part.1.all Char.isWhitespace = true)
    (lastSeparators : last.all Char.isWhitespace = true)
    (wellFormed : ∀ part ∈ parts, part.2.isWellFormed = true)
    (notBlank : Text.allBlank (write parts last) = false) :
    ofSource (String.ofList (write parts last)) = .ok (parts.map Prod.snd) ↔
      parts.IsChain Apart := by
  have scanned : ofSource (String.ofList (write parts last)) = .ok (scan (write parts last)) := by
    rw [ofSource, String.toList_ofList, notBlank]
    rfl
  rw [scanned, Except.ok.injEq, scan_write_iff separators lastSeparators wellFormed]

/-- Tokens of every sort, most of them without a separator. -/
def writtenSample : List (List Char × Token) :=
  [([], .symbol .bang), ([], .symbol .notEqual), ([], .symbol .assign), (['\t'], .symbol .equal),
    ([], .keyword .letWord), (['\r', '\n'], .identifier "x"), ([], .integer "007"),
    ([], .identifier "_y"), ([], .illegal '\u00A0'), ([], .string "a == 1"), ([], .string ""),
    ([], .integer "1"), ([' '], .integer "2"), ([], .symbol .equal), ([], .symbol .assign)]

theorem ofSource_write_iff_sample :
    ofSource (String.ofList (write writtenSample [' '])) = .ok (writtenSample.map Prod.snd) ∧
      ofSource "ab" ≠ .ok [.identifier "a", .identifier "b"] := by
  have written := @ofSource_write_iff writtenSample [' '] (by decide) (by decide) (by decide)
    (by decide)
  have touching := @ofSource_write_iff [([], .identifier "a"), ([], .identifier "b")] [] (by decide)
    (by decide) (by decide) (by decide)
  exact ⟨written.2 (by decide), mt touching.1 (by decide)⟩

end Token

end Scriptlet
