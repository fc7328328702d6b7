import Scriptlet.Token.Scan

/-!
# Layout

Tokens written out as text, and what scanning makes of such a text.  A token is read back when it
could have been scanned at all and the text after it does not go on with what the token takes; the
separators around it do not matter.
-/

namespace Scriptlet

namespace Token

/-! ## Character classes -/

theorem toNat_of_isDigit {c : Char} (digit : c.isDigit = true) :
    48 ≤ c.toNat ∧ c.toNat ≤ 57 := by
  simp only [Char.isDigit, Bool.and_eq_true, decide_eq_true_eq, UInt32.le_iff_toNat_le] at digit
  exact digit

theorem toNat_of_isWordChar {c : Char} (wordChar : isWordChar c = true) :
    65 ≤ c.toNat ∧ c.toNat ≤ 90 ∨ c.toNat = 95 ∨ 97 ≤ c.toNat ∧ c.toNat ≤ 122 := by
  have classes : isWordChar c = (decide (c.val ≥ 'A'.val ∧ c.val ≤ 'Z'.val) ||
      (decide (c.val ≥ 'a'.val) && decide (c.val ≤ 'z'.val)) || c == '_') := rfl
  simp only [classes, Bool.or_eq_true, Bool.and_eq_true, decide_eq_true_eq,
    UInt32.le_iff_toNat_le, beq_iff_eq] at wordChar
  rcases wordChar with (upper | lower) | rfl
  · exact .inl upper
  · exact .inr (.inr lower)
  · exact .inr (.inl rfl)

theorem not_isBlank_of_isDigit {c : Char} (digit : c.isDigit = true) :
    Text.isBlank c = false := by
  have range := toNat_of_isDigit digit
  simp only [Text.isBlank, Bool.or_eq_false_iff, Bool.and_eq_false_iff, decide_eq_false_iff_not,
    beq_eq_false_iff_ne]
  omega

theorem not_isBlank_of_isWordChar {c : Char} (wordChar : isWordChar c = true) :
    Text.isBlank c = false := by
  have range := toNat_of_isWordChar wordChar
  simp only [Text.isBlank, Bool.or_eq_false_iff, Bool.and_eq_false_iff, decide_eq_false_iff_not,
    beq_eq_false_iff_ne]
  omega

theorem not_isWhitespace_of_not_isBlank {c : Char} (notBlank : Text.isBlank c = false) :
    c.isWhitespace = false := by
  rw [Bool.eq_false_iff]
  intro separator
  rw [Text.isBlank_of_isWhitespace separator] at notBlank
  exact Bool.noConfusion notBlank

theorem not_isDigit_of_isWordChar {c : Char} (wordChar : isWordChar c = true) :
    c.isDigit = false := by
  rw [Bool.eq_false_iff]
  intro digit
  have range := toNat_of_isDigit digit
  have wordRange := toNat_of_isWordChar wordChar
  omega

/-! ## The front of a text -/

variable {c : Char} {rest : List Char}

theorem scan_separator (separator : c.isWhitespace = true) : scan (c :: rest) = scan rest := by
  rw [scan, if_pos separator]

theorem scan_separators {gap : List Char} (separators : gap.all Char.isWhitespace = true) :
    scan (gap ++ rest) = scan rest := by
  induction gap with
  | nil => rfl
  | cons c gap ih =>
      rw [List.all_cons, Bool.and_eq_true] at separators
      rw [List.cons_append, scan_separator separators.1, ih separators.2]

theorem scan_digit (digit : c.isDigit = true) :
    scan (c :: rest) = .integer (String.ofList (c :: rest.takeWhile Char.isDigit)) ::
      scan (rest.dropWhile Char.isDigit) := by
  have notWhitespace := not_isWhitespace_of_not_isBlank (not_isBlank_of_isDigit digit)
  rw [scan, notWhitespace, if_neg Bool.false_ne_true, if_pos digit]

theorem scan_wordChar (wordChar : isWordChar c = true) :
    scan (c :: rest) = ofWord (String.ofList (c :: rest.takeWhile isWordChar)) ::
      scan (rest.dropWhile isWordChar) := by
  have notWhitespace := not_isWhitespace_of_not_isBlank (not_isBlank_of_isWordChar wordChar)
  rw [scan, notWhitespace, not_isDigit_of_isWordChar wordChar, if_neg Bool.false_ne_true,
    if_neg Bool.false_ne_true, if_pos wordChar]

theorem scan_quote :
    scan ('"' :: rest) = .string (String.ofList (rest.takeWhile isStringChar)) ::
      scan (rest.dropWhile isStringChar).tail := by
  rw [scan, if_neg (by decide), if_neg (by decide), if_neg (by decide), if_pos rfl]

/-- A character that starts no run of any sort. -/
def isMark (c : Char) : Bool := !c.isWhitespace && !c.isDigit && !isWordChar c && c != '"'

theorem scan_mark (mark : isMark c = true) :
    scan (c :: rest) = match symbolAt? c rest with
      | some (found, remaining) => .symbol found :: scan remaining
      | none => .illegal c :: scan rest := by
  simp only [isMark, Bool.and_eq_true, Bool.not_eq_true', bne_iff_ne] at mark
  obtain ⟨⟨⟨notWhitespace, notDigit⟩, notWordChar⟩, notQuote⟩ := mark
  rw [scan, notWhitespace, notDigit, notWordChar, if_neg Bool.false_ne_true,
    if_neg Bool.false_ne_true, if_neg Bool.false_ne_true, if_neg notQuote]
  split <;> rename_i found <;> rw [found]

theorem isMark_of_not {c : Char} (notWhitespace : ¬ c.isWhitespace = true)
    (notDigit : ¬ c.isDigit = true) (notWordChar : ¬ isWordChar c = true) (notQuote : ¬ c = '"') :
    isMark c = true := by
  simp [isMark, notWhitespace, notDigit, notWordChar, notQuote]

theorem ofChar?_of_symbolAt? {c : Char} {rest : List Char} (none : symbolAt? c rest = none) :
    Symbol.ofChar? c = Option.none := by
  unfold symbolAt? at none
  split at none
  · exact Option.map_eq_none_iff.1 none
  · split at none
    · cases none
    · exact Option.map_eq_none_iff.1 none

theorem allBlank_of_scan_eq_nil (text : List Char) (empty : scan text = []) :
    Text.allBlank text = true := by
  induction text with
  | nil => rfl
  | cons c rest ih =>
      rw [scan] at empty
      split at empty
      · next separator =>
          have others := ih empty
          unfold Text.allBlank at others ⊢
          rw [List.all_cons, Text.isBlank_of_isWhitespace separator, others, Bool.and_self]
      · repeat' split at empty
        all_goals exact absurd empty (List.cons_ne_nil _ _)

theorem scan_of_ofSource {source : String} {tokens : List Token}
    (scanned : ofSource source = .ok tokens) : tokens = scan source.toList := by
  unfold ofSource at scanned
  split at scanned
  · cases scanned
  · cases scanned
    rfl

/-- Only a blank text has no tokens. -/
theorem ofSource_ne_nil {source : String} {tokens : List Token}
    (scanned : ofSource source = .ok tokens) : tokens ≠ [] := by
  unfold ofSource at scanned
  split at scanned
  · cases scanned
  · next notBlank =>
      cases scanned
      intro empty
      exact notBlank (allBlank_of_scan_eq_nil _ empty)

/-! ## Tokens as text -/

/-- The characters of a token, a string's quotes included. -/
def spelling : Token → List Char
  | illegal character => [character]
  | identifier name => name.toList
  | integer numeral => numeral.toList
  | string text => '"' :: (text.toList ++ ['"'])
  | keyword word => word.text.toList
  | symbol mark => mark.spelling

/-- A name that is no reserved word. -/
def isName (name : String) : Bool :=
  !name.toList.isEmpty && name.toList.all isWordChar && (Keyword.ofText? name).isNone

/-- A numeral: one or more decimal digits. -/
def isNumeral (numeral : String) : Bool :=
  !numeral.toList.isEmpty && numeral.toList.all Char.isDigit

/-- Whether scanning can find a token. -/
def isWellFormed : Token → Bool
  | illegal character => isMark character && (Symbol.ofChar? character).isNone
  | identifier name => isName name
  | integer numeral => isNumeral numeral
  | string text => text.toList.all isStringChar
  | keyword _ => true
  | symbol _ => true

/-- Whether a text after a token does not go on with what the token takes. -/
def endsBefore : Token → List Char → Bool
  | identifier _, rest => !rest.head?.any isWordChar
  | keyword _, rest => !rest.head?.any isWordChar
  | integer _, rest => !rest.head?.any Char.isDigit
  | symbol .assign, rest => rest.head? != some '='
  | symbol .bang, rest => rest.head? != some '='
  | _, _ => true

/-- A run of characters of one class ends where the text goes on with another. -/
theorem takeWhile_run {p : Char → Bool} {run : List Char} (inClass : run.all p = true)
    (stops : (!rest.head?.any p) = true) : (run ++ rest).takeWhile p = run := by
  rw [List.all_eq_true] at inClass
  rw [List.takeWhile_append_of_pos inClass]
  cases rest with
  | nil => simp
  | cons d others =>
      have other : p d = false := by simpa using stops
      simp [other]

theorem dropWhile_run {p : Char → Bool} {run : List Char} (inClass : run.all p = true)
    (stops : (!rest.head?.any p) = true) : (run ++ rest).dropWhile p = rest := by
  rw [List.all_eq_true] at inClass
  rw [List.dropWhile_append_of_pos inClass]
  cases rest with
  | nil => rfl
  | cons d others =>
      have other : p d = false := by simpa using stops
      simp [other]

theorem scan_numeral {numeral : String} (isNumeral : isNumeral numeral = true)
    (stops : (!rest.head?.any Char.isDigit) = true) :
    scan (numeral.toList ++ rest) = .integer numeral :: scan rest := by
  rw [Token.isNumeral, Bool.and_eq_true] at isNumeral
  obtain ⟨nonempty, digits⟩ := isNumeral
  cases spelled : numeral.toList with
  | nil => simp [spelled] at nonempty
  | cons digit others =>
      rw [spelled, List.all_cons, Bool.and_eq_true] at digits
      rw [List.cons_append, scan_digit digits.1, takeWhile_run digits.2 stops,
        dropWhile_run digits.2 stops, ← spelled, String.ofList_toList]

theorem scan_word {word : String} (nonempty : (!word.toList.isEmpty) = true)
    (wordChars : word.toList.all isWordChar = true)
    (stops : (!rest.head?.any isWordChar) = true) :
    scan (word.toList ++ rest) = ofWord word :: scan rest := by
  cases spelled : word.toList with
  | nil => simp [spelled] at nonempty
  | cons c others =>
      rw [spelled, List.all_cons, Bool.and_eq_true] at wordChars
      rw [List.cons_append, scan_wordChar wordChars.1, takeWhile_run wordChars.2 stops,
        dropWhile_run wordChars.2 stops, ← spelled, String.ofList_toList]

theorem isWord_text (word : Keyword) :
    (!word.text.toList.isEmpty) = true ∧ word.text.toList.all isWordChar = true := by
  cases word <;> decide

theorem scan_string {text : String} (stringChars : text.toList.all isStringChar = true) :
    scan ('"' :: (text.toList ++ ['"']) ++ rest) = .string text :: scan rest := by
  have stops : (!('"' :: rest).head?.any isStringChar) = true := rfl
  rw [List.cons_append, List.append_assoc, List.singleton_append, scan_quote,
    takeWhile_run stringChars stops, dropWhile_run stringChars stops, List.tail_cons,
    String.ofList_toList]

/-- Only an equals sign can be the second character of a symbol, after one of two others. -/
theorem ofPair?_eq_none {c d : Char} (other : d ≠ '=' ∨ c ≠ '=' ∧ c ≠ '!') :
    Symbol.ofPair? c d = none := by
  rw [Option.eq_none_iff_forall_ne_some]
  intro mark found
  have spelled := Symbol.spelling_of_ofPair? found
  cases mark <;> simp [Symbol.spelling] at spelled <;> grind

theorem symbolAt?_of_ofChar? {mark : Symbol} (found : Symbol.ofChar? c = some mark)
    (single : rest.head? ≠ some '=' ∨ c ≠ '=' ∧ c ≠ '!') :
    symbolAt? c rest = some (mark, rest) := by
  cases rest with
  | nil => simp [symbolAt?, found]
  | cons d others =>
      rw [List.head?_cons, ne_eq, Option.some.injEq] at single
      simp [symbolAt?, found, ofPair?_eq_none single]

theorem scan_symbol {mark : Symbol} (ends : endsBefore (.symbol mark) rest = true) :
    scan (mark.spelling ++ rest) = .symbol mark :: scan rest := by
  have single {c : Char} (isMark : isMark c = true) (found : Symbol.ofChar? c = some mark)
      (single : rest.head? ≠ some '=' ∨ c ≠ '=' ∧ c ≠ '!') :
      scan (c :: rest) = .symbol mark :: scan rest := by
    rw [scan_mark isMark, symbolAt?_of_ofChar? found single]
  cases mark with
  | equal => exact scan_mark (by decide)
  | notEqual => exact scan_mark (by decide)
  | assign => exact single (by decide) (by decide) (.inl (bne_iff_ne.1 ends))
  | bang => exact single (by decide) (by decide) (.inl (bne_iff_ne.1 ends))
  | _ => exact single (by decide) (by decide) (.inr (by decide))

theorem scan_illegal (isMark : isMark c = true) (noSymbol : Symbol.ofChar? c = none) :
    scan (c :: rest) = .illegal c :: scan rest := by
  have noPair (d : Char) : Symbol.ofPair? c d = none := by
    refine ofPair?_eq_none (.inr ⟨?_, ?_⟩)
    · rintro rfl
      exact absurd noSymbol (by decide)
    · rintro rfl
      exact absurd noSymbol (by decide)
  have noneFound : symbolAt? c rest = none := by
    cases rest with
    | nil => simp [symbolAt?, noSymbol]
    | cons d others => simp [symbolAt?, noSymbol, noPair d]
  rw [scan_mark isMark, noneFound]

/-- A token is read back from the front of a text that does not go on with it. -/
theorem scan_spelling {token : Token} (wellFormed : token.isWellFormed = true)
    (ends : token.endsBefore rest = true) :
    scan (token.spelling ++ rest) = token :: scan rest := by
  cases token with
  | illegal character =>
      rw [isWellFormed, Bool.and_eq_true, Option.isNone_iff_eq_none] at wellFormed
      exact scan_illegal wellFormed.1 wellFormed.2
  | identifier name =>
      rw [isWellFormed, isName, Bool.and_eq_true, Bool.and_eq_true, Option.isNone_iff_eq_none]
        at wellFormed
      have read := scan_word wellFormed.1.1 wellFormed.1.2 ends
      rwa [ofWord, wellFormed.2] at read
  | integer numeral => exact scan_numeral wellFormed ends
  | string text => exact scan_string wellFormed
  | keyword word =>
      have isWord := isWord_text word
      have read := scan_word isWord.1 isWord.2 ends
      rwa [ofWord, Keyword.ofText?_text] at read
  | symbol mark => exact scan_symbol ends

/-! ## Tokens in a row -/

/-- Tokens written one after another, with separators anywhere around them; where there is none
the text after a token must not go on with it. -/
inductive Laid : List Token → List Char → Prop
  | finished {gap} (separators : gap.all Char.isWhitespace = true) : Laid [] gap
  | token {gap token tokens rest} (separators : gap.all Char.isWhitespace = true)
      (ends : token.endsBefore rest = true) (laid : Laid tokens rest) :
      Laid (token :: tokens) (gap ++ (token.spelling ++ rest))

theorem scan_of_laid {tokens : List Token} {text : List Char} (laid : Laid tokens text)
    (wellFormed : tokens.all isWellFormed = true) : scan text = tokens := by
  induction laid with
  | @finished gap separators =>
      have read : scan (gap ++ []) = scan [] := scan_separators separators
      rwa [List.append_nil, scan] at read
  | token separators ends laid ih =>
      rw [List.all_cons, Bool.and_eq_true] at wellFormed
      rw [scan_separators separators, scan_spelling wellFormed.1 ends, ih wellFormed.2]

theorem exists_visible_of_run {p : Char → Bool} (visible : ∀ c, p c = true → Text.isBlank c = false)
    {run : List Char} (nonempty : (!run.isEmpty) = true) (inClass : run.all p = true) :
    ∃ c ∈ run, Text.isBlank c = false := by
  cases run with
  | nil => exact Bool.noConfusion nonempty
  | cons c others =>
      rw [List.all_cons, Bool.and_eq_true] at inClass
      exact ⟨c, List.mem_cons_self, visible c inClass.1⟩

theorem exists_visible {token : Token} (wellFormed : token.isWellFormed = true)
    (legal : token.kind ≠ .illegal) : ∃ c ∈ token.spelling, Text.isBlank c = false := by
  cases token with
  | illegal character => exact absurd rfl legal
  | identifier name =>
      rw [isWellFormed, isName, Bool.and_eq_true, Bool.and_eq_true] at wellFormed
      exact exists_visible_of_run (fun _ => not_isBlank_of_isWordChar) wellFormed.1.1 wellFormed.1.2
  | integer numeral =>
      rw [isWellFormed, isNumeral, Bool.and_eq_true] at wellFormed
      exact exists_visible_of_run (fun _ => not_isBlank_of_isDigit) wellFormed.1 wellFormed.2
  | string text => exact ⟨'"', List.mem_cons_self, by decide⟩
  | keyword word =>
      have isWord := isWord_text word
      exact exists_visible_of_run (fun _ => not_isBlank_of_isWordChar) isWord.1 isWord.2
  | symbol mark => cases mark <;> exact ⟨_, List.mem_cons_self, by decide⟩

/-- Tokens laid out as a source are read back from it, unless it may be blank. -/
theorem ofSource_of_laid {source : String} {token : Token} {tokens : List Token}
    (laid : Laid (token :: tokens) source.toList)
    (wellFormed : (token :: tokens).all isWellFormed = true) (legal : token.kind ≠ .illegal) :
    ofSource source = .ok (token :: tokens) := by
  have notBlank : ¬ Text.allBlank source.toList = true := by
    intro blank
    rw [Text.allBlank, List.all_eq_true] at blank
    rw [List.all_cons, Bool.and_eq_true] at wellFormed
    obtain ⟨c, member, visible⟩ := exists_visible wellFormed.1 legal
    generalize source.toList = text at laid blank
    cases laid with
    | @token gap _ _ rest separators ends laid =>
        have inText : c ∈ gap ++ (token.spelling ++ rest) :=
          List.mem_append_right gap (List.mem_append_left rest member)
        rw [blank c inText] at visible
        exact Bool.noConfusion visible
  unfold ofSource
  rw [if_neg notBlank, scan_of_laid laid wellFormed]

/-! ## Tokens with separators between them -/

/-- Tokens written with at least one separator between two of them, and any number before the first
and after the last. -/
inductive Spaced : List Token → List Char → Prop
  | finished {gap} (separators : gap.all Char.isWhitespace = true) : Spaced [] gap
  | token {gap token tokens rest} (separators : gap.all Char.isWhitespace = true)
      (apart : tokens = [] ∨ rest.head?.any Char.isWhitespace = true)
      (spaced : Spaced tokens rest) : Spaced (token :: tokens) (gap ++ (token.spelling ++ rest))

theorem endsBefore_of_separator (token : Token) {c : Char} (separator : c.isWhitespace = true) :
    token.endsBefore (c :: rest) = true := by
  have notDigit : c.isDigit = false := by
    rw [Bool.eq_false_iff]
    intro digit
    exact absurd separator
      (by simp [not_isWhitespace_of_not_isBlank (not_isBlank_of_isDigit digit)])
  have notWordChar : isWordChar c = false := by
    rw [Bool.eq_false_iff]
    intro wordChar
    exact absurd separator
      (by simp [not_isWhitespace_of_not_isBlank (not_isBlank_of_isWordChar wordChar)])
  have notEquals : c ≠ '=' := by
    rintro rfl
    exact absurd separator (by decide)
  unfold endsBefore
  split <;> simp [notDigit, notWordChar, notEquals]

theorem endsBefore_nil (token : Token) : token.endsBefore [] = true := by
  unfold endsBefore
  split <;> rfl

theorem Spaced.laid {tokens : List Token} {text : List Char} (spaced : Spaced tokens text) :
    Laid tokens text := by
  induction spaced with
  | finished separators => exact .finished separators
  | @token gap token tokens rest separators apart spaced ih =>
      refine .token separators ?_ ih
      cases rest with
      | nil => exact endsBefore_nil token
      | cons c others =>
          have separator : c.isWhitespace = true := by
            rcases apart with rfl | apart
            · cases spaced with
              | finished separators =>
                  rw [List.all_cons, Bool.and_eq_true] at separators
                  exact separators.1
            · simpa using apart
          exact endsBefore_of_separator token separator

/-- Tokens with a space after each of them. -/
def spread : List Token → List Char
  | [] => []
  | token :: tokens => token.spelling ++ ' ' :: spread tokens

theorem spaced_append_spread (tokens : List Token) {gap : List Char}
    (separators : gap.all Char.isWhitespace = true) : Spaced tokens (gap ++ spread tokens) := by
  induction tokens generalizing gap with
  | nil =>
      rw [spread, List.append_nil]
      exact .finished separators
  | cons token tokens ih =>
      have others : Spaced tokens ([' '] ++ spread tokens) := ih rfl
      exact .token separators (.inr rfl) others

/-- Every list of tokens can be written. -/
theorem spaced_spread (tokens : List Token) : Spaced tokens (spread tokens) := by
  have spaced : Spaced tokens ([] ++ spread tokens) := spaced_append_spread tokens rfl
  exact spaced

end Token

end Scriptlet
