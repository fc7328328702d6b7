import Scriptlet.Proofs.Token.Layout

/-!
# Scanning covers the text

A source is its tokens with separators around them, and nothing else.  `Lexeme` says which part of a
source a token stands for, given what follows that part; `Covers` cuts a whole source into such parts
and the separators between them.  A text can be cut in one way only, and scanning finds it.

The scanner skips four characters, while a text is refused when it has nothing but blank ones, of
which there are more.  The two notions fit together: what is blank but not skipped is an illegal
character, so a text that is not refused has a token.
-/

namespace Scriptlet

namespace Token

/-- The part of a text that a token stands for, and what follows it.  Runs of digits and of word
characters end where the class ends, and a symbol is not the beginning of a longer one that stands
there.  A string may lack its closing quote at the end of the text. -/
inductive Lexeme : Token → List Char → List Char → Prop
  | integer {digits rest} (nonempty : digits ≠ []) (inClass : digits.all Char.isDigit = true)
      (maximal : rest.head?.any Char.isDigit = false) :
      Lexeme (.integer (String.ofList digits)) digits rest
  | keyword {word : Keyword} {rest} (maximal : rest.head?.any isWordChar = false) :
      Lexeme (.keyword word) word.text.toList rest
  | identifier {characters rest} (nonempty : characters ≠ [])
      (inClass : characters.all isWordChar = true)
      (notReserved : ∀ word : Keyword, word.text.toList ≠ characters)
      (maximal : rest.head?.any isWordChar = false) :
      Lexeme (.identifier (String.ofList characters)) characters rest
  | closed {content rest} (noQuote : '"' ∉ content) :
      Lexeme (.string (String.ofList content)) ('"' :: (content ++ ['"'])) rest
  | unclosed {content} (noQuote : '"' ∉ content) :
      Lexeme (.string (String.ofList content)) ('"' :: content) []
  | symbol {mark rest} (maximal : ∀ c ∈ rest.head?, ∀ other : Symbol,
      other.spelling ≠ mark.spelling ++ [c]) :
      Lexeme (.symbol mark) mark.spelling rest
  | illegal {c rest} (notSeparator : c.isWhitespace = false) (notDigit : c.isDigit = false)
      (notWordChar : isWordChar c = false) (notQuote : c ≠ '"')
      (notSymbol : ∀ mark : Symbol, mark.spelling.head? ≠ some c) :
      Lexeme (.illegal c) [c] rest

/-- A text is the lexemes of tokens, with any number of separators before, between and after them. -/
inductive Covers : List Token → List Char → Prop
  | finished {gap} (separators : gap.all Char.isWhitespace = true) : Covers [] gap
  | token {gap token text tokens rest} (separators : gap.all Char.isWhitespace = true)
      (lexeme : Lexeme token text rest) (others : Covers tokens rest) :
      Covers (token :: tokens) (gap ++ (text ++ rest))

/-! ## What stands at the front -/

theorem notMem_quote_iff {content : List Char} :
    '"' ∉ content ↔ content.all isStringChar = true := by
  simp only [List.all_eq_true, isStringChar, bne_iff_ne]
  constructor
  · rintro noQuote c member rfl
    exact noQuote member
  · intro others member
    exact others '"' member rfl

/-- A run is cut off at its end. -/
theorem any_head?_dropWhile (p : Char → Bool) (text : List Char) :
    (text.dropWhile p).head?.any p = false := by
  have ended := List.head?_dropWhile_not p text
  cases front : (text.dropWhile p).head? with
  | none => rfl
  | some c =>
      rw [front] at ended
      exact ended

/-- A character starts a symbol only if it is one. -/
theorem ofChar?_eq_none_iff {c : Char} :
    Symbol.ofChar? c = none ↔ ∀ mark : Symbol, mark.spelling.head? ≠ some c := by
  constructor
  · intro noSymbol mark front
    cases mark <;> cases front <;> exact absurd noSymbol (by decide)
  · intro starts
    cases found : Symbol.ofChar? c with
    | none => rfl
    | some mark =>
        have spelled := Symbol.spelling_of_ofChar? found
        exact absurd (by rw [spelled]; rfl) (starts mark)

theorem ofPair?_eq_none_iff {c d : Char} :
    Symbol.ofPair? c d = none ↔ ∀ mark : Symbol, mark.spelling ≠ [c, d] := by
  simp only [Symbol.ofPair?, List.find?_eq_none, beq_iff_eq]
  constructor
  · intro noSymbol mark
    exact noSymbol mark (Symbol.mem_all mark)
  · intro others mark _
    exact others mark

/-- No symbol has more than two characters. -/
theorem spelling_ne_append {mark other : Symbol} {c d : Char} (pair : mark.spelling = [c, d])
    (next : Char) : other.spelling ≠ mark.spelling ++ [next] := by
  rw [pair]
  cases other <;> simp [Symbol.spelling]

/-- What is found at the front of a text is the longest symbol that stands there. -/
theorem lexeme_of_symbolAt? {c : Char} {rest remaining : List Char} {mark : Symbol}
    (found : symbolAt? c rest = some (mark, remaining)) :
    Lexeme (.symbol mark) mark.spelling remaining ∧ mark.spelling ++ remaining = c :: rest := by
  cases rest with
  | nil =>
      simp only [symbolAt?, Option.map_eq_some_iff, Prod.mk.injEq] at found
      obtain ⟨_, single, rfl, rfl⟩ := found
      constructor
      · exact .symbol (by simp)
      · rw [Symbol.spelling_of_ofChar? single]
        rfl
  | cons d rest =>
      simp only [symbolAt?] at found
      cases pair : Symbol.ofPair? c d with
      | some double =>
          simp only [pair, Option.some.injEq, Prod.mk.injEq] at found
          obtain ⟨rfl, rfl⟩ := found
          have spelled := Symbol.spelling_of_ofPair? pair
          constructor
          · exact .symbol fun next _ other => spelling_ne_append spelled next
          · rw [spelled]
            rfl
      | none =>
          simp only [pair, Option.map_eq_some_iff, Prod.mk.injEq] at found
          obtain ⟨_, single, rfl, rfl⟩ := found
          have spelled := Symbol.spelling_of_ofChar? single
          constructor
          · refine .symbol ?_
            intro next front other
            cases front
            rw [spelled]
            exact ofPair?_eq_none_iff.1 pair other
          · rw [spelled]
            rfl

/-- A word that is taken off a text is reserved, or it is a name. -/
theorem lexeme_ofWord {characters rest : List Char} (nonempty : characters ≠ [])
    (inClass : characters.all isWordChar = true) (maximal : rest.head?.any isWordChar = false) :
    Lexeme (ofWord (String.ofList characters)) characters rest := by
  simp only [ofWord]
  cases found : Keyword.ofText? (String.ofList characters) with
  | some word =>
      have spelled : word.text.toList = characters := by
        rw [Keyword.text_of_ofText? found, String.toList_ofList]
      rw [← spelled]
      exact .keyword maximal
  | none =>
      refine .identifier nonempty inClass ?_ maximal
      rintro word rfl
      rw [String.ofList_toList, Keyword.ofText?_text] at found
      cases found

/-- A string reaches to the next quote, or to the end of the text if there is none. -/
theorem lexeme_string (rest : List Char) :
    ∃ text, Lexeme (.string (String.ofList (rest.takeWhile isStringChar))) text
        (rest.dropWhile isStringChar).tail ∧
      text ++ (rest.dropWhile isStringChar).tail = '"' :: rest := by
  have noQuote : '"' ∉ rest.takeWhile isStringChar := notMem_quote_iff.2 List.all_takeWhile
  have whole := List.takeWhile_append_dropWhile (p := isStringChar) (l := rest)
  have ended := any_head?_dropWhile isStringChar rest
  cases remaining : rest.dropWhile isStringChar with
  | nil =>
      rw [remaining, List.append_nil] at whole
      exact ⟨_, .unclosed noQuote, by rw [List.tail_nil, List.append_nil, whole]⟩
  | cons c others =>
      have quote : c = '"' := by simpa [remaining, isStringChar] using ended
      rw [remaining, quote] at whole
      refine ⟨_, .closed noQuote, ?_⟩
      rw [List.tail_cons, List.cons_append, List.append_assoc, List.singleton_append, whole]

/-! ## Scanning finds the lexemes -/

theorem Covers.separator {c : Char} {tokens : List Token} {rest : List Char}
    (separator : c.isWhitespace = true) (covers : Covers tokens rest) :
    Covers tokens (c :: rest) := by
  cases covers with
  | finished separators => exact .finished (by simp [separator, separators])
  | token separators lexeme others =>
      rw [← List.cons_append]
      exact .token (by simp [separator, separators]) lexeme others

theorem Covers.lexeme {token : Token} {tokens : List Token} {text rest : List Char}
    (lexeme : Lexeme token text rest) (others : Covers tokens rest) :
    Covers (token :: tokens) (text ++ rest) :=
  @Covers.token [] token text tokens rest rfl lexeme others

/-- The tokens that scanning finds cover the text. -/
theorem covers_scan (text : List Char) : Covers (scan text) text := by
  fun_induction scan text with
  | case1 => exact .finished rfl
  | case2 c rest separator ih => exact ih.separator separator
  | case3 c rest notSeparator digit ih =>
      have lexeme : Lexeme (.integer (String.ofList (c :: rest.takeWhile Char.isDigit)))
          (c :: rest.takeWhile Char.isDigit) (rest.dropWhile Char.isDigit) :=
        .integer (List.cons_ne_nil _ _) (by simp [digit]) (any_head?_dropWhile _ _)
      simpa using Covers.lexeme lexeme ih
  | case4 c rest notSeparator notDigit wordChar ih =>
      have lexeme : Lexeme (ofWord (String.ofList (c :: rest.takeWhile isWordChar)))
          (c :: rest.takeWhile isWordChar) (rest.dropWhile isWordChar) :=
        lexeme_ofWord (List.cons_ne_nil _ _) (by simp [wordChar]) (any_head?_dropWhile _ _)
      simpa using Covers.lexeme lexeme ih
  | case5 rest notSeparator notDigit notWordChar ih =>
      obtain ⟨text, lexeme, whole⟩ := lexeme_string rest
      rw [← whole]
      exact .lexeme lexeme ih
  | case6 c rest notSeparator notDigit notWordChar notQuote mark remaining found ih =>
      obtain ⟨lexeme, whole⟩ := lexeme_of_symbolAt? found
      rw [← whole]
      exact .lexeme lexeme ih
  | case7 c rest notSeparator notDigit notWordChar notQuote noSymbol ih =>
      have lexeme : Lexeme (.illegal c) [c] rest :=
        .illegal (by simpa using notSeparator) (by simpa using notDigit)
          (by simpa using notWordChar) notQuote
          (ofChar?_eq_none_iff.1 (ofChar?_of_symbolAt? noSymbol))
      exact .lexeme lexeme ih

/-! ## Nothing else covers the text -/

theorem scan_unclosed {content : List Char} (noQuote : '"' ∉ content) :
    scan ('"' :: content) = [.string (String.ofList content)] := by
  have inClass := notMem_quote_iff.1 noQuote
  have taken : (content ++ []).takeWhile isStringChar = content := takeWhile_run inClass rfl
  have left : (content ++ []).dropWhile isStringChar = [] := dropWhile_run inClass rfl
  rw [List.append_nil] at taken left
  rw [scan_quote, taken, left, List.tail_nil, scan]

/-- A symbol that is not the beginning of a longer one ends where it should. -/
theorem endsBefore_of_maximal {mark : Symbol} {rest : List Char}
    (maximal : ∀ c ∈ rest.head?, ∀ other : Symbol, other.spelling ≠ mark.spelling ++ [c]) :
    (Token.symbol mark).endsBefore rest = true := by
  have noEquals (longer : Symbol) (spelled : longer.spelling = mark.spelling ++ ['=']) :
      (rest.head? != some '=') = true := by
    rw [bne_iff_ne]
    intro front
    exact maximal '=' front longer spelled
  cases mark with
  | assign => exact noEquals .equal rfl
  | bang => exact noEquals .notEqual rfl
  | _ => rfl

/-- A lexeme at the front of a text is scanned as its token. -/
theorem Lexeme.scan_append {token : Token} {text rest : List Char}
    (lexeme : Lexeme token text rest) : scan (text ++ rest) = token :: scan rest := by
  cases lexeme with
  | integer nonempty inClass maximal =>
      have numeral : isNumeral (String.ofList text) = true := by
        simp [isNumeral, nonempty, inClass]
      have read := scan_numeral numeral (by rw [maximal]; rfl)
      rwa [String.toList_ofList] at read
  | @keyword word _ maximal =>
      have wellFormed : (Token.keyword word).isWellFormed = true := rfl
      exact scan_spelling wellFormed (by simp [endsBefore, maximal])
  | identifier nonempty inClass notReserved maximal =>
      have isName : isName (String.ofList text) = true := by
        have notKeyword : Keyword.ofText? (String.ofList text) = none := by
          cases found : Keyword.ofText? (String.ofList text) with
          | none => rfl
          | some word =>
              have spelled := Keyword.text_of_ofText? found
              exact absurd (by rw [spelled, String.toList_ofList]) (notReserved word)
        simp [Token.isName, nonempty, inClass, notKeyword]
      have wellFormed : (Token.identifier (String.ofList text)).isWellFormed = true := isName
      have read := scan_spelling wellFormed (show endsBefore _ rest = true by
        simp [endsBefore, maximal])
      rwa [spelling, String.toList_ofList] at read
  | @closed content _ noQuote =>
      have read := @scan_string rest (String.ofList content) (by
        rw [String.toList_ofList]
        exact notMem_quote_iff.1 noQuote)
      rwa [String.toList_ofList] at read
  | unclosed noQuote =>
      rw [List.append_nil, scan_unclosed noQuote, scan]
  | symbol maximal => exact scan_symbol (endsBefore_of_maximal maximal)
  | illegal notSeparator notDigit notWordChar notQuote notSymbol =>
      have mark := isMark_of_not (by simp [notSeparator]) (by simp [notDigit])
        (by simp [notWordChar]) notQuote
      exact scan_illegal mark (ofChar?_eq_none_iff.2 notSymbol)

/-- A text is covered by the tokens that scanning finds, and by no others. -/
theorem covers_iff_scan_eq {tokens : List Token} {text : List Char} :
    Covers tokens text ↔ scan text = tokens := by
  constructor
  · intro covers
    induction covers with
    | @finished gap separators =>
        have read : scan (gap ++ []) = scan [] := scan_separators separators
        rwa [List.append_nil, scan] at read
    | token separators lexeme others ih =>
        rw [scan_separators separators, lexeme.scan_append, ih]
  · rintro rfl
    exact covers_scan text

/-! ## Sources -/

/-- A source is refused, as empty, when it has nothing but blank characters.  Any other source has
tokens; they and the separators around them are the whole source, and no other list of tokens is. -/
theorem ofSource_covers (source : String) :
    (∀ c ∈ source.toList, Text.isBlank c = true) ∧ ofSource source = .error .emptyInput ∨
      (∃ c ∈ source.toList, Text.isBlank c = false) ∧
        ∃ tokens, ofSource source = .ok tokens ∧ tokens ≠ [] ∧
          ∀ others, Covers others source.toList ↔ others = tokens := by
  by_cases blank : Text.allBlank source.toList = true
  · have refused : ofSource source = .error .emptyInput := by rw [ofSource, if_pos blank]
    rw [Text.allBlank, List.all_eq_true] at blank
    exact .inl ⟨blank, refused⟩
  · have scanned : ofSource source = .ok (scan source.toList) := by rw [ofSource, if_neg blank]
    have visible : ∃ c ∈ source.toList, Text.isBlank c = false := by
      simpa [Text.allBlank] using blank
    refine .inr ⟨visible, _, scanned, ofSource_ne_nil scanned, ?_⟩
    intro others
    rw [covers_iff_scan_eq]
    exact eq_comm

end Token

end Scriptlet
