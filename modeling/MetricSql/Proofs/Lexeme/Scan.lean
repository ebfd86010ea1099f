import MetricSql.Statement.Lexeme
import MetricSql.Text.Identifier
import MetricSql.Text.Quoted
import MetricSql.Dialect.Spelling
import Mathlib.Tactic

/-!
# Scanning written lexemes

What is written as a word, a quoted name, a string, a number or a symbol is
scanned as one lexeme of that kind, as long as the text after it cannot extend
it.  `Scans` leaves the bound on the number of steps out of these statements.
-/

namespace MetricSql

/-! ## Characters -/

theorem ne_of_class {p : Char → Bool} {c d : Char} (hc : p c = true)
    (hd : p d = false) : c ≠ d := by
  rintro rfl
  rw [hc] at hd
  cases hd

theorem isUpper_iff {c : Char} : c.isUpper = true ↔ 65 ≤ c.toNat ∧ c.toNat ≤ 90 := by
  show decide (65 ≤ c.val ∧ c.val ≤ 90) = true ↔ _
  simp [UInt32.le_iff_toNat_le]

theorem isLower_iff {c : Char} : c.isLower = true ↔ 97 ≤ c.toNat ∧ c.toNat ≤ 122 := by
  show (decide (97 ≤ c.val) && decide (c.val ≤ 122)) = true ↔ _
  simp [UInt32.le_iff_toNat_le]

theorem isDigit_iff {c : Char} : c.isDigit = true ↔ 48 ≤ c.toNat ∧ c.toNat ≤ 57 := by
  show (decide (48 ≤ c.val) && decide (c.val ≤ 57)) = true ↔ _
  simp [UInt32.le_iff_toNat_le]

theorem isAlpha_iff {c : Char} : c.isAlpha = true ↔ c.isUpper = true ∨ c.isLower = true := by
  show (c.isUpper || c.isLower) = true ↔ _
  rw [Bool.or_eq_true]

/-- The codes of letters, digits and the underscore. -/
theorem isPlainRest_toNat {c : Char} (h : Text.isPlainRest c = true) :
    (48 ≤ c.toNat ∧ c.toNat ≤ 57) ∨ (65 ≤ c.toNat ∧ c.toNat ≤ 90) ∨ c.toNat = 95 ∨
      (97 ≤ c.toNat ∧ c.toNat ≤ 122) := by
  simp only [Text.isPlainRest, Char.isAlphanum, Bool.or_eq_true, isAlpha_iff, isUpper_iff,
    isLower_iff, isDigit_iff, beq_iff_eq] at h
  rcases h with h | rfl
  · omega
  · decide

theorem isPlainRest_of_start {c : Char} (h : Text.isPlainStart c = true) :
    Text.isPlainRest c = true := by
  simp only [Text.isPlainStart, Bool.or_eq_true] at h
  rcases h with h | h
  · simp [Text.isPlainRest, Char.isAlphanum, h]
  · simp [Text.isPlainRest, h]

/-- What is written without quotes is a plain identifier. -/
theorem isPlain_of_isBare {name : String} (h : Text.isBare name = true) :
    Text.isPlain name = true := by
  unfold Text.isPlain
  unfold Text.isBare at h
  cases hchars : name.toList with
  | nil =>
      rw [hchars] at h
      cases h
  | cons c cs =>
      rw [hchars] at h
      simp only [Text.isWord, Bool.and_eq_true, List.all_eq_true, Text.isBareStart,
        Text.isBareRest, Text.isPlainStart, Text.isPlainRest, Char.isAlphanum,
        isAlpha_iff, Bool.or_eq_true] at h ⊢
      obtain ⟨hstart, hrest⟩ := h
      refine ⟨?_, fun d hd => ?_⟩
      · rcases hstart with hlower | hunder
        · exact .inl (.inr hlower)
        · exact .inr hunder
      · rcases hrest d hd with (hlower | hdigit) | hunder
        · exact .inl (.inl (.inr hlower))
        · exact .inl (.inr hdigit)
        · exact .inr hunder

theorem not_isDigit_of_plainStart {c : Char} (h : Text.isPlainStart c = true) :
    c.isDigit = false := by
  simp only [Text.isPlainStart, Bool.or_eq_true, isAlpha_iff, isUpper_iff, isLower_iff,
    beq_iff_eq] at h
  rw [Bool.eq_false_iff, ne_eq, isDigit_iff]
  rcases h with h | rfl
  · omega
  · decide

theorem not_isBlank_of_plain {c : Char} (h : Text.isPlainRest c = true) :
    Text.isBlank c = false := by
  have hcode := isPlainRest_toNat h
  simp [Text.isBlank]
  omega

/-- The characters after which a new lexeme starts, whatever was written before. -/
def delimiters : List Char := [' ', '\n', ',', '(', ')']

/-- The text is at its end or goes on with a delimiter. -/
def Delimited (rest : List Char) : Prop := ∀ c ∈ rest.head?, c ∈ delimiters

/-- The text is at its end or goes on with a delimiter or a dot. -/
def Dotted (rest : List Char) : Prop := ∀ c ∈ rest.head?, c ∈ '.' :: delimiters

theorem Delimited.dotted {rest : List Char} (h : Delimited rest) : Dotted rest :=
  fun c hc => List.mem_cons_of_mem _ (h c hc)

namespace Lexeme

theorem not_isWordRest_of_delimiter (dialect : Dialect) {c : Char}
    (hc : c ∈ '.' :: delimiters) : isWordRest dialect c = false := by
  have hall : ('.' :: delimiters).all (fun d => !isWordRest dialect d) = true := by
    cases dialect <;> decide
  simpa using List.all_eq_true.mp hall c hc

theorem isWordStart_of_plain {dialect : Dialect} {c : Char}
    (hc : Text.isPlainStart c = true) : isWordStart dialect c = true := by
  have hcases : c.isAlpha = true ∨ c = '_' := by
    simpa [Text.isPlainStart] using hc
  rcases hcases with halpha | rfl
  · cases dialect <;> simp [isWordStart, isLetter, halpha]
  · cases dialect <;> decide

theorem isWordRest_of_plain {dialect : Dialect} {c : Char}
    (hc : Text.isPlainRest c = true) : isWordRest dialect c = true := by
  have hcases : (c.isAlpha = true ∨ c.isDigit = true) ∨ c = '_' := by
    simpa [Text.isPlainRest, Char.isAlphanum] using hc
  rcases hcases with (halpha | hdigit) | rfl
  · have hstart : isWordStart dialect c = true :=
      isWordStart_of_plain (by simp [Text.isPlainStart, halpha])
    simp [isWordRest, hstart]
  · simp [isWordRest, hdigit]
  · cases dialect <;> decide

/-! ## Steps of the scan -/

/-- The text is scanned into the lexemes, in as many steps as it has characters. -/
def Scans (dialect : Dialect) (text : List Char) (lexemes : List Lexeme) : Prop :=
  ∀ fuel, text.length ≤ fuel → scanFuel dialect fuel text = some lexemes

theorem Scans.scan_eq {dialect : Dialect} {text : List Char} {lexemes : List Lexeme}
    (h : Scans dialect text lexemes) : scan dialect text = some lexemes :=
  h _ le_rfl

theorem scans_nil (dialect : Dialect) : Scans dialect [] [] := by
  intro fuel _
  cases fuel <;> rfl

theorem Scans.blank {dialect : Dialect} {text rest : List Char} {lexemes : List Lexeme}
    (hblank : blankPart? text = some (some rest)) (hlength : rest.length < text.length)
    (h : Scans dialect rest lexemes) : Scans dialect text lexemes := by
  intro fuel hfuel
  cases text with
  | nil => cases hblank
  | cons c cs =>
      obtain ⟨fuel, rfl⟩ : ∃ n, fuel = n + 1 := ⟨fuel - 1, by simp at hfuel; omega⟩
      rw [scanFuel, hblank]
      · exact h fuel (by omega)
      · simp

theorem Scans.lexeme {dialect : Dialect} {text rest : List Char} {first : Lexeme}
    {lexemes : List Lexeme} (hblank : blankPart? text = none)
    (hpart : lexemePart dialect text = some (first, rest))
    (hlength : rest.length < text.length) (h : Scans dialect rest lexemes) :
    Scans dialect text (first :: lexemes) := by
  intro fuel hfuel
  cases text with
  | nil => cases hpart
  | cons c cs =>
      obtain ⟨fuel, rfl⟩ : ∃ n, fuel = n + 1 := ⟨fuel - 1, by simp at hfuel; omega⟩
      rw [scanFuel, hblank, hpart]
      · have hrest := h fuel (by omega)
        simp [hrest]
      · simp

/-- Text that starts with none of the characters of blanks and comments. -/
theorem blankPart?_eq_none {c : Char} (rest : List Char) (hminus : c ≠ '-')
    (hslash : c ≠ '/') (hblank : Text.isBlank c = false) :
    blankPart? (c :: rest) = none := by
  unfold blankPart?
  split
  next heq => exact absurd (List.cons.inj heq).1 hminus
  next heq => exact absurd (List.cons.inj heq).1 hslash
  next heq =>
    cases heq
    simp [hblank]
  next heq => cases heq

theorem lookup_marks_eq_none {dialect : Dialect} {c : Char} (hdouble : c ≠ '"')
    (hback : c ≠ '\x60') (hbracket : c ≠ '[') : (marks dialect).lookup c = none := by
  rw [List.lookup_eq_none_iff]
  cases dialect <;> simp [marks, hdouble, hback, hbracket]

theorem takeWhile_append_of_stop {p : Char → Bool} {front rest : List Char}
    (hfront : ∀ c ∈ front, p c = true) (hrest : ∀ c ∈ rest.head?, p c = false) :
    (front ++ rest).takeWhile p = front := by
  rw [List.takeWhile_append_of_pos hfront]
  cases rest with
  | nil => simp
  | cons c cs => simp [hrest c (by simp)]

theorem dropWhile_append_of_stop {p : Char → Bool} {front rest : List Char}
    (hfront : ∀ c ∈ front, p c = true) (hrest : ∀ c ∈ rest.head?, p c = false) :
    (front ++ rest).dropWhile p = rest := by
  rw [List.dropWhile_append_of_pos hfront]
  cases rest with
  | nil => simp
  | cons c cs => simp [hrest c (by simp)]

/-! ## Words -/

theorem scans_word {dialect : Dialect} {word rest : List Char} {lexemes : List Lexeme}
    (hword : Text.isWord Text.isPlainStart Text.isPlainRest word = true)
    (hrest : Dotted rest) (h : Scans dialect rest lexemes) :
    Scans dialect (word ++ rest) (.word (String.ofList word) :: lexemes) := by
  cases word with
  | nil => cases hword
  | cons c cs =>
      simp only [Text.isWord, Bool.and_eq_true, List.all_eq_true] at hword
      obtain ⟨hstart, hall⟩ := hword
      have hne : ∀ d, Text.isPlainStart d = false → c ≠ d := fun d => ne_of_class hstart
      have hmarks : (marks dialect).lookup c = none :=
        lookup_marks_eq_none (hne '"' (by decide)) (hne '\x60' (by decide))
          (hne '[' (by decide))
      have hquote : (cs ++ rest).head? ≠ some '\'' := by
        cases cs with
        | nil =>
            intro hhead
            exact absurd (hrest '\'' (by simpa using hhead)) (by decide)
        | cons d ds =>
            intro hhead
            have hd : d = '\'' := by simpa using hhead
            exact absurd (hall d List.mem_cons_self) (by rw [hd]; decide)
      have hstop : ∀ d ∈ rest.head?, isWordRest dialect d = false :=
        fun d hd => not_isWordRest_of_delimiter dialect (hrest d hd)
      have htake : ∀ d ∈ c :: cs, isWordRest dialect d = true := by
        intro d hd
        rcases List.mem_cons.mp hd with rfl | hd
        · exact isWordRest_of_plain (isPlainRest_of_start hstart)
        · exact isWordRest_of_plain (hall d hd)
      have hpart : lexemePart dialect (c :: (cs ++ rest)) =
          some (.word (String.ofList (c :: cs)), rest) := by
        have hlexeme : wordLexeme dialect (c :: cs ++ rest) =
            (.word (String.ofList (c :: cs)), rest) := by
          rw [wordLexeme, takeWhile_append_of_stop htake hstop,
            dropWhile_append_of_stop htake hstop]
        rw [lexemePart, hmarks]
        simp only [hne '\'' (by decide), hne '"' (by decide), hne '.' (by decide),
          not_isDigit_of_plainStart hstart, hquote, isWordStart_of_plain hstart,
          decide_false, Bool.false_and, Bool.and_false, Bool.or_false,
          Bool.false_eq_true, if_false, if_true]
        exact congrArg some hlexeme
      have hblank := blankPart?_eq_none (cs ++ rest) (hne '-' (by decide))
        (hne '/' (by decide)) (not_isBlank_of_plain (isPlainRest_of_start hstart))
      exact Scans.lexeme hblank hpart (by simp) h

/-- Words with single spaces between them. -/
theorem scans_words {dialect : Dialect} {words : List (List Char)} {rest : List Char}
    {lexemes : List Lexeme} (hne : words ≠ [])
    (hwords : ∀ word ∈ words,
      Text.isWord Text.isPlainStart Text.isPlainRest word = true)
    (hrest : Dotted rest) (h : Scans dialect rest lexemes) :
    Scans dialect ([' '].intercalate words ++ rest)
      (words.map (fun word => .word (String.ofList word)) ++ lexemes) := by
  induction words with
  | nil => exact absurd rfl hne
  | cons first others ih =>
      have hfirst := hwords first List.mem_cons_self
      cases others with
      | nil => simpa using scans_word hfirst hrest h
      | cons second others =>
          have hothers := ih (by simp)
            fun word hword => hwords word (List.mem_cons_of_mem _ hword)
          rw [List.intercalate_cons_cons, List.append_assoc, List.append_assoc,
            List.map_cons, List.cons_append]
          refine scans_word hfirst ?_ (hothers.blank rfl (by simp))
          intro c hc
          have hspace : c = ' ' := by simpa using hc.symm
          rw [hspace]
          decide

/-! ## Quoted text -/

theorem unquote_doubled {closing : Char} {text rest : List Char}
    (hrest : rest.head? ≠ some closing) :
    unquote closing (Text.doubled closing text ++ closing :: rest) = some (text, rest) := by
  induction text with
  | nil =>
      cases rest with
      | nil => simp [Text.doubled, unquote]
      | cons c cs =>
          have hc : c ≠ closing := by simpa using hrest
          simp [Text.doubled, unquote, hc]
  | cons c cs ih =>
      by_cases hc : c = closing
      · subst hc
        simp [Text.doubled, unquote, ih]
      · simp only [Text.doubled, hc, if_false, List.cons_append]
        rw [unquote.eq_def]
        simp [hc, ih]

theorem scans_name {dialect : Dialect} {name : String} {rest : List Char}
    {lexemes : List Lexeme} (hrest : Dotted rest) (h : Scans dialect rest lexemes) :
    Scans dialect ((dialect.quoteIdentifier name).toList ++ rest)
      (.name name :: lexemes) := by
  have hclosing : rest.head? ≠ some dialect.identifierMarks.2 := by
    intro hhead
    have hmem := hrest _ hhead
    revert hmem
    cases dialect <;> decide
  have hlookup : (marks dialect).lookup dialect.identifierMarks.1 =
      some dialect.identifierMarks.2 := by
    cases dialect <;> rfl
  have hblank : ∀ rest, blankPart? (dialect.identifierMarks.1 :: rest) = none := by
    intro rest
    apply blankPart?_eq_none <;> cases dialect <;> decide
  have htext : (dialect.quoteIdentifier name).toList ++ rest =
      dialect.identifierMarks.1 ::
        (Text.doubled dialect.identifierMarks.2 name.toList ++
          dialect.identifierMarks.2 :: rest) := by
    simp [Dialect.quoteIdentifier, Text.quoted]
  rw [htext]
  refine Scans.lexeme (hblank _) ?_ (by simp; omega) h
  rw [lexemePart, hlookup]
  simp only [unquote_doubled hclosing, Option.map_some, String.ofList_toList]

theorem scans_string {dialect : Dialect} {text : String} {rest : List Char}
    {lexemes : List Lexeme} (hrest : Dotted rest) (h : Scans dialect rest lexemes) :
    Scans dialect ((dialect.quoteString text).toList ++ rest)
      (.string text :: lexemes) := by
  have hclosing : rest.head? ≠ some '\'' := by
    intro hhead
    exact absurd (hrest _ hhead) (by decide)
  have hquoted : ∀ {start : List Char}, (start = ['\''] ∨ start = ['N', '\'']) →
      Scans dialect (start ++ (Text.doubled '\'' text.toList ++ '\'' :: rest))
        (.string text :: lexemes) := by
    intro start hstart
    have hmarks : ∀ c, (c = '\'' ∨ c = 'N') → (marks dialect).lookup c = none := by
      intro c hc
      rcases hc with rfl | rfl <;>
        exact lookup_marks_eq_none (by decide) (by decide) (by decide)
    rcases hstart with rfl | rfl
    · refine Scans.lexeme (blankPart?_eq_none _ (by decide) (by decide) (by decide)) ?_
        (by simp; omega) h
      rw [List.singleton_append, lexemePart, hmarks '\'' (.inl rfl)]
      simp [stringLexeme?, unquote_doubled hclosing]
    · refine Scans.lexeme (blankPart?_eq_none _ (by decide) (by decide) (by decide)) ?_
        (by simp; omega) h
      rw [List.cons_append, lexemePart, hmarks 'N' (.inr rfl)]
      simp [stringLexeme?, unquote_doubled hclosing]
  have htext : (dialect.quoteString text).toList ++ rest =
        ['\''] ++ (Text.doubled '\'' text.toList ++ '\'' :: rest) ∨
      (dialect.quoteString text).toList ++ rest =
        ['N', '\''] ++ (Text.doubled '\'' text.toList ++ '\'' :: rest) := by
    unfold Dialect.quoteString
    split
    · split
      · exact .inl (by simp [Text.quoted])
      · exact .inr (by simp [Text.quoted])
    · exact .inl (by simp [Text.quoted])
  rcases htext with htext | htext
  · rw [htext]
    exact hquoted (.inl rfl)
  · rw [htext]
    exact hquoted (.inr rfl)

/-! ## Blanks -/

theorem Scans.space {dialect : Dialect} {c : Char} {rest : List Char}
    {lexemes : List Lexeme} (hc : c = ' ' ∨ c = '\n') (h : Scans dialect rest lexemes) :
    Scans dialect (c :: rest) lexemes := by
  rcases hc with rfl | rfl <;> exact h.blank rfl (by simp)

theorem Scans.spaces {dialect : Dialect} {n : Nat} {rest : List Char}
    {lexemes : List Lexeme} (h : Scans dialect rest lexemes) :
    Scans dialect (List.replicate n ' ' ++ rest) lexemes := by
  induction n with
  | zero => exact h
  | succ n ih => exact ih.space (.inl rfl)

/-- A comment ends where the line ends. -/
theorem Scans.comment {dialect : Dialect} {text rest : List Char}
    {lexemes : List Lexeme} (htext : ∀ c ∈ text, c ≠ '\n')
    (h : Scans dialect ('\n' :: rest) lexemes) :
    Scans dialect ('-' :: '-' :: (text ++ '\n' :: rest)) lexemes := by
  have hdrop : (text ++ '\n' :: rest).dropWhile (· != '\n') = '\n' :: rest :=
    dropWhile_append_of_stop (fun c hc => by simpa using htext c hc) (by simp)
  have hpart : blankPart? ('-' :: '-' :: (text ++ '\n' :: rest)) =
      some (some ((text ++ '\n' :: rest).dropWhile (· != '\n'))) := rfl
  rw [hdrop] at hpart
  exact h.blank hpart (by simp; omega)

/-! ## Symbols -/

/-- The symbols of one character, with what must not come after some of them. -/
structure SymbolEnds (c : Char) (rest : List Char) : Prop where
  mem : c ∈ [',', '.', '(', ')', '=', '<', '+', '-', '*', '/']
  minus : c = '-' → rest.head? ≠ some '-'
  slash : c = '/' → rest.head? ≠ some '*'
  dot : c = '.' → ∀ d ∈ rest.head?, d.isDigit = false
  less : c = '<' → rest.head? = some ' '

theorem symbolEnds_of_mem {c : Char} {rest : List Char}
    (hc : c ∈ [',', '(', ')', '=', '+', '*']) : SymbolEnds c rest := by
  simp only [List.mem_cons, List.not_mem_nil, or_false] at hc
  rcases hc with rfl | rfl | rfl | rfl | rfl | rfl <;> constructor <;> simp

theorem symbolEnds_minus {rest : List Char} (h : rest.head? ≠ some '-') :
    SymbolEnds '-' rest := by
  constructor <;> simp [h]

theorem symbolEnds_dot {rest : List Char}
    (h : ∀ c ∈ rest.head?, c.isDigit = false) : SymbolEnds '.' rest := by
  constructor <;> simp_all

theorem symbolEnds_of_space {c : Char} {rest : List Char} (hc : c = '/' ∨ c = '<')
    (h : rest.head? = some ' ') : SymbolEnds c rest := by
  rcases hc with rfl | rfl <;> constructor <;> simp [h]

theorem SymbolEnds.blankPart? {c : Char} {rest : List Char} (hc : SymbolEnds c rest) :
    blankPart? (c :: rest) = none := by
  unfold Lexeme.blankPart?
  split
  next heq =>
    obtain ⟨rfl, rfl⟩ := List.cons.inj heq
    exact absurd rfl (hc.minus rfl)
  next heq =>
    obtain ⟨rfl, rfl⟩ := List.cons.inj heq
    exact absurd rfl (hc.slash rfl)
  next heq =>
    obtain ⟨rfl, rfl⟩ := List.cons.inj heq
    have hall : [',', '.', '(', ')', '=', '<', '+', '-', '*', '/'].all
        (fun d => !Text.isBlank d) = true := by
      decide
    have hblank : Text.isBlank c = false := by
      simpa using List.all_eq_true.mp hall c hc.mem
    simp [hblank]
  next heq => cases heq

/-- Two characters are one symbol only if the first is one of a few. -/
theorem not_longSymbol {c d : Char} (hc : c ∉ ['>', '<', '!', '|', ':']) :
    longSymbols.contains (String.ofList [c, d]) = false := by
  have hall : longSymbols.all (fun pair =>
      pair.toList.head?.all ['>', '<', '!', '|', ':'].contains) = true := by
    decide
  rw [Bool.eq_false_iff]
  intro hcontains
  have hfirst := List.all_eq_true.mp hall _ (List.contains_iff_mem.mp hcontains)
  exact hc (by simpa using hfirst)

theorem SymbolEnds.symbolPart {c : Char} {rest : List Char} (hc : SymbolEnds c rest) :
    symbolPart c rest = (.symbol (String.ofList [c]), rest) := by
  cases rest with
  | nil => rfl
  | cons d ds =>
      have hlong : longSymbols.contains (String.ofList [c, d]) = false := by
        by_cases hless : c = '<'
        · have hspace : d = ' ' := by simpa using hc.less hless
          rw [hless, hspace]
          decide
        · apply not_longSymbol
          intro hmem
          have hmem' := hc.mem
          simp only [List.mem_cons, List.not_mem_nil, or_false, hless, false_or]
            at hmem hmem'
          rcases hmem with rfl | rfl | rfl | rfl <;> simp at hmem'
      simp only [Lexeme.symbolPart, hlong, Bool.false_eq_true, if_false]

theorem scans_symbol {dialect : Dialect} {c : Char} {rest : List Char}
    {lexemes : List Lexeme} (hc : SymbolEnds c rest) (h : Scans dialect rest lexemes) :
    Scans dialect (c :: rest) (.symbol (String.ofList [c]) :: lexemes) := by
  have hall : [',', '.', '(', ')', '=', '<', '+', '-', '*', '/'].all (fun d => decide
      (d ≠ '"' ∧ d ≠ '\x60' ∧ d ≠ '[' ∧ d ≠ '\'' ∧ d.isDigit = false ∧ d ≠ 'N' ∧ d ≠ 'n' ∧
        isWordStart dialect d = false)) = true := by
    cases dialect <;> decide
  obtain ⟨hdouble, hback, hbracket, hsingle, hdigit, hupper, hlower, hstart⟩ :=
    of_decide_eq_true (List.all_eq_true.mp hall c hc.mem)
  have hnumber : (decide (c = '.') && rest.head?.any Char.isDigit) = false := by
    by_cases hdot : c = '.'
    · cases rest with
      | nil => simp
      | cons d ds => simp [hc.dot hdot d (by simp)]
    · simp [hdot]
  have hpart : lexemePart dialect (c :: rest) =
      some (.symbol (String.ofList [c]), rest) := by
    rw [lexemePart, lookup_marks_eq_none hdouble hback hbracket]
    simp only [hsingle, hdouble, hdigit, hnumber, hupper, hlower, hstart, decide_false,
      Bool.or_false, Bool.false_and, Bool.false_eq_true, if_false, hc.symbolPart]
  exact Scans.lexeme hc.blankPart? hpart (by simp) h

theorem scans_atLeast {dialect : Dialect} {rest : List Char} {lexemes : List Lexeme}
    (h : Scans dialect rest lexemes) :
    Scans dialect ('>' :: '=' :: rest) (.symbol ">=" :: lexemes) := by
  refine Scans.lexeme (blankPart?_eq_none _ (by decide) (by decide) (by decide)) ?_
    (by simp) h
  rw [lexemePart, lookup_marks_eq_none (by decide) (by decide) (by decide)]
  cases dialect <;> rfl

/-! ## Numbers -/

/-- Digits with a point among them perhaps, and an exponent perhaps. -/
structure Numeral (whole fraction exponent : List Char) : Prop where
  whole_ne : whole ≠ []
  whole : ∀ c ∈ whole, c.isDigit = true
  fraction : fraction = [] ∨ ∃ digits, fraction = '.' :: digits ∧
    ∀ c ∈ digits, c.isDigit = true
  exponent : exponent = [] ∨ ∃ sign digits, (sign = [] ∨ sign = ['-']) ∧ digits ≠ [] ∧
    exponent = 'e' :: (sign ++ digits) ∧ ∀ c ∈ digits, c.isDigit = true

section Numbers

variable {dialect : Dialect} {whole fraction exponent rest : List Char}

theorem not_isDigit_of_delimiter {c : Char} (hc : c ∈ '.' :: 'e' :: delimiters) :
    c.isDigit = false := by
  have hall : ('.' :: 'e' :: delimiters).all (fun d => !d.isDigit) = true := by decide
  simpa using List.all_eq_true.mp hall c hc

/-- After the digits comes no further digit. -/
theorem Numeral.stop_whole (h : Numeral whole fraction exponent) (hrest : Delimited rest) :
    ∀ c ∈ (fraction ++ (exponent ++ rest)).head?, c.isDigit = false := by
  intro c hc
  apply not_isDigit_of_delimiter
  rcases h.fraction with rfl | ⟨digits, rfl, -⟩
  · rcases h.exponent with rfl | ⟨sign, digits, -, -, rfl, -⟩
    · exact List.mem_cons_of_mem _ (List.mem_cons_of_mem _ (hrest c hc))
    · have he : c = 'e' := by simpa using hc.symm
      simp [he]
  · have hdot : c = '.' := by simpa using hc.symm
    simp [hdot]

theorem Numeral.stop_fraction (h : Numeral whole fraction exponent)
    (hrest : Delimited rest) :
    ∀ c ∈ (exponent ++ rest).head?, c.isDigit = false ∧ c ≠ '.' := by
  intro c hc
  rcases h.exponent with rfl | ⟨sign, digits, -, -, rfl, -⟩
  · have hmem : c ∈ delimiters := hrest c hc
    constructor
    · exact not_isDigit_of_delimiter (List.mem_cons_of_mem _ (List.mem_cons_of_mem _ hmem))
    · rintro rfl
      exact absurd hmem (by decide)
  · have he : c = 'e' := by simpa using hc.symm
    rw [he]
    decide

theorem Numeral.mantissaPart (h : Numeral whole fraction exponent)
    (hrest : Delimited rest) :
    mantissaPart (whole ++ (fraction ++ (exponent ++ rest))) =
      (whole ++ fraction, exponent ++ rest) := by
  have hstop := h.stop_whole hrest
  have hfraction : fractionPart (fraction ++ (exponent ++ rest)) =
      (fraction, exponent ++ rest) := by
    rcases h.fraction with rfl | ⟨digits, rfl, hdigits⟩
    · rw [List.nil_append]
      unfold fractionPart
      split
      next heq =>
        have hdot := (h.stop_fraction hrest '.' (by rw [heq]; rfl)).2
        exact absurd rfl hdot
      next => rfl
    · have hnext : ∀ c ∈ (exponent ++ rest).head?, c.isDigit = false :=
        fun c hc => (h.stop_fraction hrest c hc).1
      rw [List.cons_append, fractionPart, takeWhile_append_of_stop hdigits hnext,
        dropWhile_append_of_stop hdigits hnext]
  rw [Lexeme.mantissaPart, takeWhile_append_of_stop h.whole hstop,
    dropWhile_append_of_stop h.whole hstop, hfraction]

theorem Numeral.exponentPart (h : Numeral whole fraction exponent)
    (hrest : Delimited rest) :
    exponentPart (exponent ++ rest) = (exponent, rest) := by
  have hdigit : ∀ c ∈ rest.head?, c.isDigit = false := by
    intro c hc
    exact not_isDigit_of_delimiter
      (List.mem_cons_of_mem _ (List.mem_cons_of_mem _ (hrest c hc)))
  rcases h.exponent with rfl | ⟨sign, digits, hsign, hne, rfl, hdigits⟩
  · rw [List.nil_append]
    unfold Lexeme.exponentPart
    split
    next e sign others =>
      have hmem : e ∈ delimiters := hrest e rfl
      have hall : delimiters.all (fun d => !(d == 'e' || d == 'E')) = true := by decide
      have hletter : (e == 'e' || e == 'E') = false := by
        simpa only [Bool.not_eq_true'] using List.all_eq_true.mp hall e hmem
      simp [hletter]
    next => rfl
  · have htake := takeWhile_append_of_stop hdigits hdigit
    have hdrop := dropWhile_append_of_stop hdigits hdigit
    obtain ⟨d, ds, rfl⟩ := List.exists_cons_of_ne_nil hne
    rcases hsign with rfl | rfl
    · have hd : d.isDigit = true := hdigits d List.mem_cons_self
      have hplus : d ≠ '+' := ne_of_class hd (by decide)
      have hminus : d ≠ '-' := ne_of_class hd (by decide)
      rw [List.cons_append] at htake hdrop
      simp [Lexeme.exponentPart, hplus, hminus, htake, hdrop]
    · rw [List.cons_append] at htake hdrop
      simp [Lexeme.exponentPart, htake, hdrop]

theorem Numeral.numberLexeme (h : Numeral whole fraction exponent)
    (hrest : Delimited rest) :
    numberLexeme dialect (whole ++ (fraction ++ (exponent ++ rest))) =
      (.number (String.ofList (whole ++ fraction ++ exponent)), rest) := by
  have hextends : extendsNumber dialect exponent rest = false := by
    cases rest with
    | nil => simp [extendsNumber]
    | cons c cs =>
        have hword := not_isWordRest_of_delimiter dialect
          (List.mem_cons_of_mem _ (hrest c (by simp)))
        simp [extendsNumber, hword]
  rw [Lexeme.numberLexeme, h.mantissaPart hrest]
  simp only [h.exponentPart hrest, hextends, Bool.false_eq_true, if_false]

theorem scans_number (h : Numeral whole fraction exponent) (hrest : Delimited rest)
    {lexemes : List Lexeme} (hscans : Scans dialect rest lexemes) :
    Scans dialect (whole ++ (fraction ++ (exponent ++ rest)))
      (.number (String.ofList (whole ++ fraction ++ exponent)) :: lexemes) := by
  have hlexeme : Lexeme.numberLexeme dialect _ = _ := h.numberLexeme hrest
  have hlength : rest.length < (whole ++ (fraction ++ (exponent ++ rest))).length := by
    have hwhole := List.length_pos_iff.mpr h.whole_ne
    simp only [List.length_append]
    omega
  obtain ⟨c, cs, rfl⟩ := List.exists_cons_of_ne_nil h.whole_ne
  have hc : c.isDigit = true := h.whole c List.mem_cons_self
  have hne : ∀ d, d.isDigit = false → c ≠ d := fun d => ne_of_class hc
  have hplain : Text.isPlainRest c = true := by
    simp [Text.isPlainRest, Char.isAlphanum, hc]
  refine Scans.lexeme ?_ ?_ hlength hscans
  · exact blankPart?_eq_none _ (hne '-' (by decide)) (hne '/' (by decide))
      (not_isBlank_of_plain hplain)
  · rw [List.cons_append, lexemePart, lookup_marks_eq_none (hne '"' (by decide))
      (hne '\x60' (by decide)) (hne '[' (by decide))]
    simp only [hne '\'' (by decide), hne '"' (by decide), hc, decide_false,
      Bool.or_false, Bool.false_eq_true, if_false, Bool.true_or, if_true]
    exact congrArg some hlexeme

end Numbers

end Lexeme

end MetricSql
