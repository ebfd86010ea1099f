import MetricSql.Proofs.Lexeme.Number
import MetricSql.Token

/-!
# Scanning written tokens

Every token that is not a blank or a comment is written as certain lexemes.  In a
sequence of tokens the text of one must not run into the text of the next; which
tokens may follow each other is a relation on neighbours, `Token.mayPrecede`.  The
text of a sequence in which neighbours fit is scanned into the lexemes of its
tokens, one after the other.
-/

namespace MetricSql

/-! ## Lexemes of a token -/

/-- Whether a name is written without quotes. -/
def Profile.writesBare (profile : Profile) (name : String) : Bool :=
  decide (profile.quoting = .whenRequired) && (Text.isBare name && !isReserved name)

def Profile.identifier (profile : Profile) (name : String) : Lexeme :=
  if profile.writesBare name then .word name else .name name

theorem Profile.quoteIdentifier_eq (profile : Profile) (name : String) :
    profile.quoteIdentifier name =
      if profile.writesBare name then name else profile.dialect.quoteIdentifier name := by
  unfold Profile.quoteIdentifier Profile.writesBare
  cases profile.quoting <;> simp

/-- A written identifier starts with neither a digit nor a minus sign. -/
theorem Profile.quoteIdentifier_head (profile : Profile) (name : String) :
    ∃ c cs, (profile.quoteIdentifier name).toList = c :: cs ∧ c.isDigit = false ∧
      c ≠ '-' := by
  rw [Profile.quoteIdentifier_eq]
  by_cases hbare : profile.writesBare name = true
  · have hplain : Text.isPlain name = true := by
      simp only [Profile.writesBare, Bool.and_eq_true] at hbare
      exact isPlain_of_isBare hbare.2.1
    unfold Text.isPlain at hplain
    cases hchars : name.toList with
    | nil =>
        rw [hchars] at hplain
        cases hplain
    | cons c cs =>
        rw [hchars] at hplain
        simp only [Text.isWord, Bool.and_eq_true] at hplain
        exact ⟨c, cs, by simp [hbare, hchars], not_isDigit_of_plainStart hplain.1,
          ne_of_class hplain.1 (by decide)⟩
  · refine ⟨profile.dialect.identifierMarks.1,
      Text.doubled profile.dialect.identifierMarks.2 name.toList ++
        [profile.dialect.identifierMarks.2], ?_, ?_, ?_⟩
    · simp [hbare, Dialect.quoteIdentifier, Text.quoted]
    · cases profile.dialect <;> decide
    · cases profile.dialect <;> decide

/-- The words of a text that has single spaces between them. -/
def wordsOf (text : String) : List (List Char) := text.toList.splitOn ' '

def wordLexemes (text : String) : List Lexeme :=
  (wordsOf text).map fun word => .word (String.ofList word)

/-- A number and the sign before it. -/
def signedNumber (negative : Bool) (text : List Char) : List Lexeme :=
  if negative then [.symbol "-", .number (String.ofList text)]
  else [.number (String.ofList text)]

namespace Token

/-- What is written for a token, blanks and comments left out.  A number that is
not finite is never written. -/
def lexemes (profile : Profile) : Token → List Lexeme
  | keyword word => wordLexemes word.text
  | symbol s => [.symbol s.text]
  | space | newline | indent _ | comment _ => []
  | ident name => [profile.identifier name]
  | qualifiedIdent (some schema) name =>
    [profile.identifier schema, .symbol ".", profile.identifier name]
  | qualifiedIdent none name => [profile.identifier name]
  | int value => signedNumber (decide (value < 0)) (Decimal.digitsOf value.toInt.natAbs)
  | float value =>
    match Decimal.read value with
    | .finite negative m => signedNumber negative (Decimal.literalLayout.magnitudeText m)
    | _ => [.number "NaN"]
  | string text => [.string text]
  | function name => [.word (Text.upper name)]
  | verbatim text => wordLexemes text
  | raw _ => []

/-- Whether words of the dialect are words, and nothing is taken from a model as it
stands. -/
def isWritten : Token → Bool
  | function name => Text.isPlain (Text.upper name)
  | verbatim text => (wordsOf text).all (Text.isWord Text.isPlainStart Text.isPlainRest)
  | raw _ => false
  | _ => true

/-! ## Neighbours -/

/-- The tokens that end whatever stands before them. -/
def isDelimiter : Token → Bool
  | space | newline | symbol .comma | symbol .lparen | symbol .rparen => true
  | _ => false

/-- The tokens that can follow a minus sign without opening a comment. -/
def startsUnsigned : Token → Bool
  | space | newline | symbol .lparen | keyword _ | ident _ | function _ => true
  | int value => 0 ≤ value
  | float value => !Decimal.isNegative value
  | _ => false

def mayPrecede : Token → Token → Bool
  | symbol .minus, next => next.startsUnsigned
  | symbol .slash, space => true
  | symbol .lt, space => true
  | symbol .dot, ident _ => true
  | symbol .slash, _ => false
  | symbol .lt, _ => false
  | symbol .dot, _ => false
  | symbol _, _ => true
  | space, _ => true
  | newline, _ => true
  | indent _, _ => true
  | comment _, newline => true
  | comment _, _ => false
  | ident _, symbol .dot => true
  | _, next => next.isDelimiter

/-- What the text after a token must not start with. -/
def Ends (rest : List Char) : Token → Prop
  | symbol .minus => rest.head? ≠ some '-'
  | symbol .slash => rest.head? = some ' '
  | symbol .lt => rest.head? = some ' '
  | symbol .dot => ∀ c ∈ rest.head?, c.isDigit = false
  | symbol _ | space | newline | indent _ => True
  | comment _ => rest.head? = some '\n'
  | ident _ => Dotted rest
  | _ => Delimited rest

/-- The text of a delimiter starts with one. -/
theorem isDelimiter_head {profile : Profile} {token : Token} {text : String}
    (htoken : token.isDelimiter = true) (htext : token.text profile = .ok text) :
    ∃ c cs, text.toList = c :: cs ∧ c ∈ delimiters := by
  unfold isDelimiter at htoken
  split at htoken
  next =>
    cases htext
    exact ⟨' ', [], rfl, by decide⟩
  next =>
    cases htext
    exact ⟨'\n', [], rfl, by decide⟩
  next =>
    cases htext
    exact ⟨',', [], rfl, by decide⟩
  next =>
    cases htext
    exact ⟨'(', [], rfl, by decide⟩
  next =>
    cases htext
    exact ⟨')', [], rfl, by decide⟩
  next => cases htoken

theorem delimited_of_isDelimiter {profile : Profile} {token : Token} {text : String}
    (htoken : token.isDelimiter = true) (htext : token.text profile = .ok text)
    (rest : List Char) : Delimited (text.toList ++ rest) := by
  obtain ⟨c, cs, hchars, hc⟩ := isDelimiter_head htoken htext
  intro d hd
  have heq : d = c := by simpa [hchars] using hd.symm
  rw [heq]
  exact hc

/-! ## Scanning one token -/

section Scan

variable {profile : Profile} {rest : List Char} {lexemes : List Lexeme}

theorem scans_identifier (name : String) (hrest : Dotted rest)
    (h : Lexeme.Scans profile.dialect rest lexemes) :
    Lexeme.Scans profile.dialect ((profile.quoteIdentifier name).toList ++ rest)
      (profile.identifier name :: lexemes) := by
  rw [Profile.quoteIdentifier_eq, Profile.identifier]
  by_cases hbare : profile.writesBare name = true
  · have hname : Text.isBare name = true := by
      simp only [Profile.writesBare, Bool.and_eq_true] at hbare
      exact hbare.2.1
    have hword : Text.isWord Text.isPlainStart Text.isPlainRest name.toList = true :=
      isPlain_of_isBare hname
    simpa [hbare] using Lexeme.scans_word hword hrest h
  · simpa [hbare] using Lexeme.scans_name hrest h

theorem scans_wordLexemes {text : String}
    (hwords : (wordsOf text).all (Text.isWord Text.isPlainStart Text.isPlainRest) = true)
    (hrest : Dotted rest) (h : Lexeme.Scans profile.dialect rest lexemes) :
    Lexeme.Scans profile.dialect (text.toList ++ rest) (wordLexemes text ++ lexemes) := by
  have htext : text.toList = [' '].intercalate (wordsOf text) :=
    (List.intercalate_splitOn ' ').symm
  rw [htext]
  exact Lexeme.scans_words (List.splitOn_ne_nil ' ' text.toList)
    (by simpa using hwords) hrest h

theorem scans_signedNumber {negative : Bool} {text : List Char}
    (htext : Decimal.IsNumeral text) (hrest : Delimited rest)
    (h : Lexeme.Scans profile.dialect rest lexemes) :
    Lexeme.Scans profile.dialect ((if negative then '-' :: text else text) ++ rest)
      (signedNumber negative text ++ lexemes) := by
  have hnumber := Lexeme.scans_numeral htext hrest h
  cases negative with
  | false => simpa [signedNumber] using hnumber
  | true =>
      obtain ⟨c, cs, rfl, hc⟩ := htext.head_isDigit
      have hminus : c ≠ '-' := ne_of_class hc (by decide)
      exact Lexeme.scans_symbol (Lexeme.symbolEnds_minus (by simpa using hminus)) hnumber

theorem scans_symbolToken {s : Symbol} (hends : (symbol s).Ends rest)
    (h : Lexeme.Scans profile.dialect rest lexemes) :
    Lexeme.Scans profile.dialect (s.text.toList ++ rest) (.symbol s.text :: lexemes) := by
  cases s with
  | gtEq => exact Lexeme.scans_atLeast h
  | minus => exact Lexeme.scans_symbol (Lexeme.symbolEnds_minus hends) h
  | slash => exact Lexeme.scans_symbol (Lexeme.symbolEnds_of_space (.inl rfl) hends) h
  | lt => exact Lexeme.scans_symbol (Lexeme.symbolEnds_of_space (.inr rfl) hends) h
  | dot => exact Lexeme.scans_symbol (Lexeme.symbolEnds_dot hends) h
  | comma => exact Lexeme.scans_symbol (Lexeme.symbolEnds_of_mem (by decide)) h
  | lparen => exact Lexeme.scans_symbol (Lexeme.symbolEnds_of_mem (by decide)) h
  | rparen => exact Lexeme.scans_symbol (Lexeme.symbolEnds_of_mem (by decide)) h
  | eq => exact Lexeme.scans_symbol (Lexeme.symbolEnds_of_mem (by decide)) h
  | plus => exact Lexeme.scans_symbol (Lexeme.symbolEnds_of_mem (by decide)) h
  | star => exact Lexeme.scans_symbol (Lexeme.symbolEnds_of_mem (by decide)) h

theorem scans_comment {text : String} (hends : rest.head? = some '\n')
    (h : Lexeme.Scans profile.dialect rest lexemes) :
    Lexeme.Scans profile.dialect ((commentText text).toList ++ rest) lexemes := by
  obtain ⟨more, rfl⟩ : ∃ more, rest = '\n' :: more := by
    cases rest with
    | nil => cases hends
    | cons c cs => exact ⟨cs, by simpa using hends⟩
  set line := ' ' :: text.toList.map fun c => if c = '\r' ∨ c = '\n' then ' ' else c
    with hline
  have hnewline : ∀ c ∈ line, c ≠ '\n' := by
    intro c hc
    rw [hline] at hc
    rcases List.mem_cons.mp hc with rfl | hc
    · decide
    · obtain ⟨d, -, rfl⟩ := List.mem_map.mp hc
      split
      next => decide
      next hd => exact fun heq => hd (.inr heq)
  have htext : (commentText text).toList ++ '\n' :: more =
      '-' :: '-' :: (line ++ '\n' :: more) := by
    simp [commentText, hline]
  rw [htext]
  exact h.comment hnewline

theorem intText_eq_signed (value : Int64) :
    (intText value).toList =
      if decide (value < 0) then '-' :: Decimal.digitsOf value.toInt.natAbs
      else Decimal.digitsOf value.toInt.natAbs := by
  have hlt : value < 0 ↔ value.toInt < 0 := by
    simpa using Int64.lt_iff_toInt_lt (x := value) (y := 0)
  rw [intText, String.toList_ofList]
  cases hvalue : value.toInt with
  | ofNat n => simp [hlt, hvalue, Decimal.intText]
  | negSucc n => simp [hlt, hvalue, Decimal.intText, Int.negSucc_lt_zero]

theorem floatText_eq_ok {value : Float} {text : String} (h : floatText value = .ok text) :
    ∃ negative m, Decimal.read value = .finite negative m ∧
      text = String.ofList (Decimal.literalLayout.signed negative m) := by
  unfold floatText at h
  split at h
  next => cases h
  next => cases h
  next negative m hread =>
    cases h
    exact ⟨negative, m, hread, rfl⟩

/-- A token is scanned as its lexemes. -/
theorem scans_token {token : Token} {text : String} (hwritten : token.isWritten = true)
    (htext : token.text profile = .ok text) (hends : token.Ends rest)
    (h : Lexeme.Scans profile.dialect rest lexemes) :
    Lexeme.Scans profile.dialect (text.toList ++ rest)
      (token.lexemes profile ++ lexemes) := by
  cases token with
  | keyword word =>
      cases htext
      refine scans_wordLexemes ?_ (Delimited.dotted hends) h
      cases word <;> decide
  | symbol s =>
      cases htext
      exact scans_symbolToken hends h
  | space =>
      cases htext
      exact h.space (.inl rfl)
  | newline =>
      cases htext
      exact h.space (.inr rfl)
  | indent levels =>
      cases htext
      rw [indentText, String.toList_ofList]
      exact h.spaces
  | comment line =>
      cases htext
      exact scans_comment hends h
  | ident name =>
      cases htext
      exact scans_identifier name hends h
  | qualifiedIdent schema name =>
      cases htext
      have hname := scans_identifier name (Delimited.dotted hends) h
      cases schema with
      | none => exact hname
      | some schema =>
          obtain ⟨c, cs, hchars, hdigit, -⟩ := profile.quoteIdentifier_head name
          have hdot := Lexeme.scans_symbol (Lexeme.symbolEnds_dot (by
            rw [hchars]
            simpa using hdigit)) hname
          have hschema := scans_identifier schema (by simp [Dotted]) hdot
          simpa [qualifiedText, Token.lexemes] using hschema
  | int value =>
      cases htext
      rw [intText_eq_signed]
      exact scans_signedNumber (Decimal.isNumeral_digitsOf _) hends h
  | float value =>
      obtain ⟨negative, m, hread, rfl⟩ := floatText_eq_ok htext
      rw [Token.lexemes, hread, String.toList_ofList]
      exact scans_signedNumber (Decimal.isNumeral_magnitudeText m) hends h
  | string content =>
      cases htext
      exact Lexeme.scans_string (Delimited.dotted hends) h
  | function name =>
      cases htext
      simpa [Token.lexemes] using
        Lexeme.scans_word hwritten (Delimited.dotted hends) h
  | verbatim content =>
      cases htext
      exact scans_wordLexemes hwritten (Delimited.dotted hends) h
  | raw sql => cases hwritten

end Scan

/-! ## Scanning a sequence -/

theorem isNumeral_head {text : List Char} (h : Decimal.IsNumeral text) :
    ∃ c cs, text = c :: cs ∧ c ≠ '-' := by
  obtain ⟨c, cs, rfl, hc⟩ := h.head_isDigit
  exact ⟨c, cs, rfl, ne_of_class hc (by decide)⟩

theorem startsUnsigned_head {profile : Profile} {token : Token} {text : String}
    (htoken : token.startsUnsigned = true) (hwritten : token.isWritten = true)
    (htext : token.text profile = .ok text) :
    ∃ c cs, text.toList = c :: cs ∧ c ≠ '-' := by
  cases token with
  | space =>
      cases htext
      exact ⟨' ', [], rfl, by decide⟩
  | newline =>
      cases htext
      exact ⟨'\n', [], rfl, by decide⟩
  | symbol s =>
      cases htext
      cases s with
      | lparen => exact ⟨'(', [], rfl, by decide⟩
      | _ => cases htoken
  | keyword word =>
      cases htext
      cases word <;> exact ⟨_, _, rfl, by decide⟩
  | ident name =>
      cases htext
      obtain ⟨c, cs, hchars, -, hc⟩ := profile.quoteIdentifier_head name
      exact ⟨c, cs, hchars, hc⟩
  | function name =>
      cases htext
      simp only [isWritten, Text.isPlain] at hwritten
      cases hchars : (Text.upper name).toList with
      | nil =>
          rw [hchars] at hwritten
          cases hwritten
      | cons c cs =>
          rw [hchars] at hwritten
          simp only [Text.isWord, Bool.and_eq_true] at hwritten
          exact ⟨c, cs, rfl, ne_of_class hwritten.1 (by decide)⟩
  | int value =>
      cases htext
      have hvalue : ¬ value < 0 := by simpa [startsUnsigned] using htoken
      rw [intText_eq_signed]
      simpa [hvalue] using isNumeral_head (Decimal.isNumeral_digitsOf _)
  | float value =>
      obtain ⟨negative, m, hread, rfl⟩ := floatText_eq_ok htext
      have hnegative : negative = false := by
        simpa [startsUnsigned, Decimal.isNegative, hread] using htoken
      rw [String.toList_ofList, hnegative]
      exact isNumeral_head (Decimal.isNumeral_magnitudeText m)
  | _ => cases htoken

/-- Tokens that fit leave each other alone in the text. -/
theorem ends_of_mayPrecede {profile : Profile} {token next : Token} {text : String}
    (hfits : token.mayPrecede next = true) (hwritten : next.isWritten = true)
    (htext : next.text profile = .ok text) (rest : List Char) :
    token.Ends (text.toList ++ rest) := by
  have hdelimiter : next.isDelimiter = true → Delimited (text.toList ++ rest) :=
    fun h => delimited_of_isDelimiter h htext rest
  have hspace : next = .space → (text.toList ++ rest).head? = some ' ' := by
    rintro rfl
    cases htext
    rfl
  cases token with
  | symbol s =>
      cases s with
      | minus =>
          obtain ⟨c, cs, hchars, hc⟩ := startsUnsigned_head hfits hwritten htext
          simpa [Ends, hchars] using hc
      | slash =>
          apply hspace
          cases next <;> simp [mayPrecede] at hfits ⊢
      | lt =>
          apply hspace
          cases next <;> simp [mayPrecede] at hfits ⊢
      | dot =>
          cases next with
          | ident name =>
              cases htext
              obtain ⟨c, cs, hchars, hdigit, -⟩ := profile.quoteIdentifier_head name
              intro d hd
              have heq : d = c := by simpa [hchars] using hd.symm
              rw [heq]
              exact hdigit
          | _ => cases hfits
      | _ => trivial
  | space => trivial
  | newline => trivial
  | indent levels => trivial
  | comment line =>
      cases next with
      | newline =>
          cases htext
          rfl
      | _ => cases hfits
  | ident name =>
      cases next with
      | symbol s =>
          cases s with
          | dot =>
              cases htext
              intro c hc
              have heq : c = '.' := by simpa [Symbol.text] using hc.symm
              rw [heq]
              decide
          | _ => exact (hdelimiter hfits).dotted
      | _ => exact (hdelimiter hfits).dotted
  | keyword word => exact hdelimiter hfits
  | qualifiedIdent schema name => exact hdelimiter hfits
  | int value => exact hdelimiter hfits
  | float value => exact hdelimiter hfits
  | string content => exact hdelimiter hfits
  | function name => exact hdelimiter hfits
  | verbatim content => exact hdelimiter hfits
  | raw sql => exact hdelimiter hfits

/-- The tokens after which every delimiter can stand. -/
def closes (token : Token) : Prop :=
  ∀ next : Token, next.isDelimiter = true → token.mayPrecede next = true

theorem ends_of_closes {token : Token} (htoken : token.closes) {rest : List Char}
    (hrest : Delimited rest) : token.Ends rest := by
  have hnewline := htoken .newline rfl
  have hspace := htoken .space rfl
  cases token with
  | symbol s =>
      cases s with
      | minus =>
          intro hhead
          exact absurd (hrest '-' hhead) (by decide)
      | slash => cases hnewline
      | lt => cases hnewline
      | dot => cases hnewline
      | _ => trivial
  | space => trivial
  | newline => trivial
  | indent levels => trivial
  | comment line => cases hspace
  | ident name => exact hrest.dotted
  | _ => exact hrest

end Token

/-- Neighbours fit, and every delimiter can follow. -/
structure Spaced (tokens : List Token) : Prop where
  written : ∀ token ∈ tokens, token.isWritten = true
  chain : ∀ next : Token, next.isDelimiter = true →
    (tokens ++ [next]).IsChain fun token next => token.mayPrecede next = true

theorem Token.textAll_cons_eq_ok {profile : Profile} {token : Token} {tokens : List Token}
    {text : String} (h : Token.textAll profile (token :: tokens) = .ok text) :
    ∃ first others, token.text profile = .ok first ∧
      Token.textAll profile tokens = .ok others ∧ text = first ++ others := by
  rw [Token.textAll] at h
  cases hfirst : token.text profile with
  | error cause =>
      rw [hfirst] at h
      cases h
  | ok first =>
      rw [hfirst] at h
      cases hothers : Token.textAll profile tokens with
      | error cause =>
          rw [hothers] at h
          cases h
      | ok others =>
          rw [hothers] at h
          cases h
          exact ⟨first, others, rfl, rfl, rfl⟩

/-- The text of tokens that fit is scanned into their lexemes. -/
theorem Spaced.scans {profile : Profile} {tokens : List Token} (htokens : Spaced tokens)
    {text : String} (htext : Token.textAll profile tokens = .ok text) {rest : List Char}
    {lexemes : List Lexeme} (hrest : Delimited rest)
    (h : Lexeme.Scans profile.dialect rest lexemes) :
    Lexeme.Scans profile.dialect (text.toList ++ rest)
      (tokens.flatMap (Token.lexemes profile) ++ lexemes) := by
  induction tokens generalizing text with
  | nil =>
      cases htext
      simpa using h
  | cons token tokens ih =>
      obtain ⟨first, others, hfirst, hothers, rfl⟩ := Token.textAll_cons_eq_ok htext
      have hmore : Spaced tokens := by
        refine ⟨fun t ht => htokens.written t (List.mem_cons_of_mem _ ht), ?_⟩
        intro next hnext
        exact (htokens.chain next hnext).tail
      have hends : token.Ends (others.toList ++ rest) := by
        cases tokens with
        | nil =>
            cases hothers
            refine Token.ends_of_closes (fun next hnext => ?_) hrest
            simpa using htokens.chain next hnext
        | cons second tokens =>
            obtain ⟨text, _, hsecond, -, rfl⟩ := Token.textAll_cons_eq_ok hothers
            have hfits : token.mayPrecede second = true := by
              have hchain := htokens.chain .space rfl
              simp only [List.cons_append, List.isChain_cons_cons] at hchain
              exact hchain.1
            have hwritten := hmore.written second List.mem_cons_self
            rw [String.toList_append, List.append_assoc]
            exact Token.ends_of_mayPrecede hfits hwritten hsecond _
      have hwritten := htokens.written token List.mem_cons_self
      have hscans := Token.scans_token hwritten hfirst hends (ih hmore hothers)
      simpa using hscans

end MetricSql
