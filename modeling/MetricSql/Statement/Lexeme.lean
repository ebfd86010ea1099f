import MetricSql.Dialect.Basic
import MetricSql.Text.Blank

/-!
# Lexemes

The words, numbers, strings and symbols of SQL text.  Blanks and comments separate them.
-/

namespace MetricSql

inductive Lexeme where
  /-- A keyword or a bare identifier. -/
  | word (text : String)
  /-- A quoted identifier. -/
  | name (text : String)
  | number (text : String)
  | string (text : String)
  | symbol (text : String)
deriving Repr, DecidableEq

namespace Lexeme

/-- The marks that open a quoted identifier and close it. -/
def marks : Dialect → List (Char × Char)
  | .mysql => [('\x60', '\x60')]
  | .tsql | .redshift => [('"', '"'), ('[', ']')]
  | .postgres | .snowflake => [('"', '"')]
  | .duckdb | .bigquery | .databricks => [('"', '"'), ('\x60', '\x60')]

/-- Text up to a closing mark, where the mark written twice stands for itself. -/
def unquote (closing : Char) : List Char → Option (List Char × List Char)
  | [] => none
  | c :: rest =>
    if c = closing then
      match rest with
      | d :: rest =>
        if d = closing then (unquote closing rest).map fun (text, rest) => (closing :: text, rest)
        else some ([], d :: rest)
      | [] => some ([], [])
    else (unquote closing rest).map fun (text, rest) => (c :: text, rest)

/-- A letter; every character beyond ASCII counts as one unless it is blank. -/
def isLetter (c : Char) : Bool := c.isAlpha || (127 < c.toNat && !Text.isBlank c)

/-- The characters that a bare word can start with. -/
def isWordStart (dialect : Dialect) (c : Char) : Bool :=
  match dialect with
  | .duckdb | .postgres => isLetter c || c == '_'
  | .snowflake => c.isAlpha || c == '_'
  | .redshift => isLetter c || c == '_' || c == '#'
  | .mysql => isLetter c || c == '_' || c == '$' || c == '@'
  | .tsql | .bigquery | .databricks => isLetter c || c == '_' || c == '#' || c == '@'

/-- The characters that a bare word can go on with. -/
def isWordRest (dialect : Dialect) (c : Char) : Bool :=
  isWordStart dialect c || c.isDigit || c == '$'

/-- The exponent of a number, empty when no digit follows. -/
def exponentPart : List Char → List Char × List Char
  | e :: sign :: rest =>
    if e == 'e' || e == 'E' then
      if sign == '+' || sign == '-' then
        match rest.takeWhile Char.isDigit with
        | [] => ([], e :: sign :: rest)
        | digits => (e :: sign :: digits, rest.dropWhile Char.isDigit)
      else
        match (sign :: rest).takeWhile Char.isDigit with
        | [] => ([], e :: sign :: rest)
        | digits => (e :: digits, (sign :: rest).dropWhile Char.isDigit)
    else ([], e :: sign :: rest)
  | text => ([], text)

def fractionPart : List Char → List Char × List Char
  | '.' :: rest => ('.' :: rest.takeWhile Char.isDigit, rest.dropWhile Char.isDigit)
  | text => ([], text)

/-- The digits at the front of the text, with a point among them perhaps. -/
def mantissaPart (text : List Char) : List Char × List Char :=
  let (fraction, rest) := fractionPart (text.dropWhile Char.isDigit)
  (text.takeWhile Char.isDigit ++ fraction, rest)

/-- The symbols of two characters. -/
def longSymbols : List String := [">=", "<=", "<>", "!=", "||", "::"]

def symbolPart (c : Char) : List Char → Lexeme × List Char
  | d :: rest =>
    let pair := String.ofList [c, d]
    if longSymbols.contains pair then (symbol pair, rest) else (symbol (String.ofList [c]), d :: rest)
  | [] => (symbol (String.ofList [c]), [])

/-- The text after a comment in marks. -/
def afterBlock : List Char → Option (List Char)
  | [] => none
  | '*' :: '/' :: rest => some rest
  | _ :: rest => afterBlock rest

/-- The text after the blank or comment it starts with; none inside when a comment stays open. -/
def blankPart? : List Char → Option (Option (List Char))
  | '-' :: '-' :: rest => some (some (rest.dropWhile (· != '\n')))
  | '/' :: '*' :: rest => some (afterBlock rest)
  | c :: rest => if Text.isBlank c then some (some rest) else none
  | [] => none

/-- Whether a number runs on into a word, so that both are one word. -/
def extendsNumber (dialect : Dialect) (exponent rest : List Char) : Bool :=
  dialect = .mysql && exponent.isEmpty && rest.head?.any (isWordRest dialect)

/-- A number at the front of the text, or a word that starts with digits. -/
def numberLexeme (dialect : Dialect) (text : List Char) : Lexeme × List Char :=
  let (mantissa, rest) := mantissaPart text
  let (exponent, rest) := exponentPart rest
  if extendsNumber dialect exponent rest then
    (word (String.ofList (mantissa ++ rest.takeWhile (isWordRest dialect))),
      rest.dropWhile (isWordRest dialect))
  else (number (String.ofList (mantissa ++ exponent)), rest)

def wordLexeme (dialect : Dialect) (text : List Char) : Lexeme × List Char :=
  (word (String.ofList (text.takeWhile (isWordRest dialect))), text.dropWhile (isWordRest dialect))

/-- A string after its opening quote. -/
def stringLexeme? (quote : Char) (text : List Char) : Option (Lexeme × List Char) :=
  (unquote quote text).map fun (content, rest) => (string (String.ofList content), rest)

/-- The lexeme at the front of text that starts with no blank and no comment. -/
def lexemePart (dialect : Dialect) : List Char → Option (Lexeme × List Char)
  | [] => none
  | c :: rest =>
    match (marks dialect).lookup c with
    | some closing => (unquote closing rest).map fun (text, rest) => (name (String.ofList text), rest)
    | none =>
      if c = '\'' || c = '"' then stringLexeme? c rest
      else if c.isDigit || (c = '.' && rest.head?.any Char.isDigit) then
        some (numberLexeme dialect (c :: rest))
      else if (c = 'N' || c = 'n') && rest.head? = some '\'' then stringLexeme? '\'' rest.tail
      else if isWordStart dialect c then some (wordLexeme dialect (c :: rest))
      else some (symbolPart c rest)

def scanFuel (dialect : Dialect) : Nat → List Char → Option (List Lexeme)
  | _, [] => some []
  | 0, _ => none
  | fuel + 1, text =>
    match blankPart? text with
    | some none => none
    | some (some rest) => scanFuel dialect fuel rest
    | none =>
      match lexemePart dialect text with
      | none => none
      | some (lexeme, rest) => (scanFuel dialect fuel rest).map (lexeme :: ·)

/-- The lexemes of a text, none when a quote or comment stays open. -/
def scan (dialect : Dialect) (text : List Char) : Option (List Lexeme) :=
  scanFuel dialect text.length text

end Lexeme

end MetricSql
