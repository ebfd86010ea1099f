/-!
# Strings, keys and gaps of TOML

The pieces of a line: strings in their four styles, keys with dots, comments and line breaks.
-/

namespace MetricSql.Document.Toml

def isSpace (c : Char) : Bool := c == ' ' || c == '\t'

def skip (text : List Char) : List Char := text.dropWhile isSpace

/-- The characters that comments and strings may hold. -/
def isPrintable (c : Char) : Bool := c == '\t' || (0x20 ≤ c.toNat && c.toNat != 0x7f)

/-- The text after the line break it starts with. -/
def newline? : List Char → Option (List Char)
  | '\n' :: rest => some rest
  | '\r' :: '\n' :: rest => some rest
  | _ => none

def comment : List Char → List Char
  | '#' :: rest => rest.dropWhile isPrintable
  | text => text

/-- The text after the end of a line: spaces, perhaps a comment, then a line break or nothing. -/
def lineEnd? (text : List Char) : Option (List Char) :=
  match comment (skip text) with
  | [] => some []
  | text => newline? text

/-- The text after spaces, comments and line breaks. -/
def gap (inComment : Bool) : List Char → List Char
  | [] => []
  | '\n' :: rest => gap false rest
  | '\r' :: '\n' :: rest => gap false rest
  | c :: rest =>
    if inComment then if isPrintable c then gap true rest else c :: rest
    else if c == '#' then gap true rest
    else if isSpace c then gap false rest
    else c :: rest

def hexDigit? (c : Char) : Option Nat :=
  if c.isDigit then some (c.toNat - '0'.toNat)
  else if 'a' ≤ c && c ≤ 'f' then some (c.toNat - 'a'.toNat + 10)
  else if 'A' ≤ c && c ≤ 'F' then some (c.toNat - 'A'.toNat + 10)
  else none

/-- The character with a code given in hexadecimal digits. -/
def coded? (digits : List Char) : Option Char := do
  let code ← digits.foldlM (fun n c => (hexDigit? c).map (n * 16 + ·)) 0
  if h : code.isValidChar then some (Char.ofNatAux code h) else none

def escaped? : Char → Option Char
  | 'b' => some '\x08'
  | 't' => some '\t'
  | 'n' => some '\n'
  | 'f' => some '\x0c'
  | 'r' => some '\r'
  | '"' => some '"'
  | '\\' => some '\\'
  | _ => none

/-- A string with escapes after its opening quote, and the text after its closing quote. -/
def basic? : List Char → Option (List Char × List Char)
  | [] => none
  | '"' :: rest => some ([], rest)
  | '\\' :: 'u' :: a :: b :: c :: d :: rest => do
    let first ← coded? [a, b, c, d]
    let (others, rest) ← basic? rest
    some (first :: others, rest)
  | '\\' :: 'U' :: a :: b :: c :: d :: e :: f :: g :: h :: rest => do
    let first ← coded? [a, b, c, d, e, f, g, h]
    let (others, rest) ← basic? rest
    some (first :: others, rest)
  | '\\' :: c :: rest => do
    let first ← escaped? c
    let (others, rest) ← basic? rest
    some (first :: others, rest)
  | c :: rest =>
    if isPrintable c && c != '\\' then (basic? rest).map fun (others, rest) => (c :: others, rest)
    else none

/-- A string without escapes after its opening quote. -/
def literal? : List Char → Option (List Char × List Char)
  | [] => none
  | '\'' :: rest => some ([], rest)
  | c :: rest =>
    if isPrintable c then (literal? rest).map fun (others, rest) => (c :: others, rest) else none

/-- Where a string of several lines stands at a line that was continued by a backslash. -/
inductive Continued where
  | no
  /-- Only spaces may come before the line break. -/
  | line
  /-- Spaces and line breaks are passed over. -/
  | blank

/-- A string of several lines with escapes after its opening quotes.  Up to two quotes may stand before the
closing ones. -/
def multiBasic? : Continued → List Char → Option (List Char × List Char)
  | _, [] => none
  | .line, '\n' :: rest => multiBasic? .blank rest
  | .line, '\r' :: '\n' :: rest => multiBasic? .blank rest
  | .line, c :: rest => if isSpace c then multiBasic? .line rest else none
  | .blank, '\n' :: rest => multiBasic? .blank rest
  | .blank, '\r' :: '\n' :: rest => multiBasic? .blank rest
  | .blank, ' ' :: rest => multiBasic? .blank rest
  | .blank, '\t' :: rest => multiBasic? .blank rest
  | _, '"' :: '"' :: '"' :: '"' :: '"' :: rest => some (['"', '"'], rest)
  | _, '"' :: '"' :: '"' :: '"' :: rest => some (['"'], rest)
  | _, '"' :: '"' :: '"' :: rest => some ([], rest)
  | _, '\\' :: '\n' :: rest => multiBasic? .blank rest
  | _, '\\' :: '\r' :: '\n' :: rest => multiBasic? .blank rest
  | _, '\\' :: ' ' :: rest => multiBasic? .line rest
  | _, '\\' :: '\t' :: rest => multiBasic? .line rest
  | _, '\\' :: 'u' :: a :: b :: c :: d :: rest => do
    let first ← coded? [a, b, c, d]
    let (others, rest) ← multiBasic? .no rest
    some (first :: others, rest)
  | _, '\\' :: 'U' :: a :: b :: c :: d :: e :: f :: g :: h :: rest => do
    let first ← coded? [a, b, c, d, e, f, g, h]
    let (others, rest) ← multiBasic? .no rest
    some (first :: others, rest)
  | _, '\\' :: c :: rest => do
    let first ← escaped? c
    let (others, rest) ← multiBasic? .no rest
    some (first :: others, rest)
  | _, '\r' :: '\n' :: rest => (multiBasic? .no rest).map fun (others, rest) => ('\n' :: others, rest)
  | _, c :: rest =>
    if c == '\n' || (isPrintable c && c != '\\') then
      (multiBasic? .no rest).map fun (others, rest) => (c :: others, rest)
    else none

/-- A string of several lines without escapes after its opening quotes. -/
def multiLiteral? : List Char → Option (List Char × List Char)
  | [] => none
  | '\'' :: '\'' :: '\'' :: '\'' :: '\'' :: rest => some (['\'', '\''], rest)
  | '\'' :: '\'' :: '\'' :: '\'' :: rest => some (['\''], rest)
  | '\'' :: '\'' :: '\'' :: rest => some ([], rest)
  | '\r' :: '\n' :: rest => (multiLiteral? rest).map fun (others, rest) => ('\n' :: others, rest)
  | c :: rest =>
    if c == '\n' || isPrintable c then (multiLiteral? rest).map fun (others, rest) => (c :: others, rest)
    else none

/-- The text after its first line break, if it starts with one. -/
def dropNewline (text : List Char) : List Char := (newline? text).getD text

/-- A string in any style. -/
def string? : List Char → Option (List Char × List Char)
  | '"' :: '"' :: '"' :: rest => multiBasic? .no (dropNewline rest)
  | '\'' :: '\'' :: '\'' :: rest => multiLiteral? (dropNewline rest)
  | '"' :: rest => basic? rest
  | '\'' :: rest => literal? rest
  | _ => none

def isKeyChar (c : Char) : Bool := c.isAlphanum || c == '-' || c == '_'

/-- One part of a key. -/
def keyPart? : List Char → Option (String × List Char)
  | '"' :: rest => (basic? rest).map fun (key, rest) => (String.ofList key, rest)
  | '\'' :: rest => (literal? rest).map fun (key, rest) => (String.ofList key, rest)
  | text =>
    match text.takeWhile isKeyChar with
    | [] => none
    | key => some (String.ofList key, text.dropWhile isKeyChar)

/-- A key: parts with dots between them, spaces around each. -/
def keyFuel : Nat → List Char → Option (List String × List Char)
  | 0, _ => none
  | fuel + 1, text => do
    let (part, rest) ← keyPart? (skip text)
    match skip rest with
    | '.' :: rest =>
      let (others, rest) ← keyFuel fuel rest
      some (part :: others, rest)
    | rest => some ([part], rest)

def key? (text : List Char) : Option (List String × List Char) := keyFuel text.length text

end MetricSql.Document.Toml
