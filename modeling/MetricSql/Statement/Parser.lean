import MetricSql.Dialect.Reserved
import MetricSql.Statement.Basic
import MetricSql.Statement.Lexeme

/-!
# Reading statements

A grammar of queries: expressions with the usual precedences, subqueries, joins, grouping and set operations.
A bare word is an identifier unless it is reserved; after a dot or `AS` every word is one.
-/

namespace MetricSql

namespace Statement

abbrev Input := List Lexeme

/-- Whether the input starts with the keyword, given in lower case. -/
def startsWith (keyword : String) : Input → Bool
  | .word text :: _ => lowerAscii text == keyword
  | _ => false

/-- The input after the keyword. -/
def keyword? (keyword : String) : Input → Option Input
  | .word text :: rest => if lowerAscii text == keyword then some rest else none
  | _ => none

def symbol? (text : String) : Input → Option Input
  | .symbol given :: rest => if given = text then some rest else none
  | _ => none

/-- The input without the keyword, if it is there. -/
def skipKeyword (keyword : String) (input : Input) : Input := (keyword? keyword input).getD input

/-- An identifier that is quoted or not reserved. -/
def identifier? : Input → Option (String × Input)
  | .name text :: rest => some (text, rest)
  | .word text :: rest => if isReserved text then none else some (text, rest)
  | _ => none

/-- An identifier where no keyword can stand. -/
def anyIdentifier? : Input → Option (String × Input)
  | .name text :: rest => some (text, rest)
  | .word text :: rest => some (text, rest)
  | _ => none

/-- The names after further dots. -/
def pathRest : Input → List String × Input
  | .symbol "." :: .name text :: rest =>
    let (names, rest) := pathRest rest
    (text :: names, rest)
  | .symbol "." :: .word text :: rest =>
    let (names, rest) := pathRest rest
    (text :: names, rest)
  | input => ([], input)

/-- Names with dots between them. -/
def path? (input : Input) : Option (List String × Input) :=
  (identifier? input).map fun (first, rest) =>
    let (names, rest) := pathRest rest
    (first :: names, rest)

/-- An alias, with or without `AS`. -/
def aliasName? (input : Input) : Option (Option String × Input) :=
  match keyword? "as" input with
  | some rest => (anyIdentifier? rest).map fun (name, rest) => (some name, rest)
  | none =>
    match identifier? input with
    | some (name, rest) => some (some name, rest)
    | none => some (none, input)

/-- How strongly the operators bind; the weakest come first. -/
def orLevel : Nat := 1

def andLevel : Nat := 2

def notLevel : Nat := 3

def compareLevel : Nat := 4

def sumLevel : Nat := 5

def productLevel : Nat := 6

def symbolLevel? (text : String) : Option Nat :=
  if ["=", ">=", "<=", "<", ">", "<>", "!="].contains text then some compareLevel
  else if ["+", "-", "||"].contains text then some sumLevel
  else if ["*", "/", "%"].contains text then some productLevel
  else none

/-- The operator at the front of the input, with its level. -/
def operator? : Input → Option (String × Nat × Input)
  | .symbol text :: rest => (symbolLevel? text).map fun level => (text, level, rest)
  | .word text :: rest =>
    if lowerAscii text = "or" then some ("or", orLevel, rest)
    else if lowerAscii text = "and" then some ("and", andLevel, rest)
    else none
  | _ => none

/-- The words of a type, with a size in parentheses passed over. -/
def typeName? (input : Input) : Option (List String × Input) :=
  match input with
  | .word first :: rest =>
    let (words, rest) :=
      match rest with
      | .word second :: rest => ([first, second], rest)
      | _ => ([first], rest)
    match rest with
    | .symbol "(" :: .number _ :: .symbol ")" :: rest => some (words, rest)
    | .symbol "(" :: .number _ :: .symbol "," :: .number _ :: .symbol ")" :: rest => some (words, rest)
    | _ => some (words, rest)
  | _ => none

/-- The end of a test against null: the keyword `IS` has been read. -/
def isNullRest? (input : Input) : Option (Bool × Input) :=
  match keyword? "not" input with
  | some rest => (keyword? "null" rest).map fun rest => (true, rest)
  | none => (keyword? "null" input).map fun rest => (false, rest)

mutual

/-- An expression whose operators all bind more strongly than `level`. -/
def term? : Nat → Nat → Input → Option (Term × Input)
  | 0, _, _ => none
  | fuel + 1, level, input => do
    let (first, rest) ← operand? fuel input
    continue? fuel level first rest

/-- The expression continued by operators that bind more strongly than `level`. -/
def continue? : Nat → Nat → Term → Input → Option (Term × Input)
  | 0, _, _, _ => none
  | fuel + 1, level, left, input =>
    match keyword? "is" input with
    | some rest =>
      if level < compareLevel then do
        let (negated, rest) ← isNullRest? rest
        continue? fuel level (.isNull left negated) rest
      else some (left, input)
    | none =>
      match operator? input with
      | some (op, binding, rest) =>
        if level < binding then do
          let (right, rest) ← term? fuel binding rest
          continue? fuel level (.binary op left right) rest
        else some (left, input)
      | none => some (left, input)

/-- An expression without operators around it. -/
def operand? : Nat → Input → Option (Term × Input)
  | 0, _ => none
  | fuel + 1, input =>
    match input with
    | .number text :: rest => some (.number text, rest)
    | .string text :: rest => some (.string text, rest)
    | .symbol "-" :: rest => (term? fuel productLevel rest).map fun (t, rest) => (.unary "-" t, rest)
    | .symbol "+" :: rest => (term? fuel productLevel rest).map fun (t, rest) => (.unary "+" t, rest)
    | .symbol "(" :: rest => do
      let (inner, rest) ← term? fuel 0 rest
      let rest ← symbol? ")" rest
      some (.paren inner, rest)
    | .word text :: rest =>
      match lowerAscii text with
      | "null" => some (.null, rest)
      | "true" => some (.truth true, rest)
      | "false" => some (.truth false, rest)
      | "not" => (term? fuel notLevel rest).map fun (t, rest) => (.unary "not" t, rest)
      | "case" => case? fuel rest
      | "cast" => cast? fuel rest
      | "extract" =>
        match rest with
        | .symbol "(" :: _ => extract? fuel rest
        | _ => pathOrCall? fuel input
      | _ => pathOrCall? fuel input
    | _ => pathOrCall? fuel input

/-- A column or the call of a function.  Before a parenthesis a reserved word names a function. -/
def pathOrCall? : Nat → Input → Option (Term × Input)
  | 0, _ => none
  | fuel + 1, input =>
    match input with
    | .word text :: .symbol "(" :: rest => call? fuel [text] rest
    | _ => do
      let (names, rest) ← path? input
      match rest with
      | .symbol "(" :: rest => call? fuel names rest
      | _ => some (.path names, rest)

/-- The arguments of a call after its opening parenthesis, and what may follow it. -/
def call? : Nat → List String → Input → Option (Term × Input)
  | 0, _, _ => none
  | fuel + 1, names, input => do
    let distinct := startsWith "distinct" input
    let (args, rest) ← args? fuel (skipKeyword "distinct" input)
    match keyword? "within" rest with
    | none => some (.call names distinct args none, rest)
    | some rest =>
      let rest ← keyword? "group" rest
      let rest ← symbol? "(" rest
      let rest ← keyword? "order" rest
      let rest ← keyword? "by" rest
      let (order, rest) ← term? fuel 0 rest
      let rest ← symbol? ")" rest
      some (.call names distinct args (some order), rest)

/-- Arguments up to the closing parenthesis. -/
def args? : Nat → Input → Option (List Term × Input)
  | 0, _ => none
  | fuel + 1, input =>
    match input with
    | .symbol ")" :: rest => some ([], rest)
    | .symbol "*" :: .symbol ")" :: rest => some ([], rest)
    | _ => moreArgs? fuel input

def moreArgs? : Nat → Input → Option (List Term × Input)
  | 0, _ => none
  | fuel + 1, input => do
    let (first, rest) ← term? fuel 0 input
    match rest with
    | .symbol "," :: rest =>
      let (others, rest) ← moreArgs? fuel rest
      some (first :: others, rest)
    | .symbol ")" :: rest => some ([first], rest)
    | _ => none

/-- A case distinction after its keyword. -/
def case? : Nat → Input → Option (Term × Input)
  | 0, _ => none
  | fuel + 1, input => do
    let (operand, rest) ←
      if startsWith "when" input then some (none, input)
      else (term? fuel 0 input).map fun (t, rest) => (some t, rest)
    let (branches, rest) ← branches? fuel rest
    match keyword? "else" rest with
    | some rest =>
      let (otherwise, rest) ← term? fuel 0 rest
      let rest ← keyword? "end" rest
      some (.case operand branches (some otherwise), rest)
    | none =>
      let rest ← keyword? "end" rest
      some (.case operand branches none, rest)

def branches? : Nat → Input → Option (List (Term × Term) × Input)
  | 0, _ => none
  | fuel + 1, input => do
    let rest ← keyword? "when" input
    let (condition, rest) ← term? fuel 0 rest
    let rest ← keyword? "then" rest
    let (result, rest) ← term? fuel 0 rest
    if startsWith "when" rest then
      let (others, rest) ← branches? fuel rest
      some ((condition, result) :: others, rest)
    else some ([(condition, result)], rest)

/-- A cast after its keyword. -/
def cast? : Nat → Input → Option (Term × Input)
  | 0, _ => none
  | fuel + 1, input => do
    let rest ← symbol? "(" input
    let (operand, rest) ← term? fuel 0 rest
    let rest ← keyword? "as" rest
    let (type, rest) ← typeName? rest
    let rest ← symbol? ")" rest
    some (.cast operand type, rest)

/-- The part of a date after the keyword `EXTRACT`. -/
def extract? : Nat → Input → Option (Term × Input)
  | 0, _ => none
  | fuel + 1, input => do
    let rest ← symbol? "(" input
    let (part, rest) ← anyIdentifier? rest
    let rest ← (keyword? "from" rest).or (symbol? "," rest)
    let (operand, rest) ← term? fuel 0 rest
    let rest ← symbol? ")" rest
    some (.extract part operand, rest)

end

/-- The relation before a star. -/
def starPath? : Input → Option (List String × Input)
  | .symbol "*" :: rest => some ([], rest)
  | .symbol "." :: rest => starPath? rest
  | .name text :: .symbol "." :: rest =>
    (starPath? rest).map fun (names, rest) => (text :: names, rest)
  | .word text :: .symbol "." :: rest =>
    (starPath? rest).map fun (names, rest) => (text :: names, rest)
  | _ => none

def projection? (fuel : Nat) (input : Input) : Option (Projection × Input) :=
  match starPath? input with
  | some (names, rest) => some (.all names, rest)
  | none => do
    let (term, rest) ← term? fuel 0 input
    let (aliasName, rest) ← aliasName? rest
    some (.term term aliasName, rest)

/-- Entries with commas between them. -/
def commaList? (entry : Input → Option (α × Input)) : Nat → Input → Option (List α × Input)
  | 0, _ => none
  | fuel + 1, input => do
    let (first, rest) ← entry input
    match rest with
    | .symbol "," :: rest =>
      let (others, rest) ← commaList? entry fuel rest
      some (first :: others, rest)
    | _ => some ([first], rest)

/-- A clause that may be missing: its keywords and an expression. -/
def optionalTerm? (fuel : Nat) (keyword : String) (input : Input) : Option (Option Term × Input) :=
  match keyword? keyword input with
  | some rest => (term? fuel 0 rest).map fun (t, rest) => (some t, rest)
  | none => some (none, input)

/-- The input after the keywords `GROUP BY` or `ORDER BY`. -/
def byClause? (keyword : String) (input : Input) : Option Input :=
  (keyword? keyword input).bind (keyword? "by")

def groupBy? (fuel : Nat) (input : Input) : Option (GroupList × Input) :=
  match byClause? "group" input with
  | none => some (.terms [], input)
  | some rest =>
    match keyword? "all" rest with
    | some rest => some (.all, rest)
    | none => (commaList? (term? fuel 0) fuel rest).map fun (terms, rest) => (.terms terms, rest)

def orderTerm? (fuel : Nat) (input : Input) : Option (Term × Input) :=
  (term? fuel 0 input).map fun (t, rest) => (t, skipKeyword "desc" (skipKeyword "asc" rest))

/-- The input after `ORDER BY` and `LIMIT`, if they are there. -/
def tail? (fuel : Nat) (input : Input) : Option Input := do
  let rest ←
    match byClause? "order" input with
    | none => some input
    | some rest => (commaList? (orderTerm? fuel) fuel rest).map Prod.snd
  (optionalTerm? fuel "limit" rest).map Prod.snd

/-- The keywords of a join. -/
def joinKeywords? (input : Input) : Option Input :=
  match keyword? "join" input with
  | some rest => some rest
  | none =>
    match (keyword? "inner" input).or (keyword? "cross" input) with
    | some rest => keyword? "join" rest
    | none =>
      match (keyword? "left" input).or ((keyword? "right" input).or (keyword? "full" input)) with
      | some rest => keyword? "join" (skipKeyword "outer" rest)
      | none => none

def startsJoin (input : Input) : Bool :=
  ["join", "inner", "cross", "left", "right", "full"].any fun keyword => startsWith keyword input

/-- The condition of a join, which may be missing. -/
def joinCondition? (fuel : Nat) (input : Input) : Option Input :=
  match keyword? "using" input with
  | some rest => do
    let rest ← symbol? "(" rest
    let (_, rest) ← commaList? identifier? fuel rest
    symbol? ")" rest
  | none => (optionalTerm? fuel "on" input).map Prod.snd

/-- The keywords of a set operation. -/
def setOperation? (input : Input) : Option Input :=
  ((keyword? "union" input).or ((keyword? "except" input).or (keyword? "intersect" input))).map fun rest =>
    skipKeyword "distinct" (skipKeyword "all" rest)

mutual

/-- A query: selections under set operations, then an order and a limit. -/
def query? : Nat → Input → Option (Body × Input)
  | 0, _ => none
  | fuel + 1, input => do
    let (first, rest) ← select? fuel input
    let (body, rest) ← combine? fuel first rest
    let rest ← tail? fuel rest
    some (body, rest)

def combine? : Nat → Body → Input → Option (Body × Input)
  | 0, _, _ => none
  | fuel + 1, left, input =>
    match setOperation? input with
    | none => some (left, input)
    | some rest => do
      let (right, rest) ← select? fuel rest
      combine? fuel (.combined left right) rest

def select? : Nat → Input → Option (Body × Input)
  | 0, _ => none
  | fuel + 1, input => do
    let rest ← keyword? "select" input
    let rest := skipKeyword "distinct" rest
    let (projections, rest) ← commaList? (projection? fuel) fuel rest
    let (factors, rest) ←
      match keyword? "from" rest with
      | some rest => factors? fuel rest
      | none => some ([], rest)
    let (_, rest) ← optionalTerm? fuel "where" rest
    let (groupBy, rest) ← groupBy? fuel rest
    let (_, rest) ← optionalTerm? fuel "having" rest
    some (.select projections factors groupBy, rest)

/-- The relations of a query: joined ones and further ones after commas. -/
def factors? : Nat → Input → Option (List Factor × Input)
  | 0, _ => none
  | fuel + 1, input => do
    let (first, rest) ← factor? fuel input
    let (joined, rest) ← joins? fuel rest
    match rest with
    | .symbol "," :: rest =>
      let (others, rest) ← factors? fuel rest
      some (first :: joined ++ others, rest)
    | _ => some (first :: joined, rest)

def joins? : Nat → Input → Option (List Factor × Input)
  | 0, _ => none
  | fuel + 1, input =>
    if startsJoin input then do
      let rest ← joinKeywords? input
      let (factor, rest) ← factor? fuel rest
      let rest ← joinCondition? fuel rest
      let (others, rest) ← joins? fuel rest
      some (factor :: others, rest)
    else some ([], input)

def factor? : Nat → Input → Option (Factor × Input)
  | 0, _ => none
  | fuel + 1, input =>
    match input with
    | .symbol "(" :: rest => do
      let (body, rest) ← query? fuel rest
      let rest ← symbol? ")" rest
      let (aliasName, rest) ← aliasName? rest
      some (.derived body aliasName, rest)
    | _ => do
      let (names, rest) ← path? input
      let (aliasName, rest) ← aliasName? rest
      some (.table names aliasName, rest)

end

def one? (fuel : Nat) (input : Input) : Option (Statement × Input) :=
  match keyword? "drop" input with
  | some rest => do
    let rest ← keyword? "table" rest
    let (names, rest) ← path? rest
    some (.dropTable names, rest)
  | none => (query? fuel input).map fun (body, rest) => (.query body, rest)

/-- Statements separated by semicolons, of which there may be more than needed. -/
def several? : Nat → Bool → Input → Option (List Statement)
  | _, _, [] => some []
  | 0, _, _ => none
  | fuel + 1, _, .symbol ";" :: rest => several? fuel false rest
  | fuel + 1, afterStatement, input =>
    if afterStatement then none
    else do
      let (first, rest) ← one? (8 * (fuel + 1)) input
      let others ← several? fuel true rest
      some (first :: others)

/-- The statements of a text. -/
def readAll (dialect : Dialect) (text : String) : Option (List Statement) := do
  let lexemes ← Lexeme.scan dialect text.toList
  several? (2 * lexemes.length + 1) false lexemes

end Statement

end MetricSql
