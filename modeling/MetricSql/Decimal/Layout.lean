import MetricSql.Decimal.Shortest

/-!
# Number formats

Two ways to write a double: the form of number literals in SQL, and the form of numbers in messages.
-/

namespace MetricSql.Decimal

/-- How the shortest decimal of a double is written. -/
structure Layout where
  /-- Positional notation is used while the decimal point stands after this many digits at least; `none` means
  without limit. -/
  leastPoint : Option Int
  /-- And while it stands after this many digits at most; `none` means without limit. -/
  mostPoint : Option Int
  /-- Whether a whole number ends in `.0`. -/
  wholeMark : Bool
  tie : Tie

/-- Number literals: `1.0`, `0.00001`, `1e-6`, `1234567890123456.0`, `1.5e16`. -/
def literalLayout : Layout := ⟨some (-4), some 16, true, .toEven⟩

/-- Numbers in messages never have an exponent, and whole numbers have no point. -/
def messageLayout : Layout := ⟨none, none, false, .up⟩

def digitsOf (n : Nat) : List Char := Nat.toDigits 10 n

def zeros (n : Nat) : List Char := List.replicate n '0'

/-- Positional notation with the point after `point` digits, perhaps before the first or after the last. -/
def positional (wholeMark : Bool) (digits : List Char) (point : Int) : List Char :=
  if point ≤ 0 then
    '0' :: '.' :: (zeros (-point).toNat ++ digits)
  else if (digits.length : Int) ≤ point then
    digits ++ zeros (point.toNat - digits.length) ++ if wholeMark then ['.', '0'] else []
  else
    digits.take point.toNat ++ '.' :: digits.drop point.toNat

/-- The text of an integer, with a sign only when it is negative. -/
def intText (n : Int) : List Char :=
  match n with
  | .ofNat n => digitsOf n
  | .negSucc n => '-' :: digitsOf (n + 1)

/-- One digit, the other digits after a point, and the exponent. -/
def exponential (digits : List Char) (point : Int) : List Char :=
  match digits with
  | [] => []
  | [d] => d :: 'e' :: intText (point - 1)
  | d :: rest => d :: '.' :: (rest ++ 'e' :: intText (point - 1))

def Layout.positionalAt (l : Layout) (point : Int) : Bool :=
  l.leastPoint.all (· ≤ point) && l.mostPoint.all (point ≤ ·)

def Layout.magnitudeText (l : Layout) (m : Magnitude) : List Char :=
  if m.mantissa = 0 then
    if l.wholeMark then ['0', '.', '0'] else ['0']
  else
    let s := m.shortest l.tie
    let digits := digitsOf s.coefficient
    let point := digits.length + s.exponent
    if l.positionalAt point then positional l.wholeMark digits point else exponential digits point

def Layout.signed (l : Layout) (negative : Bool) (m : Magnitude) : List Char :=
  if negative then '-' :: l.magnitudeText m else l.magnitudeText m

/-- The text of a finite double, none for the others. -/
def Layout.text? (l : Layout) (x : Float) : Option String :=
  match read x with
  | .finite negative m => some (String.ofList (l.signed negative m))
  | _ => none

/-- The text of any double in a message. -/
def messageText (x : Float) : String :=
  match read x with
  | .notANumber => "NaN"
  | .infinite negative => if negative then "-inf" else "inf"
  | .finite negative m => String.ofList (messageLayout.signed negative m)

end MetricSql.Decimal
