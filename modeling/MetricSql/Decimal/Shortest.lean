import MetricSql.Decimal.Binary

/-!
# The fewest digits

The decimal numbers that read back as a given double are those of an interval around it.  Its shortest decimal
is sought on grids of one, two, three, ... significant digits: the first grid with a point of the interval
wins, and of its two points around the double the nearer one.
-/

namespace MetricSql.Decimal

/-- The number `coefficient * 10 ^ exponent`. -/
structure Scientific where
  coefficient : Nat
  exponent : Int
deriving Repr, DecidableEq

/-- What happens halfway between two grid points. -/
inductive Tie where
  | toEven
  | up
deriving Repr, DecidableEq

/-- The interval from `low / unit` to `high / unit` of the reals that round to `centre / unit`; its ends belong
to it when `closed` holds. -/
structure Interval where
  low : Nat
  centre : Nat
  high : Nat
  unit : Nat
  closed : Bool

def Magnitude.interval (m : Magnitude) : Interval :=
  let up := Nat.pow 2 (m.exponent - 2).toNat
  { low := (4 * m.mantissa - if m.narrowBelow then 1 else 2) * up
    centre := 4 * m.mantissa * up
    high := (4 * m.mantissa + 2) * up
    unit := Nat.pow 2 (2 - m.exponent).toNat
    closed := m.mantissa % 2 == 0 }

def decimalLength (n : Nat) : Nat := (Nat.toDigits 10 n).length

/-- The exponent of the power of ten at or below the centre. -/
def Interval.magnitude (i : Interval) : Int :=
  if i.unit ≤ i.centre then
    (decimalLength (i.centre / i.unit) : Int) - 1
  else
    let places := decimalLength i.unit - decimalLength i.centre
    if i.unit ≤ i.centre * Nat.pow 10 places then -(places : Int) else -(places : Int) - 1

/-- Whether `coefficient * 10 ^ exponent` lies in the interval. -/
def Interval.contains (i : Interval) (s : Scientific) : Bool :=
  let up := Nat.pow 10 s.exponent.toNat
  let down := Nat.pow 10 (-s.exponent).toNat
  let point := s.coefficient * up * i.unit
  if i.closed then i.low * down ≤ point && point ≤ i.high * down
  else i.low * down < point && point < i.high * down

/-- The point of the grid `10 ^ exponent` in the interval that is nearest to the centre, if there is one. -/
def Interval.nearestOn? (i : Interval) (tie : Tie) (exponent : Int) : Option Scientific :=
  let up := Nat.pow 10 exponent.toNat
  let down := Nat.pow 10 (-exponent).toNat
  let step := up * i.unit
  let centre := i.centre * down
  let below := centre / step
  let lower : Scientific := ⟨below, exponent⟩
  let upper : Scientific := ⟨below + 1, exponent⟩
  match i.contains lower, i.contains upper with
  | true, true =>
    let twice := 2 * (centre - below * step)
    if twice < step then some lower
    else if step < twice then some upper
    else
      match tie with
      | .toEven => some (if below % 2 = 0 then lower else upper)
      | .up => some upper
  | true, false => some lower
  | false, true => some upper
  | false, false => none

/-- Seventeen significant digits always suffice. -/
def mostDigits : Nat := 17

/-- Without zeros at the end of the coefficient. -/
def Scientific.stripped : Nat → Scientific → Scientific
  | 0, s => s
  | fuel + 1, s =>
    if s.coefficient ≠ 0 ∧ s.coefficient % 10 = 0 then
      stripped fuel ⟨s.coefficient / 10, s.exponent + 1⟩
    else s

/-- The shortest decimal of a positive magnitude. -/
def Magnitude.shortest (m : Magnitude) (tie : Tie) : Scientific :=
  let i := m.interval
  let top := i.magnitude
  let found := (List.range mostDigits).findSome? fun (digits : Nat) => i.nearestOn? tie (top - digits)
  match found with
  | some s => s.stripped (mostDigits + 1)
  | none => ⟨i.centre / i.unit, 0⟩

end MetricSql.Decimal
