/-!
# The value of a number literal

A literal with a fraction or an exponent is worth its digits as one 64-bit number, times or divided by a power
of ten.  The product is rounded once more, so the value is not always the double nearest to the literal.
-/

namespace MetricSql.Decimal

/-- The digits read so far as one number below `2 ^ 64`, and the power of ten it has to be scaled by. -/
structure Digits where
  significand : Nat := 0
  exponent : Int := 0
  full : Bool := false
deriving Repr, DecidableEq

/-- A digit before the point: once the significand is full, a further digit only moves the exponent. -/
def Digits.pushWhole (d : Digits) (digit : Nat) : Digits :=
  let next := d.significand * 10 + digit
  if d.full || UInt64.size ≤ next then ⟨d.significand, d.exponent + 1, true⟩
  else ⟨next, d.exponent, false⟩

/-- A digit after the point: once the significand is full, a further digit is dropped. -/
def Digits.pushFraction (d : Digits) (digit : Nat) : Digits :=
  let next := d.significand * 10 + digit
  if d.full || UInt64.size ≤ next then ⟨d.significand, d.exponent, true⟩
  else ⟨next, d.exponent - 1, false⟩

def powerOfTen (n : Nat) : Float := Float.ofScientific 1 false n

/-- The greatest power of ten among the doubles. -/
def mostPower : Nat := 308

/-- The number `x` times ten to the `exponent`, none beyond the finite doubles. -/
def scale (x : Float) (exponent : Int) : Option Float :=
  if 0 ≤ exponent then
    if exponent.toNat ≤ mostPower then
      let product := x * powerOfTen exponent.toNat
      if product.isInf then none else some product
    else if x == 0 then some x else none
  else if (-exponent).toNat ≤ mostPower then
    some (x / powerOfTen (-exponent).toNat)
  else if x == 0 then some x
  else scale (x / powerOfTen mostPower) (exponent + mostPower)
termination_by (-exponent).toNat
decreasing_by simp only [mostPower] at *; omega

/-- The double a literal with these digits is worth. -/
def Digits.value? (d : Digits) (negative : Bool) (exponent : Int) : Option Float :=
  (scale d.significand.toUInt64.toFloat (d.exponent + exponent)).map fun x => if negative then -x else x

end MetricSql.Decimal
