/-!
# Doubles as exact numbers

A double is not a number, an infinity, or a sign with a magnitude `mantissa * 2 ^ exponent`.
-/

namespace MetricSql.Decimal

/-- The magnitude `mantissa * 2 ^ exponent` of a finite double.  The double below is half as far away as the
one above exactly when `narrowBelow` holds. -/
structure Magnitude where
  mantissa : Nat
  exponent : Int
  narrowBelow : Bool
deriving Repr, DecidableEq

inductive Reading where
  | notANumber
  | infinite (negative : Bool)
  | finite (negative : Bool) (magnitude : Magnitude)
deriving Repr, DecidableEq

/-- The reading of the 64 bits of a double. -/
def Reading.ofBits (bits : Nat) : Reading :=
  let negative := bits / Nat.pow 2 63 == 1
  let scale := bits / Nat.pow 2 52 % 2048
  let fraction := bits % Nat.pow 2 52
  if scale = 2047 then
    if fraction = 0 then .infinite negative else .notANumber
  else if scale = 0 then
    .finite negative ⟨fraction, -1074, false⟩
  else
    .finite negative ⟨Nat.pow 2 52 + fraction, (scale : Int) - 1075, fraction == 0 && 1 < scale⟩

def read (x : Float) : Reading := .ofBits x.toBits.toNat

def isFinite (x : Float) : Bool :=
  match read x with
  | .finite .. => true
  | _ => false

/-- The sign bit, which a zero has too. -/
def isNegative (x : Float) : Bool :=
  match read x with
  | .finite negative _ => negative
  | .infinite negative => negative
  | .notANumber => false

end MetricSql.Decimal
