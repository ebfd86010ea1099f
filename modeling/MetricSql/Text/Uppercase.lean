import MetricSql.Text.UppercaseTable

/-!
# Upper-casing

Text in upper case, character by character and in the full form: `ß` becomes `SS`.  Below 128 the mapping is
the ASCII one; above, a character is looked up among the expansions and then among the shifts.
-/

namespace MetricSql.Text

namespace Uppercase

def Shift.covers (run : Shift) (code : Nat) : Bool :=
  run.first ≤ code && code ≤ run.last && (code - run.first) % run.step == 0

/-- The code points of the upper-case form of a character outside ASCII. -/
def codesOf (code : Nat) : List Nat :=
  match expansions.lookup code with
  | some codes => codes
  | none =>
    match shifts.find? (·.covers code) with
    | some run => [(code + run.shift).toNat]
    | none => [code]

end Uppercase

/-- The upper-case form of one character. -/
def upperChar (c : Char) : List Char :=
  if c.toNat < 128 then [c.toUpper]
  else (Uppercase.codesOf c.toNat).map Char.ofNat

def upper (text : String) : String :=
  String.ofList (text.toList.flatMap upperChar)

end MetricSql.Text
