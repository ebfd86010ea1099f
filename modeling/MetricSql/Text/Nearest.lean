/-!
# Near misses

The edit distance of two texts (insertions, deletions and substitutions of one character) and the candidate
that is nearest to a misspelt name.
-/

namespace MetricSql.Text

namespace EditDistance

/-- One row of the distance table continued to the right: `left` is the entry before it, and the given row
holds the entries diagonally above and above. -/
def continueRow (c : Char) (left : Nat) : List Char → List Nat → List Nat
  | r :: rs, diagonal :: above :: row =>
    let entry := min (min (above + 1) (left + 1)) (diagonal + if c = r then 0 else 1)
    entry :: continueRow c entry rs (above :: row)
  | _, _ => []

/-- The row after one more character of the left text. -/
def nextRow (right : List Char) (row : List Nat) (c : Char) : List Nat :=
  let first := row.headD 0 + 1
  first :: continueRow c first right row

end EditDistance

/-- Entry `j` of the last row is the distance of `left` from the first `j` characters of `right`. -/
def editDistance (left right : List Char) : Nat :=
  (left.foldl (EditDistance.nextRow right) (List.range (right.length + 1))).getLastD 0

/-- The distance of two names when ASCII capitals do not count. -/
def nameDistance (left right : String) : Nat :=
  editDistance (left.toList.map Char.toLower) (right.toList.map Char.toLower)

/-- How far a suggestion may be from the name that was given. -/
def farthest : Nat := 3

/-- The better of the best candidate so far and a new one; the earlier wins a draw. -/
def nearer (name : String) (best : Option (Nat × String)) (candidate : String) : Option (Nat × String) :=
  let distance := nameDistance name candidate
  if farthest < distance then best
  else
    match best with
    | some (least, _) => if least ≤ distance then best else some (distance, candidate)
    | none => some (distance, candidate)

/-- The first of the candidates nearest to `name`, none when all are too far. -/
def nearest? (name : String) (candidates : List String) : Option String :=
  (candidates.foldl (nearer name) none).map Prod.snd

end MetricSql.Text
