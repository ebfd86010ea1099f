/-!
# Quoted text

Text between an opening and a closing mark, in which the closing mark is written twice.
-/

namespace MetricSql.Text

/-- The text with every `mark` written twice. -/
def doubled (mark : Char) : List Char → List Char
  | [] => []
  | c :: cs => if c = mark then mark :: mark :: doubled mark cs else c :: doubled mark cs

def quoted (opening closing : Char) (text : String) : String :=
  String.ofList (opening :: (doubled closing text.toList ++ [closing]))

end MetricSql.Text
