/-!
# Identifiers

Two classes of words over ASCII.  A *bare* identifier is written the same in every dialect without quotes; a
*plain* identifier may also hold capitals, so that it names a column but may still have to be quoted.
-/

namespace MetricSql.Text

def isBareStart (c : Char) : Bool := c.isLower || c == '_'

def isBareRest (c : Char) : Bool := c.isLower || c.isDigit || c == '_'

def isPlainStart (c : Char) : Bool := c.isAlpha || c == '_'

def isPlainRest (c : Char) : Bool := c.isAlphanum || c == '_'

/-- A non-empty word whose first character satisfies `start` and whose other characters satisfy `rest`. -/
def isWord (start rest : Char → Bool) : List Char → Bool
  | [] => false
  | c :: cs => start c && cs.all rest

def isBare (name : String) : Bool := isWord isBareStart isBareRest name.toList

def isPlain (name : String) : Bool := isWord isPlainStart isPlainRest name.toList

end MetricSql.Text
