/-! Patterns of text comparison. A pattern's two wild marks, and the mark that takes their
meaning away, stand for themselves once they are escaped. -/

namespace Tablewright.Like

/-- Matches any text. -/
def anyText : Char := '%'

/-- Matches any one character. -/
def anyChar : Char := '_'

/-- Gives the character behind it its plain meaning. -/
def escapeMark : Char := '\\'

def isSpecial (c : Char) : Bool := c == escapeMark || c == anyText || c == anyChar

def escapeChar (c : Char) : List Char := if isSpecial c then [escapeMark, c] else [c]

/-- The pattern that only the text itself matches. -/
def escape (s : String) : String := String.ofList (s.toList.flatMap escapeChar)

/-- The pattern of texts that begin with a text. -/
def startingWith (s : String) : String := (escape s).push anyText

/-- The pattern of texts that hold a text. -/
def containing (s : String) : String := String.singleton anyText ++ startingWith s

end Tablewright.Like
