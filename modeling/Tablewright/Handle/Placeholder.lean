/-! Marks for bound values. The engine writes a question mark; a connection wants a
percent sign with a letter, and every other percent sign written twice. A mark inside a
quoted literal is text. -/

namespace Tablewright.Placeholder

def quote : Char := '\''

/-- The characters from some point on, which is inside a literal or not. -/
def encodeFrom : Bool → List Char → List Char
  | _, [] => []
  | inLiteral, c :: cs =>
    if c = quote then c :: encodeFrom (!inLiteral) cs
    else if c = '%' then '%' :: '%' :: encodeFrom inLiteral cs
    else if c = '?' ∧ ¬ inLiteral then '%' :: 's' :: encodeFrom inLiteral cs
    else c :: encodeFrom inLiteral cs

/-- A statement with the marks that a connection wants. -/
def encode (sql : String) : String := String.ofList (encodeFrom false sql.toList)

end Tablewright.Placeholder
