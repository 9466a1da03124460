import Tablewright.Text.Printable

/-! Quoted texts, as they stand in diagnostics. Single quotes are the rule; a text
that holds one and no double quote is put in double quotes instead, so that most
texts show without escapes. -/

namespace Tablewright.Text

def hexDigit (n : Nat) : Char := Nat.digitChar (n % 16)

/-- The lowest `width` hexadecimal digits of `n`. -/
def hex : Nat → Nat → List Char
  | 0, _ => []
  | width + 1, n => hex width (n / 16) ++ [hexDigit n]

/-- How one character stands between the quotes `q`. -/
def quoteChar (q c : Char) : List Char :=
  if c = q ∨ c = '\\' then ['\\', c]
  else if c = '\n' then ['\\', 'n']
  else if c = '\r' then ['\\', 'r']
  else if c = '\t' then ['\\', 't']
  else if isPrintable c then [c]
  else if c.toNat < 0x100 then ['\\', 'x'] ++ hex 2 c.toNat
  else if c.toNat < 0x10000 then ['\\', 'u'] ++ hex 4 c.toNat
  else ['\\', 'U'] ++ hex 8 c.toNat

/-- Double quotes only where they save escaping a single one. -/
def quoteMark (cs : List Char) : Char :=
  if cs.contains '\'' && !cs.contains '"' then '"' else '\''

/-- The text in quotes, every unprintable character escaped. -/
def quoted (s : String) : String :=
  let q := quoteMark s.toList
  String.ofList ([q] ++ s.toList.flatMap (quoteChar q) ++ [q])

end Tablewright.Text
