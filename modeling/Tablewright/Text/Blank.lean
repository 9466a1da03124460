/-! White space and trimming. Input is trimmed before it is read, so which
characters count as white space decides which texts are values and which are
missing. The set is Unicode's white space together with the four information
separators U+001C to U+001F. -/

namespace Tablewright.Text

/-- White space at either end of a text is no part of the value it spells. -/
def isBlank (c : Char) : Bool :=
  let n := c.toNat
  (9 ≤ n && n ≤ 13) || (28 ≤ n && n ≤ 32) || n == 0x85 || n == 0xA0 || n == 0x1680 ||
    (0x2000 ≤ n && n ≤ 0x200A) || n == 0x2028 || n == 0x2029 || n == 0x202F ||
    n == 0x205F || n == 0x3000

def trimStart (cs : List Char) : List Char := cs.dropWhile isBlank

def trimEnd (cs : List Char) : List Char := (cs.reverse.dropWhile isBlank).reverse

def trim (cs : List Char) : List Char := trimEnd (trimStart cs)

/-- The text without white space at its ends. -/
def strip (s : String) : String := String.ofList (trim s.toList)

/-- A text that neither begins nor ends with white space stays as it is. -/
theorem strip_eq {s : String} {c d : Char} (hfront : s.toList.head? = some c)
    (hback : s.toList.getLast? = some d) (hc : isBlank c = false) (hd : isBlank d = false) :
    strip s = s := by
  have hstart : trimStart s.toList = s.toList := by
    cases h : s.toList with
    | nil => rfl
    | cons x xs =>
      rw [h] at hfront
      cases hfront
      rw [trimStart, List.dropWhile_cons_of_neg (by simp [hc])]
  have hend : trimEnd s.toList = s.toList := by
    rw [List.getLast?_eq_head?_reverse] at hback
    rw [trimEnd]
    cases h : s.toList.reverse with
    | nil => simpa using h.symm
    | cons x xs =>
      rw [h] at hback
      cases hback
      rw [List.dropWhile_cons_of_neg (by simp [hd]), ← h, List.reverse_reverse]
  rw [strip, trim, hstart, hend, String.ofList_toList]

/-- The text without white space at its end. -/
def stripEnd (s : String) : String := String.ofList (trimEnd s.toList)

/-- A text that holds nothing but white space counts as absent. -/
def isBlankText (s : String) : Bool := s.toList.all isBlank

/-- White space in the narrower sense of declarations and integers, which does not
know the information separators. -/
def isSpace (c : Char) : Bool := isBlank c && !(28 ≤ c.toNat && c.toNat ≤ 31)

def isAsciiBlank (c : Char) : Bool := isSpace c && c.toNat < 128

/-- The text without `isSpace` characters at its ends. -/
def stripSpace (cs : List Char) : List Char :=
  ((cs.dropWhile isSpace).reverse.dropWhile isSpace).reverse

end Tablewright.Text
