import Tablewright.Store.Reading

/-! Tokens of statements. A word is as long as it can be and every other character but
white space stands alone, so a text falls apart where one of its parts ends or begins with
a character that is in no word. -/

namespace Tablewright.Sql

inductive Token where
  | word (s : String)
  | symbol (c : Char)
  deriving DecidableEq, Repr

namespace Token

open StoreStatement (isWordChar isWord)

/-- A character at the beginning of a word, in front of the rest of it. -/
def extend (c : Char) : List Token → List Token
  | word s :: ts => word (String.ofList (c :: s.toList)) :: ts
  | ts => word (String.singleton c) :: ts

def startsWord (cs : List Char) : Bool := cs.head?.any isWordChar

def ofChars : List Char → List Token
  | [] => []
  | c :: cs =>
    if isWordChar c then
      if startsWord cs then extend c (ofChars cs) else word (String.singleton c) :: ofChars cs
    else if c = ' ' then ofChars cs
    else symbol c :: ofChars cs

/-- The tokens of a text. -/
def tokens (s : String) : List Token := ofChars s.toList

/-! ## Texts side by side -/

def endsWord (cs : List Char) : Bool := cs.getLast?.any isWordChar

/-- The tokens of characters that begin with a word begin with it too. -/
theorem ofChars_of_startsWord {cs : List Char} (h : startsWord cs = true) :
    ∃ s ts, ofChars cs = word s :: ts := by
  cases cs with
  | nil => cases h
  | cons c cs =>
    have hc : isWordChar c = true := h
    rw [ofChars, if_pos hc]
    split
    · unfold extend
      split
      · exact ⟨_, _, rfl⟩
      · exact ⟨_, _, rfl⟩
    · exact ⟨_, _, rfl⟩

theorem extend_append {c : Char} {ts us : List Token} (h : ∃ s rest, ts = word s :: rest) :
    extend c (ts ++ us) = extend c ts ++ us := by
  obtain ⟨s, rest, rfl⟩ := h
  rfl

theorem ofChars_append {cs ds : List Char} (h : endsWord cs = false ∨ startsWord ds = false) :
    ofChars (cs ++ ds) = ofChars cs ++ ofChars ds := by
  induction cs with
  | nil => rfl
  | cons c cs ih =>
    rw [List.cons_append, ofChars, ofChars]
    cases cs with
    | nil =>
      by_cases hc : isWordChar c = true
      · have hds : startsWord ds = false := h.resolve_left (by simp [endsWord, hc])
        rw [List.nil_append, if_pos hc, if_pos hc, hds]
        rfl
      · simp [hc]
        split <;> simp [ofChars]
    | cons d cs =>
      have hends : endsWord (c :: d :: cs) = endsWord (d :: cs) := by
        rw [endsWord, List.getLast?_cons_cons, endsWord]
      rw [hends] at h
      have hstart : startsWord (d :: cs ++ ds) = startsWord (d :: cs) := rfl
      rw [ih h, hstart]
      split
      · split
        · rename_i hs
          exact extend_append (ofChars_of_startsWord hs)
        · rfl
      · split <;> rfl

theorem tokens_append {s t : String}
    (h : endsWord s.toList = false ∨ startsWord t.toList = false) :
    tokens (s ++ t) = tokens s ++ tokens t := by
  rw [tokens, String.toList_append, ofChars_append h, tokens, tokens]

/-- A word is one token. -/
theorem ofChars_word {cs : List Char} (hne : cs ≠ []) (h : cs.all isWordChar = true) :
    ofChars cs = [word (String.ofList cs)] := by
  induction cs with
  | nil => exact absurd rfl hne
  | cons c cs ih =>
    rw [List.all_cons, Bool.and_eq_true] at h
    rw [ofChars, if_pos h.1]
    cases cs with
    | nil => rfl
    | cons d cs =>
      have hd : startsWord (d :: cs) = true := by
        have := h.2
        rw [List.all_cons, Bool.and_eq_true] at this
        exact this.1
      rw [if_pos hd, ih (by simp) h.2, extend, String.toList_ofList]

theorem tokens_word {s : String} (h : isWord s = true) : tokens s = [word s] := by
  rw [isWord, Bool.and_eq_true, bne_iff_ne] at h
  have hne : s.toList ≠ [] := by
    intro hs
    exact h.1 (String.toList_inj.mp (by rw [hs]; rfl))
  rw [tokens, ofChars_word hne h.2, String.ofList_toList]

end Token

end Tablewright.Sql
