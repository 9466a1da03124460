import Mathlib.Data.List.Infix
import Tablewright.Filter.Like

/-! What patterns match. An escaped text in a pattern matches itself and nothing else, so
what a pattern made of it matches is decided by the wild marks around it. Capitals are
taken of pattern and text alike: as long as they leave the special characters alone, they
can be taken of the text before it is escaped. -/

namespace Tablewright

namespace Like

/-- Whether a text matches a pattern in which some character takes the meaning of the one
behind it away. -/
def accepts (escape : Char) : List Char → List Char → Bool
  | [], s => s.isEmpty
  | p :: ps, s =>
    if p = escape then
      match ps, s with
      | q :: qs, c :: cs => c == q && accepts escape qs cs
      | _, _ => false
    else if p = anyText then s.tails.any (accepts escape ps)
    else
      match s with
      | c :: cs => (p == anyChar || c == p) && accepts escape ps cs
      | [] => false

/-- Whether no escape is left without a character behind it. -/
def isComplete (escape : Char) : List Char → Bool
  | [] => true
  | p :: ps =>
    if p = escape then
      match ps with
      | _ :: qs => isComplete escape qs
      | [] => false
    else isComplete escape ps

/-- The characters of an escaped text. -/
def escaped (s : List Char) : List Char := s.flatMap escapeChar

theorem accepts_nil {e : Char} {s : List Char} : accepts e [] s = true ↔ s = [] := by
  rw [accepts, List.isEmpty_iff]

theorem accepts_escape {q : Char} {qs s : List Char} :
    accepts escapeMark (escapeMark :: q :: qs) s = true ↔
      ∃ t, s = q :: t ∧ accepts escapeMark qs t = true := by
  cases s with
  | nil => simp [accepts]
  | cons c s => simp [accepts, and_assoc]

theorem accepts_plain {p : Char} {ps s : List Char} (h : isSpecial p = false) :
    accepts escapeMark (p :: ps) s = true ↔ ∃ t, s = p :: t ∧ accepts escapeMark ps t = true := by
  have hplain : p ≠ escapeMark ∧ p ≠ anyText ∧ p ≠ anyChar := by
    simpa [isSpecial, and_assoc] using h
  rw [accepts.eq_def]
  cases s with
  | nil => simp [hplain]
  | cons c s => simp [hplain, and_assoc]

theorem accepts_anyText {ps s : List Char} :
    accepts escapeMark (anyText :: ps) s = true ↔ ∃ t, t <:+ s ∧ accepts escapeMark ps t = true := by
  have hmark : anyText ≠ escapeMark := by decide
  rw [accepts.eq_def]
  simp [hmark]

/-- One character of an escaped text matches itself. -/
theorem accepts_escapeChar {c : Char} {ps s : List Char} :
    accepts escapeMark (escapeChar c ++ ps) s = true ↔
      ∃ t, s = c :: t ∧ accepts escapeMark ps t = true := by
  unfold escapeChar
  split
  · exact accepts_escape
  · rename_i hc
    exact accepts_plain (Bool.eq_false_iff.mpr hc)

theorem accepts_escaped {t ps s : List Char} :
    accepts escapeMark (escaped t ++ ps) s = true ↔
      ∃ u, s = t ++ u ∧ accepts escapeMark ps u = true := by
  induction t generalizing s with
  | nil => simp [escaped]
  | cons c t ih =>
    have hcons : escaped (c :: t) ++ ps = escapeChar c ++ (escaped t ++ ps) := by
      rw [escaped, List.flatMap_cons, List.append_assoc]
      rfl
    rw [hcons, accepts_escapeChar]
    constructor
    · rintro ⟨u, rfl, hu⟩
      obtain ⟨v, rfl, hv⟩ := ih.mp hu
      exact ⟨v, rfl, hv⟩
    · rintro ⟨v, rfl, hv⟩
      exact ⟨t ++ v, rfl, ih.mpr ⟨v, rfl, hv⟩⟩

theorem accepts_startingWith {t s : List Char} :
    accepts escapeMark (escaped t ++ [anyText]) s = true ↔ t <+: s := by
  rw [accepts_escaped]
  constructor
  · rintro ⟨u, rfl, -⟩
    exact List.prefix_append t u
  · rintro ⟨u, rfl⟩
    exact ⟨u, rfl, accepts_anyText.mpr ⟨[], List.nil_suffix, accepts_nil.mpr rfl⟩⟩

theorem accepts_containing {t s : List Char} :
    accepts escapeMark (anyText :: (escaped t ++ [anyText])) s = true ↔ t <:+: s := by
  rw [accepts_anyText]
  constructor
  · rintro ⟨u, hu, ht⟩
    exact (accepts_startingWith.mp ht).isInfix.trans hu.isInfix
  · rintro ⟨front, back, rfl⟩
    refine ⟨t ++ back, ⟨front, by rw [List.append_assoc]⟩, ?_⟩
    exact accepts_startingWith.mpr (List.prefix_append t back)

theorem isComplete_escaped {t ps : List Char} :
    isComplete escapeMark (escaped t ++ ps) = isComplete escapeMark ps := by
  induction t with
  | nil => rfl
  | cons c t ih =>
    rw [escaped, List.flatMap_cons, List.append_assoc, ← escaped, ← ih]
    unfold escapeChar
    split
    · simp [isComplete]
    · rename_i hc
      have hplain : c ≠ escapeMark := by
        rintro rfl
        exact hc rfl
      rw [List.singleton_append, isComplete.eq_def]
      simp [hplain]

/-- An escaped text that anything may follow. -/
theorem isComplete_leading {t : List Char} : isComplete escapeMark (escaped t ++ [anyText]) = true := by
  rw [isComplete_escaped]
  rfl

/-- An escaped text with anything around it. -/
theorem isComplete_around {t : List Char} :
    isComplete escapeMark (anyText :: (escaped t ++ [anyText])) = true := by
  rw [isComplete.eq_def]
  exact isComplete_leading

theorem escape_toList (s : String) : (escape s).toList = escaped s.toList := by
  rw [escape, String.toList_ofList, escaped]

theorem startingWith_toList (s : String) :
    (startingWith s).toList = escaped s.toList ++ [anyText] := by
  rw [startingWith, String.toList_push, escape_toList]

end Like

/-- Capitals as a database takes them: character by character. Those that mean something in
a pattern have no case, and no other character has one of them as its capital. -/
structure Casing where
  upper : String → String
  upper_append : ∀ s t, upper (s ++ t) = upper s ++ upper t
  upper_special : ∀ c, Like.isSpecial c = true →
    upper (String.singleton c) = String.singleton c
  upper_plain : ∀ c, Like.isSpecial c = false →
    ∀ d ∈ (upper (String.singleton c)).toList, Like.isSpecial d = false

namespace Casing

open Like

variable (u : Casing)

theorem upper_empty : u.upper "" = "" := by
  have h := congrArg String.length (u.upper_append "" "")
  rw [String.append_empty, String.length_append] at h
  exact String.length_eq_zero_iff.mp (by omega)

theorem escaped_of_plain {s : List Char} (h : ∀ c ∈ s, isSpecial c = false) : escaped s = s := by
  induction s with
  | nil => rfl
  | cons c s ih =>
    have hc : escapeChar c = [c] := if_neg (by simp [h c List.mem_cons_self])
    rw [escaped, List.flatMap_cons, ← escaped, ih fun d hd => h d (List.mem_cons_of_mem c hd), hc]
    rfl

theorem upper_escapeChar (c : Char) :
    (u.upper (String.ofList (escapeChar c))).toList =
      escaped (u.upper (String.singleton c)).toList := by
  cases hc : isSpecial c with
  | true =>
    have hmark : u.upper (String.singleton escapeMark) = String.singleton escapeMark :=
      u.upper_special escapeMark rfl
    have htext : String.ofList (escapeChar c) = String.singleton escapeMark ++ String.singleton c := by
      simp [escapeChar, hc]
    rw [htext, u.upper_append, hmark, u.upper_special c hc]
    simp [escaped, escapeChar, hc]
  | false =>
    rw [escaped_of_plain (u.upper_plain c hc)]
    simp [escapeChar, hc]

/-- Capitals are taken of an escaped text as if they were taken before. -/
theorem upper_escaped (s : List Char) :
    (u.upper (String.ofList (escaped s))).toList = escaped (u.upper (String.ofList s)).toList := by
  induction s with
  | nil => simp [escaped, upper_empty]
  | cons c s ih =>
    have hs : String.ofList (c :: s) = String.singleton c ++ String.ofList s := by simp
    have hescaped : String.ofList (escaped (c :: s)) =
        String.ofList (escapeChar c) ++ String.ofList (escaped s) := by simp [escaped]
    have hc := u.upper_escapeChar c
    rw [hs, hescaped, u.upper_append, u.upper_append, String.toList_append, String.toList_append, ih,
      hc, escaped, escaped, escaped, List.flatMap_append]

theorem upper_startingWith (s : String) :
    (u.upper (startingWith s)).toList = escaped (u.upper s).toList ++ [anyText] := by
  have htext : startingWith s = String.ofList (escaped s.toList) ++ String.singleton anyText := by
    rw [← String.toList_inj, startingWith_toList]
    simp
  rw [htext, u.upper_append, u.upper_special anyText rfl, String.toList_append, u.upper_escaped,
    String.ofList_toList, String.toList_singleton]

theorem upper_containing (s : String) :
    (u.upper (containing s)).toList = anyText :: (escaped (u.upper s).toList ++ [anyText]) := by
  rw [containing, u.upper_append, u.upper_special anyText rfl, String.toList_append,
    upper_startingWith, String.toList_singleton]
  rfl

theorem toNat_toUpper {c : Char} (h : 'a'.val ≤ c.val ∧ c.val ≤ 'z'.val) :
    65 ≤ c.toUpper.toNat ∧ c.toUpper.toNat ≤ 90 := by
  have hlow : 97 ≤ c.val.toNat := UInt32.le_iff_toNat_le.mp h.1
  have hhigh : c.val.toNat ≤ 122 := UInt32.le_iff_toNat_le.mp h.2
  have hval : c.toUpper.val = c.val + ('A'.val - 'a'.val) := by
    change Char.val (dite _ _ _) = _
    rw [dif_pos h]
  have hshift : ('A'.val - 'a'.val).toNat = 4294967264 := by decide
  rw [Char.toNat, hval, UInt32.toNat_add, hshift]
  omega

/-- The capital of a letter that has one is a letter. -/
theorem isSpecial_toUpper {c : Char} (h : isSpecial c = false) : isSpecial c.toUpper = false := by
  by_cases hc : 'a'.val ≤ c.val ∧ c.val ≤ 'z'.val
  · obtain ⟨hlow, hhigh⟩ := toNat_toUpper hc
    rw [Bool.eq_false_iff]
    intro hs
    simp only [isSpecial, Bool.or_eq_true, beq_iff_eq] at hs
    rcases hs with (hs | hs) | hs <;> rw [hs] at hlow hhigh
    · exact absurd hhigh (by decide)
    · exact absurd hlow (by decide)
    · exact absurd hhigh (by decide)
  · have hkept : c.toUpper = c := dif_neg hc
    rwa [hkept]

/-- Capitals of the English letters. -/
def ascii : Casing where
  upper s := String.ofList (s.toList.map Char.toUpper)
  upper_append s t := by rw [String.toList_append, List.map_append, String.ofList_append]
  upper_special c h := by
    simp only [isSpecial, Bool.or_eq_true, beq_iff_eq] at h
    rcases h with (rfl | rfl) | rfl <;> decide
  upper_plain c h d hd := by
    rw [String.toList_ofList, String.toList_singleton, List.map_singleton, List.mem_singleton] at hd
    rw [hd]
    exact isSpecial_toUpper h

end Casing

end Tablewright
