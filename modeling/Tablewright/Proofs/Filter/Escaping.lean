import Tablewright.Proofs.Filter.Pattern

/-! Escaping is exact. It goes over a text once for each special character, and no pass
touches what an earlier one has put in. A pattern that is made of an escaped text holds no
escape without a character behind it, so a matcher that gives up on such an escape always
comes to an answer: whether the text was met, with anything behind it or around it where
there are wild marks. -/

namespace Tablewright.Like

/-- One character is escaped wherever it stands, and all others are left as they are. -/
def escapeOnly (special : Char) (s : List Char) : List Char :=
  s.flatMap fun c => if c = special then [escapeMark, c] else [c]

/-- The escapes are escaped first, so that those of the later passes are left alone. -/
theorem escaped_eq_passes (s : List Char) :
    escaped s = escapeOnly anyChar (escapeOnly anyText (escapeOnly escapeMark s)) := by
  simp only [escaped, escapeOnly, List.flatMap_assoc]
  refine List.flatMap_congr fun c _ => ?_
  by_cases hmark : c = escapeMark
  · subst hmark
    rfl
  by_cases htext : c = anyText
  · subst htext
    rfl
  by_cases hchar : c = anyChar
  · subst hchar
    rfl
  simp [escapeChar, isSpecial, hmark, htext, hchar]

/-- Whether a text matches a pattern. There is no answer once an escape without a character
behind it is met. -/
def scan (escape : Char) : List Char → List Char → Option Bool
  | [], s => some s.isEmpty
  | p :: ps, s =>
    if p = escape then
      match ps, s with
      | [], _ => none
      | q :: qs, c :: cs => if c = q then scan escape qs cs else some false
      | _ :: _, [] => some false
    else if p = anyText then s.tails.anyM (scan escape ps)
    else
      match s with
      | c :: cs => if p = anyChar ∨ c = p then scan escape ps cs else some false
      | [] => some false

example : scan escapeMark [anyText, 'a', escapeMark] ['b', 'a', 'b'] = none := by decide

/-- Without such an escape there is an answer for every text. -/
theorem scan_of_isComplete {e : Char} {p : List Char} (h : isComplete e p = true) (s : List Char) :
    scan e p s = some (accepts e p s) := by
  induction p using isComplete.induct e generalizing s with
  | case1 => rfl
  | case2 q qs ih =>
    rw [isComplete, if_pos rfl] at h
    rw [scan.eq_def, accepts.eq_def]
    cases s with
    | nil => simp
    | cons c cs => by_cases hc : c = q <;> simp [hc, ih h]
  | case3 => simp [isComplete] at h
  | case4 p ps hp ih =>
    rw [isComplete.eq_def] at h
    simp only [hp, if_false] at h
    have hrest : scan e ps = fun s => some (accepts e ps s) := funext (ih h)
    rw [scan.eq_def, accepts.eq_def]
    simp only [hp, if_false, hrest]
    split
    · exact List.anyM_pure
    · cases s with
      | nil => rfl
      | cons c cs => by_cases hc : p = anyChar ∨ c = p <;> simp [hc]

/-- What a pattern made of an escaped text matches is met, and nothing else. -/
theorem scan_eq {p s : List Char} {met : Prop} [Decidable met] (hp : isComplete escapeMark p = true)
    (h : accepts escapeMark p s = true ↔ met) : scan escapeMark p s = some (decide met) := by
  rw [scan_of_isComplete hp, ← Bool.decide_coe (accepts escapeMark p s), decide_eq_decide.mpr h]

theorem containing_toList (t : String) :
    (containing t).toList = anyText :: (escaped t.toList ++ [anyText]) := by
  rw [containing, String.toList_append, String.toList_singleton, startingWith_toList]
  rfl

theorem isComplete_escape (t : String) : isComplete escapeMark (escape t).toList = true := by
  rw [escape_toList, ← List.append_nil (escaped t.toList), isComplete_escaped]
  rfl

theorem isComplete_startingWith (t : String) :
    isComplete escapeMark (startingWith t).toList = true := by
  rw [startingWith_toList]
  exact isComplete_leading

theorem isComplete_containing (t : String) :
    isComplete escapeMark (containing t).toList = true := by
  rw [containing_toList]
  exact isComplete_around

theorem accepts_escape_iff {t s : String} :
    accepts escapeMark (escape t).toList s.toList = true ↔ s = t := by
  rw [escape_toList, ← List.append_nil (escaped t.toList), accepts_escaped]
  simp only [accepts_nil, exists_eq_right, List.append_nil, String.toList_inj]

/-- Escaping a text is done in three passes, and leaves no escape without a character behind
it in any pattern that is made of the text. Such a pattern is matched by the text alone, by
what begins with the text or by what holds it, and by nothing else, whatever special
characters there are in both. -/
theorem escape_exact (t s : String) :
    (escape t).toList =
        escapeOnly anyChar (escapeOnly anyText (escapeOnly escapeMark t.toList)) ∧
      (∀ p ∈ [escape t, startingWith t, containing t], isComplete escapeMark p.toList = true) ∧
      scan escapeMark (escape t).toList s.toList = some (decide (s = t)) ∧
      scan escapeMark (startingWith t).toList s.toList = some (decide (t.toList <+: s.toList)) ∧
      scan escapeMark (containing t).toList s.toList = some (decide (t.toList <:+: s.toList)) := by
  refine ⟨?_, ?_, ?_, ?_, ?_⟩
  · rw [escape_toList, escaped_eq_passes]
  · simp [isComplete_escape, isComplete_startingWith, isComplete_containing]
  · exact scan_eq (isComplete_escape t) accepts_escape_iff
  · refine scan_eq (isComplete_startingWith t) ?_
    rw [startingWith_toList, accepts_startingWith]
  · refine scan_eq (isComplete_containing t) ?_
    rw [containing_toList, accepts_containing]

end Tablewright.Like
