import Mathlib.Data.List.DropRight
import Tablewright.Proofs.Number.Decimal
import Tablewright.Value.Display

/-! Texts that show values. The text of a value that is neither null nor a text itself is never
blank, so what is read from it is there to be seen. White space at the ends is taken off once: a
text without it stays as it is. -/

namespace Tablewright

/-! ## Texts without white space at their ends -/

namespace Text

theorem trim_trim (cs : List Char) : trim (trim cs) = trim cs := by
  -- Trimming the end leaves the start as it is: the first character that is left is not blank.
  have hstart : trimStart (trimEnd (trimStart cs)) = trimEnd (trimStart cs) := by
    cases hcs : trimEnd (trimStart cs) with
    | nil => rfl
    | cons c rest =>
      have hprefix : trimEnd (trimStart cs) <+: trimStart cs := List.rdropWhile_prefix _ _
      rw [hcs] at hprefix
      obtain ⟨tail, htail⟩ := hprefix
      have hhead : isBlank c = false := by
        have hfirst := List.head?_dropWhile_not isBlank cs
        rw [show cs.dropWhile isBlank = c :: (rest ++ tail) from htail.symm] at hfirst
        simpa using hfirst
      rw [trimStart, List.dropWhile_cons_of_neg (by rw [hhead]; exact Bool.false_ne_true)]
  rw [trim, trim, hstart]
  exact List.rdropWhile_idempotent _ _

theorem strip_strip (s : String) : strip (strip s) = strip s := by
  rw [strip, strip, String.toList_ofList, trim_trim]

theorem all_trimStart (cs : List Char) : (trimStart cs).all isBlank = cs.all isBlank := by
  induction cs with
  | nil => rfl
  | cons c cs ih =>
    by_cases hc : isBlank c = true
    · rw [trimStart, List.dropWhile_cons_of_pos hc, List.all_cons, hc, Bool.true_and]
      exact ih
    · rw [trimStart, List.dropWhile_cons_of_neg hc]

/-- Trimming leaves nothing of a blank text, and something of any other. -/
theorem isBlankText_strip (s : String) : isBlankText (strip s) = isBlankText s := by
  have hend : (trimEnd (trimStart s.toList)).all isBlank = (trimStart s.toList).all isBlank := by
    rw [trimEnd, List.all_reverse, ← List.all_reverse (l := trimStart s.toList)]
    exact all_trimStart _
  rw [isBlankText, isBlankText, strip, String.toList_ofList, trim, hend, all_trimStart]

/-! ## Characters that can be seen -/

/-- Some character is not white space. -/
def Visible (cs : List Char) : Prop := ∃ c ∈ cs, isBlank c = false

variable {cs ds : List Char}

theorem Visible.before (h : Visible cs) (ds : List Char) : Visible (cs ++ ds) := by
  obtain ⟨c, hc, hblank⟩ := h
  exact ⟨c, List.mem_append_left ds hc, hblank⟩

theorem Visible.after (h : Visible ds) (cs : List Char) : Visible (cs ++ ds) := by
  obtain ⟨c, hc, hblank⟩ := h
  exact ⟨c, List.mem_append_right cs hc, hblank⟩

theorem isBlankText_of_visible {s : String} (h : Visible s.toList) : isBlankText s = false := by
  obtain ⟨c, hc, hblank⟩ := h
  exact List.all_eq_false.mpr ⟨c, hc, by rw [hblank]; exact Bool.false_ne_true⟩

theorem visible_toDigits (n : Nat) : Visible (Nat.toDigits 10 n) := by
  obtain ⟨c, hc⟩ := List.exists_mem_of_ne_nil (Nat.toDigits 10 n) Nat.toDigits_ne_nil
  have hdigit : c.isDigit = true := Decimal.isDigit_toDigits n c hc
  exact ⟨c, hc, Decimal.isBlank_of_printed (Decimal.printed_of_isDigit hdigit)⟩

end Text

open Text

theorem Decimal.visible_plainText {ds : List Char} (h : Visible ds) (point : Int) :
    Visible (plainText ds point) := by
  unfold plainText
  split
  · exact h.after _
  · split
    · exact h
    · exact (Visible.after ⟨'.', by decide, by decide⟩ _).before _

theorem Decimal.visible_toChars (d : Decimal) : Visible d.toChars := by
  refine Visible.after ?_ _
  split
  · exact visible_plainText (visible_toDigits _) _
  · exact (Visible.after ⟨'E', by decide, by decide⟩ _).before _

theorem Binary.visible_layout (d : Decimal) : Visible (layout d) := by
  unfold layout
  dsimp only
  split
  · split
    · exact Visible.after ⟨'.', by decide, by decide⟩ _
    · exact Decimal.visible_plainText (visible_toDigits _) _
  · exact (Visible.after ⟨'e', by decide, by decide⟩ _).before _

theorem Binary.visible_toText (x : Binary) : Visible x.toText.toList := by
  cases x with
  | finite negative m p =>
    rw [toText, String.toList_ofList]
    exact (visible_layout _).after _
  | infinite negative => cases negative <;> exact ⟨'i', by decide, by decide⟩
  | notANumber => exact ⟨'n', by decide, by decide⟩

theorem NonFinite.visible_toText (x : NonFinite) : Visible x.toText.toList := by
  rw [toText, String.toList_append]
  refine Visible.after ?_ _
  split
  · exact ⟨'I', by decide, by decide⟩
  · rw [String.toList_append]
    exact Visible.before ⟨'N', by decide, by decide⟩ _
  · rw [String.toList_append]
    exact Visible.before ⟨'N', by decide, by decide⟩ _

theorem Date.visible_toChars (d : Date) : Visible d.toChars :=
  (Visible.after ⟨'-', by decide, by decide⟩ _).before _

/-- The text of a value that is neither null nor a text shows something. -/
theorem Value.visible_display {v : Value} (hnull : v.isNull = false)
    (htext : ∀ s, v ≠ .text s) : Visible v.display.toList := by
  cases v with
  | null => cases hnull
  | text s => exact absurd rfl (htext s)
  | bool b => cases b <;> exact ⟨'e', by decide, by decide⟩
  | int n =>
    show Visible (String.ofList _).toList
    rw [String.toList_ofList]
    exact (visible_toDigits _).after _
  | decimal d =>
    show Visible (String.ofList _).toList
    rw [String.toList_ofList]
    exact d.visible_toChars
  | nonFinite x => exact x.visible_toText
  | float x => exact x.visible_toText
  | date d =>
    show Visible (String.ofList _).toList
    rw [String.toList_ofList]
    exact d.visible_toChars
  | timestamp t =>
    show Visible (String.ofList _).toList
    rw [String.toList_ofList]
    exact ((t.date.visible_toChars.before _).before _).before _
  | list vs =>
    show Visible (_ ++ _ ++ _ : String).toList
    rw [String.toList_append]
    exact Visible.after ⟨']', by decide, by decide⟩ _
  | map es =>
    show Visible (_ ++ _ ++ _ : String).toList
    rw [String.toList_append]
    exact Visible.after ⟨'\x7d', by decide, by decide⟩ _

end Tablewright
