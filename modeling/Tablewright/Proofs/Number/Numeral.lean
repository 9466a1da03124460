import Mathlib.Data.List.Forall2
import Tablewright.Proofs.Number.Decimal
import Tablewright.Proofs.Number.Nearest

/-! Numerals in digits of any script. Integers and decimals are read from the same digits by two
readers: the one takes each digit for what it stands for, the other turns it into the digit of the
common script first. Where both read a text they read the same number. -/

namespace Tablewright

namespace Text

theorem digit?_bounds {c : Char} {d : Nat} (h : digit? c = some d) :
    ∃ z ∈ zeroDigits, z ≤ c.toNat ∧ c.toNat < z + 10 ∧ d = c.toNat - z := by
  obtain ⟨z, hz, rfl⟩ := Option.map_eq_some_iff.mp h
  have hbounds := List.find?_some hz
  simp only [Bool.and_eq_true, decide_eq_true_eq] at hbounds
  exact ⟨z, List.mem_of_find?_eq_some hz, hbounds.1, hbounds.2, rfl⟩

/-- No script has its digits among the common characters, or next to white space. -/
theorem zeroDigits_apart : ∀ z ∈ zeroDigits, z = 48 ∨ 0x660 ≤ z ∧ z + 9 < 0x1680 ∨
    0x1681 ≤ z ∧ z + 9 < 0x2000 ∨ 0x3001 ≤ z := by decide

theorem isBlank_of_digit {c : Char} {d : Nat} (h : digit? c = some d) : isBlank c = false := by
  obtain ⟨z, hz, hlow, hhigh, -⟩ := digit?_bounds h
  have hapart := zeroDigits_apart z hz
  simp only [isBlank, Bool.or_eq_false_iff, Bool.and_eq_false_iff, decide_eq_false_iff_not,
    beq_eq_false_iff_ne]
  omega

/-- A digit among the common characters is one of the common script. -/
theorem eq_digitChar {c : Char} {d : Nat} (h : digit? c = some d) (hc : c.toNat < 128) :
    c = Nat.digitChar d := by
  obtain ⟨z, hz, hlow, hhigh, rfl⟩ := digit?_bounds h
  have hapart := zeroDigits_apart z hz
  refine Char.toNat_inj.mp ?_
  rw [Nat.toNat_digitChar_of_lt_ten (by omega)]
  omega

theorem isDigit_of_asciiDigit {c : Char} {d : Nat} (h : asciiDigit? c = some d) :
    c.isDigit = true := by
  unfold asciiDigit? at h
  split at h
  · rename_i hc
    simpa [Char.isDigit, UInt32.le_iff_toNat_le] using hc
  · cases h

end Text

namespace Decimal

/-- What some digits of any script stand for. -/
abbrev Digits (cs : List Char) (ds : List Nat) : Prop :=
  List.Forall₂ (fun c d => Text.digit? c = some d) cs ds

variable {cs : List Char} {ds : List Nat}

theorem foldDigits_append (h : Digits cs ds) (rest : List Char) :
    foldDigits (cs ++ rest) = (foldDigits rest).map (ds.map Nat.digitChar ++ ·) := by
  induction h with
  | nil => simp
  | @cons c d cs ds hc _ ih =>
    have hne : c ≠ '_' := by
      rintro rfl
      cases hc
    rw [List.cons_append, foldDigits, if_neg hne, ih]
    split
    · rename_i hlow
      rw [Option.map_map, Text.eq_digitChar hc hlow]
      rfl
    · rw [hc, Option.bind_some, Option.map_map]
      rfl

theorem foldDigits_digit {c : Char} {d : Nat} (h : Text.digit? c = some d) (cs : List Char) :
    foldDigits (c :: cs) = (foldDigits cs).map (Nat.digitChar d :: ·) :=
  foldDigits_append (.cons h .nil) cs

theorem foldDigits_cons {c : Char} (hne : c ≠ '_') (hlow : c.toNat < 128) (cs : List Char) :
    foldDigits (c :: cs) = (foldDigits cs).map (c :: ·) := by
  rw [foldDigits, if_neg hne, if_pos hlow]

theorem foldDigits_underscore (cs : List Char) : foldDigits ('_' :: cs) = foldDigits cs := rfl

/-- Digits in groups are the same digits without the underscores, and nothing among them is white
space. -/
theorem foldDigits_of_readGroups (h : Integer.readGroups cs = some ds) :
    foldDigits cs = some (ds.map Nat.digitChar) ∧ ds ≠ [] ∧ (∀ d ∈ ds, d < 10) ∧
      ∀ c ∈ cs, Text.isBlank c = false := by
  induction cs using Integer.readGroups.induct generalizing ds with
  | case1 => cases h
  | case2 c =>
    obtain ⟨d, hd, rfl⟩ := Option.map_eq_some_iff.mp h
    rw [foldDigits_digit hd]
    exact ⟨rfl, List.cons_ne_nil _ _, List.forall_mem_singleton.mpr (Text.digit?_lt hd),
      List.forall_mem_singleton.mpr (Text.isBlank_of_digit hd)⟩
  | case3 c cs ih =>
    rw [Integer.readGroups] at h
    obtain ⟨d, hd, h⟩ := Option.bind_eq_some_iff.mp h
    obtain ⟨rest, hrest, rfl⟩ := Option.map_eq_some_iff.mp h
    obtain ⟨hfold, -, hlt, hblank⟩ := ih hrest
    rw [foldDigits_digit hd, foldDigits_underscore, hfold]
    exact ⟨rfl, List.cons_ne_nil _ _, List.forall_mem_cons.mpr ⟨Text.digit?_lt hd, hlt⟩,
      List.forall_mem_cons.mpr
        ⟨Text.isBlank_of_digit hd, List.forall_mem_cons.mpr ⟨by decide, hblank⟩⟩⟩
  | case4 c cs hnil hund ih =>
    rw [Integer.readGroups] at h
    · obtain ⟨d, hd, h⟩ := Option.bind_eq_some_iff.mp h
      obtain ⟨rest, hrest, rfl⟩ := Option.map_eq_some_iff.mp h
      obtain ⟨hfold, -, hlt, hblank⟩ := ih hrest
      rw [foldDigits_digit hd, hfold]
      exact ⟨rfl, List.cons_ne_nil _ _, List.forall_mem_cons.mpr ⟨Text.digit?_lt hd, hlt⟩,
        List.forall_mem_cons.mpr ⟨Text.isBlank_of_digit hd, hblank⟩⟩
    · exact hnil
    · exact hund

/-! ## Signs -/

/-- A text that is a sign or nothing, and whether it is a minus. -/
inductive IsSign : List Char → Bool → Prop
  | none : IsSign [] false
  | plus : IsSign ['+'] false
  | minus : IsSign ['-'] true

variable {sign : List Char} {negative : Bool}

theorem IsSign.char (h : IsSign sign negative) :
    ∀ c ∈ sign, Text.isBlank c = false ∧ c ≠ '.' := by
  cases h with
  | none => nofun
  | plus | minus => exact List.forall_mem_singleton.mpr (by decide)

theorem foldDigits_sign (h : IsSign sign negative) (cs : List Char) :
    foldDigits (sign ++ cs) = (foldDigits cs).map (sign ++ ·) := by
  cases h with
  | none => simp
  | plus | minus => exact foldDigits_cons (by decide) (by decide) cs

theorem spanSign_append (h : IsSign sign negative) (hplus : cs.head? ≠ some '+')
    (hminus : cs.head? ≠ some '-') : spanSign (sign ++ cs) = (negative, cs) := by
  cases h with
  | none =>
    unfold spanSign
    rw [List.nil_append]
    split
    · exact absurd rfl hminus
    · exact absurd rfl hplus
    · rfl
  | plus | minus => rfl

theorem of_spanSign (cs : List Char) :
    ∃ sign, IsSign sign (spanSign cs).1 ∧ cs = sign ++ (spanSign cs).2 := by
  unfold spanSign
  split
  · exact ⟨_, .minus, rfl⟩
  · exact ⟨_, .plus, rfl⟩
  · exact ⟨_, .none, rfl⟩

/-! ## Digits of a decimal -/

theorem isDigit_of_mem_map (h : ∀ d ∈ ds, d < 10) :
    ∀ c ∈ ds.map Nat.digitChar, c.isDigit = true := by
  intro c hc
  obtain ⟨d, hd, rfl⟩ := List.mem_map.mp hc
  rw [Nat.isDigit_digitChar]
  exact decide_eq_true (h d hd)

theorem digitValues_digitChar (h : ∀ d ∈ ds, d < 10) :
    digitValues (ds.map Nat.digitChar) = ds := by
  rw [digitValues, List.map_map]
  refine (List.map_congr_left fun d hd => ?_).trans (List.map_id ds)
  have hzero : '0'.toNat = 48 := rfl
  rw [Function.comp_apply, Nat.toNat_digitChar_of_lt_ten (h d hd), hzero, Nat.add_sub_cancel_left]
  rfl

theorem of_spanDigits (cs : List Char) : ∃ ws, (∀ c ∈ ws, c.isDigit = true) ∧
    cs = ws ++ (spanDigits cs).2 ∧ (spanDigits cs).1 = digitValues ws := by
  induction cs with
  | nil => exact ⟨[], nofun, rfl, rfl⟩
  | cons c cs ih =>
    obtain ⟨ws, hws, hcs, hvalues⟩ := ih
    cases hc : Text.asciiDigit? c with
    | none => exact ⟨[], nofun, by simp [spanDigits, hc], by simp [spanDigits, hc]⟩
    | some d =>
      have hdigit := Text.isDigit_of_asciiDigit hc
      rw [asciiDigit?_of_isDigit hdigit] at hc
      refine ⟨c :: ws, List.forall_mem_cons.mpr ⟨hdigit, hws⟩, ?_, ?_⟩
      · simp only [spanDigits, asciiDigit?_of_isDigit hdigit, List.cons_append]
        rw [← hcs]
      · simp only [spanDigits, asciiDigit?_of_isDigit hdigit, List.map_cons, hvalues]

/-- The power at the end of a numeral: nothing, or a letter, an optional sign and digits. -/
inductive IsPower : List Char → Int → Prop
  | none : IsPower [] 0
  | some {letter : Char} {sign ds : List Char} {minus : Bool} : letter = 'e' ∨ letter = 'E' →
      IsSign sign minus → (∀ c ∈ ds, c.isDigit = true) → ds ≠ [] →
      IsPower (letter :: (sign ++ ds)) (signed minus (Text.ofDigits (digitValues ds)))

/-- A numeral without its sign, the number of all its digits, and the power of ten of the last one:
digits, possibly with a point among them, and a power. -/
inductive IsNumeral : List Char → Nat → Int → Prop
  | whole {ws ps : List Char} {p : Int} : (∀ c ∈ ws, c.isDigit = true) → ws ≠ [] → IsPower ps p →
      IsNumeral (ws ++ ps) (Text.ofDigits (digitValues ws)) p
  | point {ws fs ps : List Char} {p : Int} : (∀ c ∈ ws, c.isDigit = true) →
      (∀ c ∈ fs, c.isDigit = true) → ws ++ fs ≠ [] → IsPower ps p →
      IsNumeral (ws ++ '.' :: (fs ++ ps)) (Text.ofDigits (digitValues (ws ++ fs))) (p - fs.length)

theorem head?_ne_of_digits (h : ∀ c ∈ cs, c.isDigit = true) {c : Char} (hc : c.isDigit = false) :
    cs.head? ≠ some c := by
  intro hmem
  rw [h c (List.mem_of_mem_head? hmem)] at hc
  cases hc

theorem readPower_of_isPower {p : Int} (h : IsPower cs p) : readPower cs = some p := by
  cases h with
  | none => rfl
  | @some letter sign ds minus hletter hsign hds hne =>
    have hspan := spanSign_append hsign (head?_ne_of_digits hds (c := '+') rfl)
      (head?_ne_of_digits hds (c := '-') rfl)
    rw [readPower, if_pos hletter, hspan]
    dsimp only
    rw [spanDigits_of_digits hds]
    obtain ⟨d, ds, rfl⟩ := List.exists_cons_of_ne_nil hne
    rfl

theorem isPower_of_readPower {p : Int} (h : readPower cs = some p) : IsPower cs p := by
  cases cs with
  | nil =>
    cases h
    exact .none
  | cons c cs =>
    rw [readPower] at h
    split at h
    · rename_i hc
      obtain ⟨sign, hsign, hcs⟩ := of_spanSign cs
      generalize spanSign cs = signed at h hsign hcs
      obtain ⟨minus, unsigned⟩ := signed
      obtain ⟨ds, hds, hunsigned, hvalues⟩ := of_spanDigits unsigned
      dsimp only at h hsign hcs
      generalize spanDigits unsigned = digits at h hunsigned hvalues
      obtain ⟨values, rest⟩ := digits
      dsimp only at h hunsigned hvalues
      split at h
      · rename_i hpair
        obtain ⟨rfl, rfl⟩ := Prod.mk.inj hpair
        have hne : ds ≠ [] := by
          rintro rfl
          cases hvalues
        obtain rfl := Option.some.inj h
        rw [hcs, hunsigned, List.append_nil, hvalues]
        exact .some hc hsign hds hne
      · cases h
    · cases h

/-- What follows the digits of a numeral is no digit and no point. -/
theorem IsPower.head {p : Int} (h : IsPower cs p) :
    ∀ c ∈ cs.head?, Text.asciiDigit? c = Option.none ∧ c ≠ '.' := by
  cases h with
  | none => nofun
  | some hletter =>
    rintro _ ⟨⟩
    rcases hletter with rfl | rfl <;> decide

theorem readUnsigned_of_isNumeral {c : Nat} {e : Int} (h : IsNumeral cs c e) :
    readUnsigned cs = some (c, e) := by
  cases h with
  | @whole ws ps p hws hne hp =>
    have hnot := hp.head
    have hsome : (digitValues ws).isEmpty = false := by simpa using hne
    rw [readUnsigned, spanDigits_append hws fun c hc => (hnot c hc).1]
    dsimp only
    split
    · exact absurd rfl (hnot '.' rfl).2
    · simp only [hsome, Bool.false_and, readPower_of_isPower hp]
      simp [digitValues]
  | @point ws fs ps p hws hfs hne hp =>
    have hpoint : ∀ c ∈ ('.' :: (fs ++ ps)).head?, Text.asciiDigit? c = none := by
      rintro _ ⟨⟩
      decide
    have hsome : ((digitValues ws).isEmpty && (digitValues fs).isEmpty) = false := by
      simpa using hne
    rw [readUnsigned, spanDigits_append hws hpoint]
    simp only [spanDigits_append hfs fun c hc => (hp.head c hc).1, readPower_of_isPower hp,
      Option.map_some, hsome]
    simp [digitValues]

theorem isNumeral_of_readUnsigned {c : Nat} {e : Int} (h : readUnsigned cs = some (c, e)) :
    IsNumeral cs c e := by
  obtain ⟨ws, hws, hcs, hvalues⟩ := of_spanDigits cs
  unfold readUnsigned at h
  cases hspan : spanDigits cs with
  | mk whole rest =>
    rw [hspan] at h hcs hvalues
    dsimp only at h hcs hvalues
    subst hcs hvalues
    split at h
    · rename_i cs
      obtain ⟨fs, hfs, hcs, hvalues⟩ := of_spanDigits cs
      generalize spanDigits cs = digits at h hcs hvalues
      obtain ⟨fraction, rest⟩ := digits
      dsimp only at h hcs hvalues
      subst hcs hvalues
      split at h
      · cases h
      · rename_i hsome
        obtain ⟨p, hp, heq⟩ := Option.map_eq_some_iff.mp h
        obtain ⟨rfl, rfl⟩ := Prod.mk.inj heq
        rw [← List.map_append, List.length_map]
        exact .point hws hfs (by simpa using hsome) (isPower_of_readPower hp)
    · dsimp only at h
      split at h
      · cases h
      · rename_i hsome
        obtain ⟨p, hp, heq⟩ := Option.map_eq_some_iff.mp h
        obtain ⟨rfl, rfl⟩ := Prod.mk.inj heq
        rw [List.append_nil, List.length_nil, Int.natCast_zero, Int.sub_zero]
        exact .whole hws (by simpa using hsome) (isPower_of_readPower hp)

/-- Characters that spell a sign, the number of all digits and the power of ten of the last one.
The digits may be of any script, and underscores stand for nothing. -/
def Spells (cs : List Char) (minus : Bool) (c : Nat) (e : Int) : Prop :=
  ∃ sign rest, IsSign sign minus ∧ IsNumeral rest c e ∧ foldDigits cs = some (sign ++ rest)

/-- A numeral begins with a digit or a point. -/
theorem IsNumeral.head {c : Nat} {e : Int} (h : IsNumeral cs c e) :
    cs.head? ≠ some '+' ∧ cs.head? ≠ some '-' := by
  cases h with
  | @whole ws ps p hws hne hp =>
    rw [List.head?_append_of_ne_nil ws hne]
    exact ⟨head?_ne_of_digits hws rfl, head?_ne_of_digits hws rfl⟩
  | @point ws fs ps p hws hfs hne hp =>
    cases ws with
    | nil => simp
    | cons d ws =>
      have hfirst {c : Char} (hc : c.isDigit = false) : (d :: ws).head? ≠ some c :=
        head?_ne_of_digits hws hc
      exact ⟨hfirst rfl, hfirst rfl⟩

variable {minus minus' : Bool} {c c' : Nat} {e e' : Int}

theorem Spells.unique (h : Spells cs minus c e) (h' : Spells cs minus' c' e') :
    minus = minus' ∧ c = c' ∧ e = e' := by
  obtain ⟨sign, rest, hsign, hrest, hfold⟩ := h
  obtain ⟨sign', rest', hsign', hrest', hfold'⟩ := h'
  have hspan := spanSign_append hsign hrest.head.1 hrest.head.2
  rw [Option.some.inj (hfold.symm.trans hfold'),
    spanSign_append hsign' hrest'.head.1 hrest'.head.2] at hspan
  obtain ⟨rfl, rfl⟩ := Prod.mk.inj hspan
  have hread := (readUnsigned_of_isNumeral hrest).symm.trans (readUnsigned_of_isNumeral hrest')
  exact ⟨rfl, Prod.mk.inj (Option.some.inj hread)⟩

/-- What spells a number is read as the decimal of it, unless this is out of range. -/
theorem ofChars?_of_spells (h : Spells (Text.trim cs) minus c e) : ofChars? cs =
    if (⟨minus, c, e⟩ : Decimal).inRange then some ⟨minus, c, e⟩ else none := by
  obtain ⟨sign, rest, hsign, hrest, hfold⟩ := h
  rw [ofChars?, hfold, Option.bind_some, readFolded,
    spanSign_append hsign hrest.head.1 hrest.head.2]
  dsimp only
  rw [readUnsigned_of_isNumeral hrest, Option.bind_some]

theorem spells_of_ofChars? {d : Decimal} (h : ofChars? cs = some d) :
    Spells (Text.trim cs) d.negative d.coefficient d.exponent := by
  obtain ⟨folded, hfold, h⟩ := Option.bind_eq_some_iff.mp h
  obtain ⟨sign, hsign, hfolded⟩ := of_spanSign folded
  unfold readFolded at h
  generalize spanSign folded = out at h hsign hfolded
  obtain ⟨minus, rest⟩ := out
  obtain ⟨⟨c, e⟩, hrest, h⟩ := Option.bind_eq_some_iff.mp h
  dsimp only at h
  split at h
  · obtain rfl := Option.some.inj h
    exact ⟨sign, rest, hsign, isNumeral_of_readUnsigned hrest, hfolded ▸ hfold⟩
  · cases h

end Decimal

/-- The sign of an integer is read as that of a decimal. -/
theorem Integer.readSigned_eq (cs : List Char) :
    readSigned cs = (readGroups (Decimal.spanSign cs).2).bind fun ds =>
      if maxDigits < ds.length then none
      else some (Decimal.signed (Decimal.spanSign cs).1 (Text.ofDigits ds)) := rfl

/-- The characters of an integer spell it without a point and a power. -/
theorem Integer.spells_of_readSigned {cs : List Char} {n : Int} (h : readSigned cs = some n) :
    ∃ minus c, Decimal.Spells cs minus c 0 ∧ n = Decimal.signed minus c := by
  rw [readSigned_eq] at h
  obtain ⟨sign, hsign, hcs⟩ := Decimal.of_spanSign cs
  obtain ⟨ds, hds, h⟩ := Option.bind_eq_some_iff.mp h
  obtain ⟨hfold, hne, hlt, -⟩ := Decimal.foldDigits_of_readGroups hds
  split at h
  · cases h
  · have hnumeral : Decimal.IsNumeral (ds.map Nat.digitChar) (Text.ofDigits ds) 0 := by
      have hwhole := Decimal.IsNumeral.whole (Decimal.isDigit_of_mem_map hlt) (by simpa using hne)
        Decimal.IsPower.none
      rwa [List.append_nil, Decimal.digitValues_digitChar hlt] at hwhole
    refine ⟨_, _, ⟨sign, _, hsign, hnumeral, ?_⟩, (Option.some.inj h).symm⟩
    rw [hcs, Decimal.foldDigits_sign hsign, hfold]
    rfl

/-- Nothing within an integer is white space. -/
theorem Integer.notBlank_of_readSigned {cs : List Char} {n : Int} (h : readSigned cs = some n) :
    ∀ c ∈ cs, Text.isBlank c = false := by
  rw [readSigned_eq] at h
  obtain ⟨sign, hsign, hcs⟩ := Decimal.of_spanSign cs
  obtain ⟨ds, hds, -⟩ := Option.bind_eq_some_iff.mp h
  obtain ⟨-, -, -, hblank⟩ := Decimal.foldDigits_of_readGroups hds
  rw [hcs]
  exact List.forall_mem_append.mpr ⟨fun c hc => (hsign.char c hc).1, hblank⟩

/-- If spaces are all the white space of a text, nothing but them is trimmed. -/
theorem Text.trim_eq_stripSpace {cs : List Char} (h : ∀ c ∈ stripSpace cs, isBlank c = false) :
    trim cs = stripSpace cs := by
  have hspaces : ∀ l : List Char, ∀ c ∈ l.takeWhile isSpace, isBlank c = true := fun l c hc =>
    (Bool.and_eq_true_iff.mp (List.all_eq_true.mp List.all_takeWhile c hc)).1
  have hbehind : stripSpace cs ++ ((cs.dropWhile isSpace).reverse.takeWhile isSpace).reverse =
      cs.dropWhile isSpace := by
    rw [stripSpace, ← List.reverse_append, List.takeWhile_append_dropWhile, List.reverse_reverse]
  have hbetween := Decimal.trim_between (hspaces cs) h fun c hc =>
    hspaces (cs.dropWhile isSpace).reverse c (List.mem_reverse.mp hc)
  rwa [hbehind, List.takeWhile_append_dropWhile] at hbetween

theorem Text.stripSpace_eq {cs : List Char} (h : ∀ c ∈ cs, isBlank c = false) :
    stripSpace cs = cs := by
  have hsub : ∀ c ∈ stripSpace cs, c ∈ cs := fun c hc =>
    (List.dropWhile_suffix isSpace).subset
      (List.mem_reverse.mp ((List.dropWhile_suffix isSpace).subset (List.mem_reverse.mp hc)))
  rw [← trim_eq_stripSpace fun c hc => h c (hsub c hc), Decimal.trim_eq h]

/-- The number that some characters denote. -/
def Denotes (cs : List Char) (q : ℚ) : Prop :=
  ∃ minus c e, Decimal.Spells cs minus c e ∧ q = Decimal.signed minus c * 10 ^ e

namespace Denotes

variable {s : String} {cs : List Char} {q q' : ℚ}

/-- The same characters denote one number only, however they are read. -/
theorem unique (h : Denotes cs q) (h' : Denotes cs q') : q = q' := by
  obtain ⟨minus, c, e, h, rfl⟩ := h
  obtain ⟨minus', c', e', h', rfl⟩ := h'
  obtain ⟨rfl, rfl, rfl⟩ := h.unique h'
  rfl

theorem of_integer {n : ℤ} (h : Integer.ofText? s = some n) : Denotes (Text.trim s.toList) n := by
  obtain ⟨minus, c, hspells, rfl⟩ := Integer.spells_of_readSigned h
  rw [Text.trim_eq_stripSpace (Integer.notBlank_of_readSigned h)]
  exact ⟨minus, c, 0, hspells, by rw [zpow_zero, mul_one]⟩

theorem of_decimal {d : Decimal} (h : Decimal.ofText? s = some d) :
    Denotes (Text.trim s.toList) d.toRat :=
  ⟨_, _, _, Decimal.spells_of_ofChars? h, rfl⟩

end Denotes

namespace Decimal

variable {cs : List Char} {ds : List Nat} {sign : List Char}

/-! ## Plain decimals -/

section

variable {minus : Bool} {ws fs : List Nat}

/-- Characters of an optional sign, digits of any script, a point and digits again. -/
def IsPlain (cs : List Char) (minus : Bool) (ws fs : List Nat) : Prop :=
  ∃ sign whole fraction, IsSign sign minus ∧ Digits whole ws ∧ Digits fraction fs ∧
    cs = sign ++ (whole ++ '.' :: fraction)

/-- The decimal that such characters spell. -/
def plain (minus : Bool) (ws fs : List Nat) : Decimal :=
  ⟨minus, Text.ofDigits (ws ++ fs), -fs.length⟩

theorem Digits.lt (h : Digits cs ds) : ∀ d ∈ ds, d < 10 := by
  induction h with
  | nil => nofun
  | cons hc _ ih => exact List.forall_mem_cons.mpr ⟨Text.digit?_lt hc, ih⟩

theorem Digits.char (h : Digits cs ds) : ∀ c ∈ cs, Text.isBlank c = false ∧ c ≠ '.' := by
  induction h with
  | nil => nofun
  | cons hc _ ih =>
    refine List.forall_mem_cons.mpr ⟨⟨Text.isBlank_of_digit hc, ?_⟩, ih⟩
    rintro rfl
    cases hc

theorem IsPlain.trim_eq (h : IsPlain cs minus ws fs) : Text.trim cs = cs := by
  obtain ⟨sign, whole, fraction, hsign, hwhole, hfraction, rfl⟩ := h
  refine Decimal.trim_eq fun c hc => ?_
  simp only [List.mem_append, List.mem_cons] at hc
  rcases hc with hc | hc | rfl | hc
  · exact (hsign.char c hc).1
  · exact (hwhole.char c hc).1
  · decide
  · exact (hfraction.char c hc).1

theorem IsPlain.lt (h : IsPlain cs minus ws fs) : ∀ d ∈ ws ++ fs, d < 10 := by
  obtain ⟨sign, whole, fraction, -, hwhole, hfraction, -⟩ := h
  exact fun d hd => (List.mem_append.mp hd).elim (hwhole.lt d) (hfraction.lt d)

/-- The point stands behind the sign and the digits of the whole part. -/
theorem IsPlain.point (h : IsPlain cs minus ws fs) :
    '.' ∈ cs ∧ ws.length ≤ cs.idxOf '.' := by
  obtain ⟨sign, whole, fraction, hsign, hwhole, -, rfl⟩ := h
  refine ⟨by simp, ?_⟩
  have hnot : '.' ∉ sign ++ whole := fun hmem =>
    (List.mem_append.mp hmem).elim (fun hc => (hsign.char _ hc).2 rfl) fun hc =>
      (hwhole.char _ hc).2 rfl
  rw [← List.append_assoc, List.idxOf_append_of_notMem hnot, List.length_append,
    hwhole.length_eq]
  omega

theorem IsPlain.spells (h : IsPlain cs minus ws fs) (hne : ws ++ fs ≠ []) :
    Spells cs minus (Text.ofDigits (ws ++ fs)) (-fs.length) := by
  have hlt := h.lt
  obtain ⟨sign, whole, fraction, hsign, hwhole, hfraction, rfl⟩ := h
  have hlast := foldDigits_append hfraction []
  rw [List.append_nil] at hlast
  have hnumeral := IsNumeral.point (isDigit_of_mem_map hwhole.lt) (isDigit_of_mem_map hfraction.lt)
    (by simpa using hne) IsPower.none
  rw [List.append_nil, ← List.map_append, digitValues_digitChar hlt, List.length_map,
    zero_sub] at hnumeral
  refine ⟨sign, _, hsign, hnumeral, ?_⟩
  rw [foldDigits_sign hsign, foldDigits_append hwhole, foldDigits_cons (by decide) (by decide),
    hlast]
  simp [foldDigits]

theorem IsPlain.ofText? {s : String} (h : IsPlain s.toList minus ws fs) (hne : ws ++ fs ≠ []) :
    ofText? s = if (plain minus ws fs).inRange then some (plain minus ws fs) else none := by
  have hspells := h.spells hne
  rw [← h.trim_eq] at hspells
  exact ofChars?_of_spells hspells

theorem ofDigits_lt (h : ∀ d ∈ ds, d < 10) : Text.ofDigits ds < 10 ^ ds.length := by
  have hfrom : ∀ n, ds.foldl (fun n d => 10 * n + d) n < (n + 1) * 10 ^ ds.length := by
    induction ds with
    | nil => simp
    | cons d ds ih =>
      obtain ⟨hd, hds⟩ := List.forall_mem_cons.mp h
      intro n
      rw [List.foldl_cons, List.length_cons, Nat.pow_succ']
      calc ds.foldl (fun n d => 10 * n + d) (10 * n + d) < (10 * n + d + 1) * 10 ^ ds.length :=
            ih hds _
        _ ≤ ((n + 1) * 10) * 10 ^ ds.length := Nat.mul_le_mul_right _ (by omega)
        _ = (n + 1) * (10 * 10 ^ ds.length) := Nat.mul_assoc ..
  simpa [Text.ofDigits] using hfrom 0

/-- How many places there can be behind a point. -/
def maxPlaces : Nat := (-minExponent).toNat

/-- Such a decimal is in range, if there are not too many digits on either side of the point. -/
theorem inRange_plain (hlt : ∀ d ∈ ws ++ fs, d < 10) (hw : (ws.length : Int) ≤ maxAdjusted)
    (hf : fs.length ≤ maxPlaces) : (plain minus ws fs).inRange = true := by
  have hc : Text.ofDigits (ws ++ fs) < 10 ^ (ws.length + fs.length + 1) := by
    refine (ofDigits_lt hlt).trans_le ?_
    rw [List.length_append]
    exact Nat.pow_le_pow_right (by omega) (Nat.le_succ _)
  have hdigits : (plain minus ws fs).digits.length ≤ ws.length + fs.length + 1 :=
    (Nat.length_toDigits_le_iff (by omega) (by omega)).mpr hc
  have hexponent : (plain minus ws fs).exponent = -fs.length := rfl
  simp only [inRange, adjusted, hexponent, Bool.and_eq_true, decide_eq_true_eq]
  simp only [maxPlaces, minExponent, maxAdjusted] at hf hw ⊢
  omega

theorem toRat_plain (minus : Bool) (ws fs : List Nat) : (plain minus ws fs).toRat =
    signed minus (Text.ofDigits (ws ++ fs)) / 10 ^ fs.length := by
  rw [toRat, plain, zpow_neg, zpow_natCast, div_eq_mul_inv]

/-- With no more digits before the point than a rounded number has, there is a nearest integer. -/
theorem nearest?_plain (hlt : ∀ d ∈ ws ++ fs, d < 10) (hw : ws.length < roundedDigits) :
    (plain minus ws fs).nearest? = some (plain minus ws fs).nearest := by
  have hsize : (plain minus ws fs).size < 10 ^ ws.length := by
    have hc : (Text.ofDigits (ws ++ fs) : ℚ) < 10 ^ (ws ++ fs).length := by
      exact_mod_cast ofDigits_lt hlt
    rw [size, plain, zpow_neg, zpow_natCast, ← div_eq_mul_inv, div_lt_iff₀ (by positivity), ← pow_add,
      ← List.length_append]
    exact hc
  have hlow := (plain minus ws fs).nearest_bounds.1
  have hnear : ((plain minus ws fs).nearest.natAbs : ℚ) < (10 ^ ws.length + 1 : ℕ) := by
    push_cast
    linarith
  have hnear : (plain minus ws fs).nearest.natAbs < 10 ^ ws.length + 1 := by exact_mod_cast hnear
  have hpow : 10 ^ (ws.length + 1) ≤ Nat.pow 10 roundedDigits := Nat.pow_le_pow_right (by omega) hw
  have hone : 1 ≤ 10 ^ ws.length := Nat.one_le_pow _ _ (by omega)
  have hnot : ¬ (plain minus ws fs).RoundsTooFar := by
    rw [RoundsTooFar]
    rw [Nat.pow_succ] at hpow
    omega
  rw [nearest?_eq, if_neg hnot]

end

end Decimal

end Tablewright
