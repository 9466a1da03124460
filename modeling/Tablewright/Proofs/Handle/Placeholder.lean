import Mathlib.Data.List.Basic
import Tablewright.Handle.Placeholder

/-! What a connection makes of the marks. It reads a text from left to right, puts the next
value in the place of each mark and takes a doubled percent sign for one. Of a rewritten
statement it gets the statement back, with a value in the place of each question mark
outside the literals and all other characters as they were. -/

namespace Tablewright.Placeholder

variable {α : Type}

/-! ## Reading a text with marks -/

/-- The characters that a connection reads, with nothing at the places of values. It cannot
read a percent sign with any other character behind it. -/
def read? : List Char → Option (List (Option Char))
  | [] => some []
  | c :: cs =>
    if c = '%' then
      match cs with
      | [] => none
      | d :: ds =>
        if d = '%' then (read? ds).map (some '%' :: ·)
        else if d = 's' then (read? ds).map (none :: ·)
        else none
    else (read? cs).map (some c :: ·)

/-- The values at their places, for exactly as many of them as there are places. -/
def fill : List (Option Char) → List α → Option (List (Char ⊕ α))
  | [], [] => some []
  | some c :: ps, vs => (fill ps vs).map (.inl c :: ·)
  | none :: ps, v :: vs => (fill ps vs).map (.inr v :: ·)
  | _, _ => none

/-- What a connection sends for a text and some values. -/
def format (text : String) (vs : List α) : Option (List (Char ⊕ α)) :=
  (read? text.toList).bind (fill · vs)

/-- The text that was rewritten. -/
def decode? (text : String) : Option String :=
  (read? text.toList).map fun ps => String.ofList (ps.map (·.getD '?'))

/-! ## The marks of a statement -/

/-- Which characters of a statement are marks: its question marks outside the literals. A
quote inside a literal that another one follows does not end it. -/
def marksFrom : Bool → List Char → List Bool
  | _, [] => []
  | false, c :: cs => (c == '?') :: marksFrom (c == quote) cs
  | true, c :: cs =>
    if c = quote then
      match cs with
      | [] => [false]
      | d :: ds =>
        if d = quote then false :: false :: marksFrom true ds
        else false :: marksFrom false (d :: ds)
    else false :: marksFrom true cs

def marked (sql : String) : List Bool := marksFrom false sql.toList

/-- The quote that ends a literal at a doubled quote opens the next one at once, so a statement
can be gone through character by character. -/
theorem marksFrom_cons (inLiteral : Bool) (c : Char) (cs : List Char) :
    marksFrom inLiteral (c :: cs) =
      (!inLiteral && c == '?') :: marksFrom (inLiteral != (c == quote)) cs := by
  cases inLiteral with
  | false => simp [marksFrom]
  | true =>
    by_cases hc : c = quote
    · subst hc
      cases cs with
      | nil => rfl
      | cons d ds =>
        by_cases hd : d = quote
        · subst hd
          rfl
        · simp [marksFrom, hd]
    · have hplain : (c == quote) = false := beq_false_of_ne hc
      rw [marksFrom.eq_def]
      simp [hc, hplain]

/-- The characters of a statement, with nothing at its marks. -/
def pieces (inLiteral : Bool) (cs : List Char) : List (Option Char) :=
  cs.zipWith (fun c isMark => if isMark then none else some c) (marksFrom inLiteral cs)

theorem pieces_cons (inLiteral : Bool) (c : Char) (cs : List Char) :
    pieces inLiteral (c :: cs) =
      (if !inLiteral && c == '?' then none else some c) ::
        pieces (inLiteral != (c == quote)) cs := by
  rw [pieces, marksFrom_cons, List.zipWith_cons_cons, pieces]

theorem map_isNone_pieces (inLiteral : Bool) (cs : List Char) :
    (pieces inLiteral cs).map Option.isNone = marksFrom inLiteral cs := by
  induction cs generalizing inLiteral with
  | nil => cases inLiteral <;> rfl
  | cons c cs ih =>
    rw [pieces_cons, marksFrom_cons, List.map_cons, ih]
    cases !inLiteral && c == '?' <;> rfl

/-- Every mark is a question mark. -/
theorem map_getD_pieces (inLiteral : Bool) (cs : List Char) :
    (pieces inLiteral cs).map (·.getD '?') = cs := by
  induction cs generalizing inLiteral with
  | nil => cases inLiteral <;> rfl
  | cons c cs ih =>
    rw [pieces_cons, List.map_cons, ih]
    cases hmark : !inLiteral && c == '?' with
    | false => rfl
    | true =>
      obtain ⟨-, hc⟩ := Bool.and_eq_true_iff.mp hmark
      rw [eq_of_beq hc]
      rfl

/-! ## Rewritten statements -/

theorem read_mark (cs : List Char) : read? ('%' :: 's' :: cs) = (read? cs).map (none :: ·) := rfl

theorem read_percent (cs : List Char) :
    read? ('%' :: '%' :: cs) = (read? cs).map (some '%' :: ·) := rfl

theorem read_plain {c : Char} (h : c ≠ '%') (cs : List Char) :
    read? (c :: cs) = (read? cs).map (some c :: ·) := by
  rw [read?.eq_def]
  simp [h]

/-- A rewritten statement is read as the statement itself, from any point on. -/
theorem read_encodeFrom (inLiteral : Bool) (cs : List Char) :
    read? (encodeFrom inLiteral cs) = some (pieces inLiteral cs) := by
  induction cs generalizing inLiteral with
  | nil => rfl
  | cons c cs ih =>
    rw [pieces_cons, encodeFrom]
    by_cases hquote : c = quote
    · subst hquote
      rw [if_pos rfl, read_plain (by decide), ih]
      simp [quote]
    by_cases hpercent : c = '%'
    · subst hpercent
      rw [if_neg hquote, if_pos rfl, read_percent, ih]
      simp [quote]
    rw [if_neg hquote, if_neg hpercent]
    by_cases hmark : c = '?' ∧ ¬ inLiteral
    · obtain ⟨rfl, hout⟩ := hmark
      rw [if_pos ⟨rfl, hout⟩, read_mark, ih]
      simp [hout, quote]
    · rw [if_neg hmark, read_plain hpercent, ih]
      have hplain : (!inLiteral && c == '?') = false := by
        simpa [and_comm] using hmark
      simp [hplain, beq_false_of_ne hquote]

theorem read_encode (sql : String) :
    read? (encode sql).toList = some (pieces false sql.toList) := by
  rw [encode, String.toList_ofList, read_encodeFrom]

theorem decode_encode (sql : String) : decode? (encode sql) = some sql := by
  rw [decode?, read_encode, Option.map_some, map_getD_pieces, String.ofList_toList]

theorem encode_injective : Function.Injective encode := by
  intro a b h
  have hdecoded := congrArg decode? h
  rw [decode_encode, decode_encode] at hdecoded
  exact Option.some.inj hdecoded

/-- As many values as there are places go there in their order. -/
theorem fill_places {ps : List (Option Char)} {vs : List α}
    (h : vs.length = (ps.map Option.isNone).count true) :
    ∃ out, fill ps vs = some out ∧ out.filterMap Sum.getRight? = vs ∧
      out.map Sum.getLeft? = ps := by
  induction ps generalizing vs with
  | nil =>
    rw [List.length_eq_zero_iff.mp h]
    exact ⟨[], rfl, rfl, rfl⟩
  | cons p ps ih =>
    cases p with
    | some c =>
      have hplain : vs.length = (ps.map Option.isNone).count true := by simpa using h
      obtain ⟨out, hfill, hvalues, hplaces⟩ := ih hplain
      exact ⟨.inl c :: out, by rw [fill, hfill]; rfl, hvalues, by rw [List.map_cons, hplaces]; rfl⟩
    | none =>
      cases vs with
      | nil => simp at h
      | cons v vs =>
        have hrest : vs.length = (ps.map Option.isNone).count true := by simpa using h
        obtain ⟨out, hfill, hvalues, hplaces⟩ := ih hrest
        refine ⟨.inr v :: out, by rw [fill, hfill]; rfl, ?_, by rw [List.map_cons, hplaces]; rfl⟩
        exact congrArg (v :: ·) hvalues

/-- A statement goes through a connection unharmed. With as many values as it has marks, each of
them is put in the place of one mark, in their order, and all else is sent as it stands; and the
rewritten text tells which statement it was. -/
theorem format_encode (sql : String) (vs : List α) (h : vs.length = (marked sql).count true) :
    (∃ out, format (encode sql) vs = some out ∧ out.filterMap Sum.getRight? = vs ∧
      out.map Sum.isRight = marked sql ∧ out.map (Sum.elim id fun _ => '?') = sql.toList) ∧
    decode? (encode sql) = some sql ∧ ∀ other, encode sql = encode other → sql = other := by
  refine ⟨?_, decode_encode sql, fun other heq => encode_injective heq⟩
  rw [marked, ← map_isNone_pieces] at h
  obtain ⟨out, hfill, hvalues, hplaces⟩ := fill_places h
  refine ⟨out, ?_, hvalues, ?_, ?_⟩
  · rw [format, read_encode, Option.bind_some, hfill]
  · rw [marked, ← map_isNone_pieces, ← hplaces, List.map_map]
    exact List.map_congr_left fun e _ => by cases e <;> rfl
  · rw [← map_getD_pieces false sql.toList, ← hplaces, List.map_map]
    exact List.map_congr_left fun e _ => by cases e <;> rfl

/-- Marks, percent signs and quotes side by side. -/
def hostileSql : String := "a='it''s ?' AND b LIKE ?ESCAPE '\\' AND c=%s AND d='5%'?"

theorem format_encode_hostile : (marked hostileSql).count true = 2 ∧
    ∃ out, format (encode hostileSql) ["Ada", "?"] = some out ∧
      out.filterMap Sum.getRight? = ["Ada", "?"] ∧ out.map Sum.isRight = marked hostileSql ∧
      out.map (Sum.elim id fun _ => '?') = hostileSql.toList := by
  have hmarks : (marked hostileSql).count true = 2 := by decide +kernel
  exact ⟨hmarks, (format_encode hostileSql ["Ada", "?"] hmarks.symm).1⟩

example : encode hostileSql =
    "a='it''s ?' AND b LIKE %sESCAPE '\\' AND c=%%s AND d='5%%'%s" := by decide +kernel

end Tablewright.Placeholder
