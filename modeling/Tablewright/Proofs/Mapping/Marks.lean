import Tablewright.Mapping.Basic
import Tablewright.Proofs.Check
import Tablewright.Proofs.Schema.Valid

/-! The marks in the texts of a mapping. The texts and the lists of places are made apart
from each other, from the same fields. A list of equations has one mark for every column
that is bound, in the order of the columns, whatever stands between them; from this the
agreement of texts and places follows for one statement after the other. -/

namespace Tablewright

/-- How many marks a text holds. -/
def marks (text : String) : Nat := text.toList.count '?'

theorem marks_append (s t : String) : marks (s ++ t) = marks s + marks t := by
  rw [marks, String.toList_append, List.count_append, marks, marks]

namespace Statement

/-- What may stand before the column of an equation. -/
def leads : List String := ["WHERE ", " AND ", "SET ", ", "]

/-- Mark number `k` of the text, counted from 0, is what a column is set or compared to. -/
def MarkOf (text : String) (k : Nat) (column : String) : Prop :=
  ∃ front lead after, lead ∈ leads ∧ text = front ++ lead ++ column ++ "=?" ++ after ∧
    marks (front ++ lead ++ column) = k

theorem MarkOf.append {text column : String} {k : Nat} (h : MarkOf text k column) (u : String) :
    MarkOf (text ++ u) k column := by
  obtain ⟨front, lead, after, hl, rfl, hk⟩ := h
  exact ⟨front, lead, after ++ u, hl, by simp only [String.append_assoc], hk⟩

theorem MarkOf.prepend {text column : String} {k : Nat} (h : MarkOf text k column) (u : String) :
    MarkOf (u ++ text) (marks u + k) column := by
  obtain ⟨front, lead, after, hl, rfl, hk⟩ := h
  refine ⟨u ++ front, lead, after, hl, by simp only [String.append_assoc], ?_⟩
  rw [String.append_assoc, String.append_assoc, marks_append, ← String.append_assoc, hk]

/-- The marks of the text are those of some columns, in their order. -/
def Marked (text : String) (columns : List String) : Prop :=
  marks text = columns.length ∧ ∀ k c, columns[k]? = some c → MarkOf text k c

theorem Marked.of_none {text : String} (h : marks text = 0) : Marked text [] :=
  ⟨h, by rintro k c ⟨⟩⟩

theorem Marked.append {s t : String} {cs ds : List String} (hs : Marked s cs) (ht : Marked t ds) :
    Marked (s ++ t) (cs ++ ds) := by
  refine ⟨by rw [marks_append, hs.1, ht.1, List.length_append], ?_⟩
  intro k c hk
  by_cases hlt : k < cs.length
  · rw [List.getElem?_append_left hlt] at hk
    exact (hs.2 k c hk).append t
  · have hle := Nat.le_of_not_lt hlt
    rw [List.getElem?_append_right hle] at hk
    have hmark := (ht.2 _ c hk).prepend s
    rwa [hs.1, Nat.add_sub_cancel' hle] at hmark

/-- Text without marks in front. -/
theorem Marked.behind {s t : String} {cs : List String} (hs : marks s = 0) (ht : Marked t cs) :
    Marked (s ++ t) cs := (Marked.of_none hs).append ht

/-! ## Lists of assignments -/

/-- The only mark of the assignment is the one it is given, if any. -/
structure Plain (a : Assignment) : Prop where
  column : marks a.column = 0
  value : ∀ text, a.value = .expression text → marks text = 0

/-- The columns that take a mark. -/
def boundOf (as : List Assignment) : List String :=
  (as.filter (·.value == .parameter)).map (·.column)

theorem boundOf_cons (a : Assignment) (as : List Assignment) :
    boundOf (a :: as) = boundOf [a] ++ boundOf as := by
  unfold boundOf
  rw [← List.map_append, ← List.filter_append, List.singleton_append]

theorem marks_lead {lead : String} (h : lead ∈ leads) : marks lead = 0 := by
  simp only [leads, List.mem_cons, List.not_mem_nil, or_false] at h
  rcases h with rfl | rfl | rfl | rfl <;> decide

theorem marked_setText {lead : String} (hl : lead ∈ leads) {a : Assignment} (h : Plain a) :
    Marked (lead ++ setText a) (boundOf [a]) := by
  obtain ⟨column, value⟩ := a
  have hcol : marks (lead ++ column) = 0 := by rw [marks_append, marks_lead hl, h.column]
  have hequals : marks "=" = 0 := by decide
  cases value with
  | parameter =>
    have htext : lead ++ setText ⟨column, .parameter⟩ = "" ++ lead ++ column ++ "=?" ++ "" := by
      simp [setText, Term.toText, String.append_assoc]
    refine ⟨?_, ?_⟩
    · have hmark : marks "=?" = 1 := by decide
      rw [htext, String.empty_append, String.append_empty, marks_append, hcol, hmark]
      rfl
    · intro k c hk
      obtain ⟨rfl, rfl⟩ : k = 0 ∧ column = c := by
        cases k with
        | zero => exact ⟨rfl, Option.some.inj hk⟩
        | succ k => cases hk
      exact ⟨"", lead, "", hl, htext, by rw [String.empty_append, hcol]⟩
  | expression text =>
    refine Marked.of_none ?_
    rw [setText, ← String.append_assoc, ← String.append_assoc, marks_append, marks_append, hcol,
      hequals, Term.toText, h.value text rfl]

/-- A list of assignments behind a lead has one mark for each column that takes one. -/
theorem marked_list {sep : String} (hs : sep ∈ leads) {as : List Assignment}
    (h : ∀ a ∈ as, Plain a) {lead : String} (hl : lead ∈ leads) :
    Marked (lead ++ sep.intercalate (as.map setText)) (boundOf as) := by
  induction as generalizing lead with
  | nil =>
    rw [List.map_nil, String.intercalate_nil, String.append_empty]
    exact .of_none (marks_lead hl)
  | cons a as ih =>
    have ha := marked_setText hl (h a List.mem_cons_self)
    cases as with
    | nil =>
      rw [List.map_singleton, String.intercalate_singleton]
      exact ha
    | cons b bs =>
      have hrest := ih (fun c hc => h c (List.mem_cons_of_mem a hc)) hs
      have htext : lead ++ sep.intercalate ((a :: b :: bs).map setText) =
          lead ++ setText a ++ (sep ++ sep.intercalate ((b :: bs).map setText)) := by
        rw [List.map_cons, List.map_cons, String.intercalate_cons_cons]
        simp only [String.append_assoc]
      rw [htext, boundOf_cons]
      exact ha.append hrest

end Statement

end Tablewright
