/-! Keyed lists: values under names, in the order in which the names first came. -/

namespace Tablewright.Entries

variable {α : Type}

/-- The first value under a name. -/
def get? (name : String) (es : List (String × α)) : Option α :=
  (es.find? (·.1 == name)).map (·.2)

/-- Puts a value in the place of the one under its name, or behind all others if the name
is new. -/
def put (name : String) (a : α) : List (String × α) → List (String × α)
  | [] => [(name, a)]
  | (n, b) :: rest => if n = name then (n, a) :: rest else (n, b) :: put name a rest

theorem get?_cons (name n : String) (b : α) (rest : List (String × α)) :
    get? name ((n, b) :: rest) = if n = name then some b else get? name rest := by
  by_cases h : n = name <;> simp [get?, h]

theorem get?_map {β : Type} (name : String) (f : α → β) (es : List (String × α)) :
    get? name (es.map fun e => (e.1, f e.2)) = (get? name es).map f := by
  rw [get?, List.find?_map, Option.map_map, get?, Option.map_map]
  rfl

/-- What was put is found under its name, and everything else is where it was. -/
theorem get?_put (name other : String) (a : α) (es : List (String × α)) :
    get? other (put name a es) = if name = other then some a else get? other es := by
  induction es with
  | nil => simp [put, get?_cons]
  | cons e rest ih =>
    obtain ⟨n, b⟩ := e
    by_cases hn : n = name
    · subst hn
      by_cases ho : n = other <;> simp [put, get?_cons, ho]
    · by_cases ho : n = other
      · subst ho
        simp [put, get?_cons, hn, Ne.symm hn]
      · simp [put, get?_cons, hn, ho, ih]

/-- Without a name, everything else is where it was. -/
theorem get?_without (name other : String) (es : List (String × α)) :
    get? other (es.filter (·.1 != name)) = if other = name then none else get? other es := by
  rw [get?, List.find?_filter]
  by_cases h : other = name
  · simp [h]
  · rw [if_neg h, get?]
    congr 2
    funext e
    by_cases he : e.1 = other <;> simp [he, h]

/-- A new name comes behind all others. -/
theorem put_of_notMem {name : String} {es : List (String × α)} (h : name ∉ es.map Prod.fst)
    (a : α) : put name a es = es ++ [(name, a)] := by
  induction es with
  | nil => rfl
  | cons e rest ih =>
    obtain ⟨hne, hrest⟩ := not_or.mp fun hor => h (List.mem_cons.mpr hor)
    rw [put, if_neg (Ne.symm hne), ih hrest, List.cons_append]

end Tablewright.Entries
