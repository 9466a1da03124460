import Tablewright.Proofs.Sql.RoundTrip

/-! The grammar of the statements on one table. Its sentences are lists of tokens: a name is
any word, a value is a mark or the expression by which the database stamps a row, and every
list has at least one item. The text of a statement is a sentence as soon as its names are
words and none of its lists is empty. The expression may be any text, since what stands on
either side of a value ends a word. -/

namespace Tablewright.Sql

open Token

open StoreStatement (isWord)

/-! ## Sentences -/

/-- Items with separators between them, at least one. -/
inductive Listed {α : Type} (separator : Token) (Item : α → List Token → Prop) :
    List α → List Token → Prop where
  | last {a : α} {ts : List Token} : Item a ts → Listed separator Item [a] ts
  | more {a : α} {as : List α} {ts us : List Token} :
      Item a ts → Listed separator Item as us → Listed separator Item (a :: as) (ts ++ separator :: us)

inductive IsName : String → List Token → Prop where
  | word {s : String} : isWord s = true → IsName s [word s]

/-- A column that has to equal its parameter. -/
inductive IsEquation : String → List Token → Prop where
  | marked {column : String} :
      isWord column = true → IsEquation column [word column, symbol '=', symbol '?']

inductive IsValue (clock : String) : Term → List Token → Prop where
  | mark : IsValue clock .parameter [symbol '?']
  | stamp : IsValue clock (.expression clock) (tokens clock)

/-- A column and the value that it is given. -/
inductive IsSetting (clock : String) : Assignment → List Token → Prop where
  | given {a : Assignment} {ts : List Token} : isWord a.column = true → IsValue clock a.value ts →
      IsSetting clock a (word a.column :: symbol '=' :: ts)

/-- The clause that a row is found by. -/
inductive IsWhere : List String → List Token → Prop where
  | all {columns : List String} {ts : List Token} :
      Listed (word "AND") IsEquation columns ts → IsWhere columns (word "WHERE" :: ts)

inductive Sentence (clock : String) : Statement → List Token → Prop where
  | select {table : String} {columns : List String} {ts : List Token} : isWord table = true →
      Listed (symbol ',') IsName columns ts →
      Sentence clock (.select table columns [])
        ([word "SELECT"] ++ ts ++ [word "FROM", word table])
  | insert {table : String} {entries : List Assignment} {ts us : List Token} :
      isWord table = true → Listed (symbol ',') IsName (entries.map (·.column)) ts →
      Listed (symbol ',') (IsValue clock) (entries.map (·.value)) us →
      Sentence clock (.insert table entries)
        ([word "INSERT", word "INTO", word table, symbol '('] ++ ts ++
          [symbol ')', word "VALUES", symbol '('] ++ us ++ [symbol ')'])
  | update {table : String} {sets : List Assignment} {conditions : List String}
      {ts us : List Token} : isWord table = true → Listed (symbol ',') (IsSetting clock) sets ts →
      IsWhere conditions us →
      Sentence clock (.update table sets conditions)
        ([word "UPDATE", word table, word "SET"] ++ ts ++ us)
  | delete {table : String} {conditions : List String} {us : List Token} : isWord table = true →
      IsWhere conditions us →
      Sentence clock (.delete table conditions) ([word "DELETE", word "FROM", word table] ++ us)

/-! ## Lists -/

section Listed

variable {α : Type} {Item : α → List Token → Prop}

theorem Listed.ne_nil {separator : Token} {as : List α} {ts : List Token}
    (h : Listed separator Item as ts) : as ≠ [] := by
  cases h <;> simp

/-- The items of a list, written next to each other, are a list of the grammar if each of
them is an item of it. -/
theorem listed_intercalate {sep : String} {separator : Token} (h : Parts sep)
    (hsep : tokens sep = [separator]) {text : α → String} {as : List α} (hne : as ≠ [])
    (hitems : ∀ a ∈ as, Item a (tokens (text a))) :
    Listed separator Item as (tokens (sep.intercalate (as.map text))) := by
  induction as with
  | nil => exact absurd rfl hne
  | cons a as ih =>
    obtain ⟨ha, has⟩ := List.forall_mem_cons.mp hitems
    cases as with
    | nil =>
      rw [List.map_singleton, String.intercalate_singleton]
      exact .last ha
    | cons b as =>
      rw [List.map_cons, List.map_cons, String.intercalate_cons_cons, tokens_around h, hsep,
        List.append_assoc, List.singleton_append]
      exact .more ha (ih (by simp) has)

/-- Items that are given by others. -/
theorem Listed.map {β : Type} {separator : Token} {Item : β → List Token → Prop} {g : α → β}
    {as : List α} {ts : List Token} (h : Listed separator (fun a => Item (g a)) as ts) :
    Listed separator Item (as.map g) ts := by
  induction h with
  | last ha => exact .last ha
  | more ha _ ih => exact .more ha ih

theorem tokens_comma : tokens ", " = [symbol ','] := by decide

theorem listed_comma {text : α → String} {as : List α} (hne : as ≠ [])
    (hitems : ∀ a ∈ as, Item a (tokens (text a))) :
    Listed (symbol ',') Item as (tokens (Statement.commaList (as.map text))) :=
  listed_intercalate parts_comma tokens_comma hne hitems

end Listed

/-! ## Items -/

theorem isName_tokens {s : String} (h : isWord s = true) : IsName s (tokens s) := by
  rw [tokens_word h]
  exact .word h

theorem parts_equals : Parts "=" := ⟨by decide, by decide, by decide⟩

theorem tokens_equals : tokens "=" = [symbol '='] := by decide

theorem isEquation_tokens {column : String} (h : isWord column = true) :
    IsEquation column (tokens (Statement.equation column)) := by
  have hmark : startsWord "=?".toList = false ∧ tokens "=?" = [symbol '=', symbol '?'] := by decide
  rw [Statement.equation, tokens_append (.inr hmark.1), tokens_word h, hmark.2]
  exact .marked h

/-- A value that is a mark or the stamp. -/
def IsGiven (clock : String) (v : Term) : Prop := v = .parameter ∨ v = .expression clock

theorem isValue_tokens {clock : String} {v : Term} (h : IsGiven clock v) :
    IsValue clock v (tokens v.toText) := by
  obtain rfl | rfl := h
  · have hmark : tokens "?" = [symbol '?'] := by decide
    rw [Term.toText, hmark]
    exact .mark
  · exact .stamp

theorem isSetting_tokens {clock : String} {a : Assignment} (hc : isWord a.column = true)
    (hv : IsGiven clock a.value) : IsSetting clock a (tokens (Statement.setText a)) := by
  rw [Statement.setText, tokens_around parts_equals, tokens_word hc, tokens_equals,
    List.append_assoc]
  exact .given hc (isValue_tokens hv)

/-! ## Statements -/

section Statements

variable {clock table : String} {columns conditions : List String} {entries : List Assignment}

theorem isWhere_tokens (hne : conditions ≠ []) (hc : ∀ c ∈ conditions, isWord c = true) :
    IsWhere conditions (tokens (Statement.whereText conditions)) := by
  have hfront : endsWord "WHERE ".toList = false := by decide
  have htokens : tokens "WHERE " = [word "WHERE"] ∧ tokens " AND " = [word "AND"] := by decide
  rw [Statement.whereText, tokens_append (.inl hfront), htokens.1]
  exact .all (listed_intercalate parts_and htokens.2 hne fun c h => isEquation_tokens (hc c h))

/-- A statement with a clause behind it. -/
theorem tokens_withClause (text clause : String) :
    tokens (Statement.withClause text clause) = tokens text ++ tokens clause := by
  have hspace : tokens " " = [] := by decide
  rw [Statement.withClause, tokens_around parts_space, hspace, List.append_nil]

theorem sentence_select (ht : isWord table = true) (hne : columns ≠ [])
    (hc : ∀ c ∈ columns, isWord c = true) :
    Sentence clock (.select table columns []) (tokens (Statement.select table columns []).toText) := by
  have hlist : Listed (symbol ',') IsName columns (tokens (Statement.commaList columns)) := by
    have h : Listed (symbol ',') IsName columns (tokens (Statement.commaList (columns.map id))) :=
      listed_comma hne fun c h => isName_tokens (hc c h)
    rwa [List.map_id] at h
  rw [tokens_columns hc] at hlist
  rw [tokens_select hc ht]
  exact .select ht hlist

theorem sentence_insert (ht : isWord table = true) (hne : entries ≠ [])
    (hc : ∀ a ∈ entries, isWord a.column = true) (hv : ∀ a ∈ entries, IsGiven clock a.value) :
    Sentence clock (.insert table entries) (tokens (Statement.insert table entries).toText) := by
  have hopen : Parts " (" := ⟨by decide, by decide, by decide⟩
  have hmiddle : Parts ") VALUES (" := ⟨by decide, by decide, by decide⟩
  have hends : endsWord "INSERT INTO ".toList = false ∧ startsWord ")".toList = false := by decide
  have htokens : tokens "INSERT INTO " = [word "INSERT", word "INTO"] ∧
      tokens " (" = [symbol '('] ∧
      tokens ") VALUES (" = [symbol ')', word "VALUES", symbol '('] ∧
      tokens ")" = [symbol ')'] := by decide
  have hcolumns : Listed (symbol ',') (fun a : Assignment => IsName a.column) entries
      (tokens (Statement.commaList (entries.map (·.column)))) :=
    listed_comma hne fun a h => isName_tokens (hc a h)
  have hvalues : Listed (symbol ',') (fun a : Assignment => IsValue clock a.value) entries
      (tokens (Statement.commaList (entries.map (·.value.toText)))) :=
    listed_comma hne fun a h => isValue_tokens (hv a h)
  rw [Statement.insert_toText, tokens_append (.inr hends.2), tokens_around hmiddle,
    tokens_around hopen, tokens_append (.inl hends.1), tokens_word ht, htokens.1, htokens.2.1,
    htokens.2.2.1, htokens.2.2.2]
  exact .insert ht hcolumns.map hvalues.map

theorem sentence_update (ht : isWord table = true) (hne : entries ≠ [])
    (hc : ∀ a ∈ entries, isWord a.column = true) (hv : ∀ a ∈ entries, IsGiven clock a.value)
    (hconds : conditions ≠ []) (hw : ∀ c ∈ conditions, isWord c = true) :
    Sentence clock (.update table entries conditions)
      (tokens (Statement.update table entries conditions).toText) := by
  have hset : Parts " SET " := ⟨by decide, by decide, by decide⟩
  have hfront : endsWord "UPDATE ".toList = false := by decide
  have htokens : tokens "UPDATE " = [word "UPDATE"] ∧ tokens " SET " = [word "SET"] := by decide
  have hsets := listed_comma hne fun a h => isSetting_tokens (hc a h) (hv a h)
  rw [Statement.update_toText, tokens_withClause, tokens_around hset, tokens_append (.inl hfront),
    tokens_word ht, htokens.1, htokens.2]
  exact .update ht hsets (isWhere_tokens hconds hw)

theorem sentence_delete (ht : isWord table = true) (hconds : conditions ≠ [])
    (hw : ∀ c ∈ conditions, isWord c = true) :
    Sentence clock (.delete table conditions)
      (tokens (Statement.delete table conditions).toText) := by
  have hfront : endsWord "DELETE FROM ".toList = false := by decide
  have htokens : tokens "DELETE FROM " = [word "DELETE", word "FROM"] := by decide
  have htext : (Statement.delete table conditions).toText =
    Statement.withClause ("DELETE FROM " ++ table) (Statement.whereText conditions) := rfl
  rw [htext, tokens_withClause, tokens_append (.inl hfront), tokens_word ht, htokens]
  exact .delete ht (isWhere_tokens hconds hw)

end Statements

end Tablewright.Sql
