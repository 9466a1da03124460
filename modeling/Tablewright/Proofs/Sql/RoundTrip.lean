import Tablewright.Filter.Like
import Tablewright.Proofs.Sql.Query

/-! Clauses read back. A filter's clause is read as the conditions, the order and the limit
that it was written from, whatever words its columns are. The tokens of a text are those of
its parts; each part is then read off the front of the tokens, the rest being left as it is
because what may follow a part can never be taken for more of it. -/

namespace Tablewright.Sql

open Token

open StoreStatement (isWord)

/-! ## Tokens of what is written -/

theorem endsWord_append {cs ds : List Char} (hne : ds ≠ []) : endsWord (cs ++ ds) = endsWord ds := by
  rw [endsWord, endsWord, List.getLast?_append, List.getLast?_eq_some_getLast hne]
  rfl

/-- A separator that neither begins nor ends with a character of a word. -/
structure Parts (sep : String) : Prop where
  notEmpty : sep.toList ≠ []
  front : startsWord sep.toList = false
  back : endsWord sep.toList = false

theorem tokens_around {sep : String} (h : Parts sep) (s t : String) :
    tokens (s ++ sep ++ t) = tokens s ++ tokens sep ++ tokens t := by
  have hback : endsWord (s ++ sep).toList = false := by
    rw [String.toList_append, endsWord_append h.notEmpty]
    exact h.back
  rw [tokens_append (.inl hback), tokens_append (.inr h.front)]

theorem parts_space : Parts " " := ⟨by decide, by decide, by decide⟩

theorem parts_comma : Parts ", " := ⟨by decide, by decide, by decide⟩

theorem parts_and : Parts " AND " := ⟨by decide, by decide, by decide⟩

theorem tokens_intercalate {sep : String} (h : Parts sep) (parts : List String) :
    tokens (sep.intercalate parts) = (tokens sep).intercalate (parts.map tokens) := by
  induction parts with
  | nil => rfl
  | cons s parts ih =>
    cases parts with
    | nil => simp
    | cons t parts =>
      rw [String.intercalate_cons_cons, tokens_around h, ih]
      simp only [List.map_cons, List.intercalate_cons_cons]

/-- White space leaves nothing between the tokens of two parts. -/
theorem intercalate_empty (ts : List (List Token)) : [].intercalate ts = ts.flatten := by
  induction ts with
  | nil => rfl
  | cons t ts ih =>
    cases ts with
    | nil => simp
    | cons u ts =>
      rw [List.intercalate_cons_cons, ih, List.append_nil]
      rfl

def operandToken : Operand → Token
  | .parameter => symbol '?'
  | .column name => word name

def exprTokens (e : Expr) : List Token :=
  if e.folded then [word "UPPER", symbol '(', operandToken e.operand, symbol ')']
  else [operandToken e.operand]

def comparisonTokens : Comparison → List Token
  | .eq => [symbol '=']
  | .ne => [symbol '<', symbol '>']
  | .lt => [symbol '<']
  | .le => [symbol '<', symbol '=']
  | .gt => [symbol '>']
  | .ge => [symbol '>', symbol '=']

def testTokens : Condition → List Token
  | .compare _ op right => comparisonTokens op ++ exprTokens right
  | .like _ pattern escape =>
    word "LIKE" :: (exprTokens pattern ++
      [word "ESCAPE", symbol '\'', symbol escape, symbol '\''])
  | .isIn _ items =>
    word "IN" :: symbol '(' :: ([symbol ','].intercalate (items.map exprTokens) ++ [symbol ')'])
  | .between _ lower upper =>
    word "BETWEEN" :: (exprTokens lower ++ word "AND" :: exprTokens upper)

def Condition.left : Condition → Expr
  | compare left _ _ | like left _ _ | isIn left _ | between left _ _ => left

def conditionTokens (c : Condition) : List Token := exprTokens c.left ++ testTokens c

def sortTokens (s : SortColumn) : List Token :=
  word s.column :: if s.descending then [word "DESC"] else []

/-! ### What a filter writes -/

/-- What a test says of a column. -/
def testCondition (left : Expr) : ColumnTest → Condition
  | .compare op right => .compare left op ⟨left.folded, right⟩
  | .matchesPattern => .like left ⟨left.folded, .parameter⟩ Like.escapeMark
  | .isIn count => .isIn left (List.replicate count ⟨left.folded, .parameter⟩)
  | .between lower upper => .between left ⟨left.folded, lower⟩ ⟨left.folded, upper⟩

def condition : Conjunct → Condition
  | .tenant column => .compare ⟨false, .column column⟩ .eq ⟨false, .parameter⟩
  | .test column caseless t => testCondition ⟨caseless, .column column⟩ t

def IsNamed : Operand → Prop
  | .parameter => True
  | .column name => isWord name = true

/-- A test whose columns are words, and that has a value to look for. -/
def IsReadableTest : ColumnTest → Prop
  | .compare _ right => IsNamed right
  | .matchesPattern => True
  | .isIn count => count ≠ 0
  | .between lower upper => IsNamed lower ∧ IsNamed upper

def IsReadable : Conjunct → Prop
  | .tenant column => isWord column = true
  | .test column _ t => isWord column = true ∧ IsReadableTest t

theorem tokens_operand {o : Operand} (h : IsNamed o) : tokens o.toText = [operandToken o] := by
  cases o with
  | parameter => decide
  | column name => exact tokens_word h

theorem tokens_fold {o : Operand} (h : IsNamed o) (caseless : Bool) :
    tokens (Conjunct.fold caseless o.toText) = exprTokens ⟨caseless, o⟩ := by
  cases caseless with
  | false => exact tokens_operand h
  | true =>
    have hopen : endsWord "UPPER(".toList = false := by decide
    have hclose : startsWord ")".toList = false := by decide
    have htokens : tokens "UPPER(" = [word "UPPER", symbol '('] ∧ tokens ")" = [symbol ')'] := by
      decide
    rw [Conjunct.fold, if_pos rfl, tokens_append (.inr hclose), tokens_append (.inl hopen),
      tokens_operand h, htokens.1, htokens.2]
    rfl

theorem tokens_symbol (op : Comparison) : tokens op.symbol = comparisonTokens op := by
  cases op <;> decide

theorem tokens_mark (caseless : Bool) :
    tokens (Conjunct.mark caseless) = exprTokens ⟨caseless, .parameter⟩ :=
  tokens_fold (o := .parameter) trivial caseless

theorem tokens_testText {t : ColumnTest} (h : IsReadableTest t) (left : Expr) :
    tokens (Conjunct.testText left.folded t) = testTokens (testCondition left t) := by
  cases t with
  | compare op right =>
    rw [Conjunct.testText, tokens_around parts_space, tokens_symbol, tokens_fold h]
    have hspace : tokens " " = [] := by decide
    rw [hspace, List.append_nil]
    rfl
  | matchesPattern =>
    have hback : Parts " ESCAPE '\\'" := ⟨by decide, by decide, by decide⟩
    have hfront : endsWord "LIKE ".toList = false := by decide
    have htokens : tokens "LIKE " = [word "LIKE"] ∧ tokens " ESCAPE '\\'" =
        [word "ESCAPE", symbol '\'', symbol '\\', symbol '\''] := by decide
    rw [Conjunct.testText, tokens_append (.inr hback.front), tokens_append (.inl hfront), tokens_mark,
      htokens.1, htokens.2]
    rfl
  | isIn count =>
    have hfront : endsWord "IN (".toList = false := by decide
    have hback : startsWord ")".toList = false := by decide
    have htokens : tokens "IN (" = [word "IN", symbol '('] ∧ tokens ")" = [symbol ')'] ∧
        tokens ", " = [symbol ','] := by decide
    rw [Conjunct.testText, tokens_append (.inr hback), tokens_append (.inl hfront),
      tokens_intercalate parts_comma, List.map_replicate, tokens_mark, htokens.1, htokens.2.1,
      htokens.2.2]
    simp [testTokens, testCondition]
  | between lower upper =>
    have hfront : endsWord "BETWEEN ".toList = false := by decide
    have htokens : tokens "BETWEEN " = [word "BETWEEN"] ∧ tokens " AND " = [word "AND"] := by decide
    rw [Conjunct.testText, tokens_around parts_and, tokens_append (.inl hfront), tokens_fold h.1,
      tokens_fold h.2, htokens.1, htokens.2]
    simp [testTokens, testCondition]

theorem tokens_conjunct {q : Conjunct} (h : IsReadable q) :
    tokens q.toText = conditionTokens (condition q) := by
  cases q with
  | tenant column =>
    have hback : startsWord "=?".toList = false := by decide
    have htokens : tokens "=?" = [symbol '=', symbol '?'] := by decide
    rw [Conjunct.toText, tokens_append (.inr hback), tokens_word h, htokens]
    rfl
  | test column caseless t =>
    have hspace : tokens " " = [] := by decide
    have hcolumn := tokens_fold (o := .column column) h.1 caseless
    have hleft : (testCondition ⟨caseless, .column column⟩ t).left = ⟨caseless, .column column⟩ := by
      cases t <;> rfl
    rw [Conjunct.toText, tokens_around parts_space, hspace, List.append_nil, condition,
      conditionTokens, hleft]
    rw [← tokens_testText h.2 ⟨caseless, .column column⟩, ← hcolumn]
    rfl

theorem tokens_sort {s : SortColumn} (h : isWord s.column = true) :
    tokens s.toText = sortTokens s := by
  unfold SortColumn.toText sortTokens
  split
  · have hback : startsWord " DESC".toList = false := by decide
    have htokens : tokens " DESC" = [word "DESC"] := by decide
    rw [tokens_append (.inr hback), tokens_word h, htokens]
    rfl
  · exact tokens_word h

/-! ## Reading the tokens -/

/-- What may follow an expression: no bracket, which would make a call of a column. -/
def EndsExpr (rest : List Token) : Prop := rest.head? ≠ some (symbol '(')

theorem readOperand_tokens (o : Operand) (rest : List Token) :
    readOperand (operandToken o :: rest) = some (o, rest) := by
  cases o <;> rfl

theorem readExpr_tokens {rest : List Token} (h : EndsExpr rest) (e : Expr) :
    readExpr (exprTokens e ++ rest) = some (e, rest) := by
  obtain ⟨folded, operand⟩ := e
  cases folded with
  | true =>
    simp only [exprTokens, if_true, List.cons_append, List.nil_append, readExpr,
      readOperand_tokens]
    rfl
  | false =>
    simp only [exprTokens, Bool.false_eq_true, if_false, List.cons_append, List.nil_append]
    unfold readExpr
    split
    · rename_i heq
      obtain ⟨-, hrest⟩ := List.cons.inj heq
      rw [hrest] at h
      exact absurd rfl h
    · rw [readOperand_tokens]
      rfl

theorem exprTokens_ne (e : Expr) (rest : List Token) (c : Char) (h : c ≠ '?') :
    (exprTokens e ++ rest).head? ≠ some (symbol c) := by
  obtain ⟨folded, operand⟩ := e
  cases folded <;> cases operand <;> simp [exprTokens, operandToken, h.symm]

theorem readComparison_tokens (op : Comparison) (e : Expr) (rest : List Token) :
    readComparison (comparisonTokens op ++ (exprTokens e ++ rest)) = some (op, exprTokens e ++ rest) := by
  have heq := exprTokens_ne e rest '=' (by decide)
  have hgt := exprTokens_ne e rest '>' (by decide)
  generalize exprTokens e ++ rest = ts at heq hgt ⊢
  cases op with
  | eq | ne | le | ge => rfl
  | lt =>
    simp only [comparisonTokens, List.cons_append, List.nil_append]
    unfold readComparison
    split <;> simp_all
  | gt =>
    simp only [comparisonTokens, List.cons_append, List.nil_append]
    unfold readComparison
    split <;> simp_all

section Separated

variable {α : Type} {sep : Token} {item : Reader α} {tok : α → List Token}
  {P : List Token → Prop}

theorem separatedUpTo_tokens (hsep : ∀ ts, P (sep :: ts)) {as : List α} (hne : as ≠ [])
    (hitem : ∀ a ∈ as, ∀ rest, P rest → item (tok a ++ rest) = some (a, rest))
    {rest : List Token} (hrest : P rest) (hhead : rest.head? ≠ some sep) {n : Nat}
    (hn : as.length ≤ n) :
    separatedUpTo sep item n ([sep].intercalate (as.map tok) ++ rest) = some (as, rest) := by
  induction as generalizing n with
  | nil => exact absurd rfl hne
  | cons a as ih =>
    cases n with
    | zero => cases hn
    | succ n =>
      cases as with
      | nil =>
        rw [List.map_singleton, List.intercalate_singleton, separatedUpTo,
          hitem a List.mem_cons_self rest hrest]
        cases rest with
        | nil => rfl
        | cons t rest =>
          have ht : t ≠ sep := fun h => hhead (congrArg some h)
          simp [ht]
      | cons b bs =>
        have hmore := ih (List.cons_ne_nil b bs) (fun c hc => hitem c (List.mem_cons_of_mem a hc))
          (Nat.le_of_succ_le_succ hn)
        rw [List.map_cons, List.map_cons, List.intercalate_cons_cons, ← List.map_cons,
          List.append_assoc, List.append_assoc, List.singleton_append, separatedUpTo,
          hitem a List.mem_cons_self _ (hsep _)]
        simp only [Option.bind_eq_bind, Option.bind_some, if_true, hmore]
        rfl

theorem length_intercalate {as : List α} (htok : ∀ a ∈ as, tok a ≠ []) :
    as.length ≤ ([sep].intercalate (as.map tok)).length := by
  induction as with
  | nil => exact Nat.zero_le _
  | cons a as ih =>
    have ha : 0 < (tok a).length := List.length_pos_iff.mpr (htok a List.mem_cons_self)
    have has := ih fun b hb => htok b (List.mem_cons_of_mem a hb)
    cases as with
    | nil =>
      rw [List.map_singleton, List.intercalate_singleton]
      exact ha
    | cons b bs =>
      rw [List.map_cons, List.map_cons, List.intercalate_cons_cons, ← List.map_cons,
        List.length_append, List.length_append, List.length_cons]
      omega

/-- Items that are each read back can be read one after the other. -/
theorem separated_tokens (hsep : ∀ ts, P (sep :: ts)) {as : List α} (hne : as ≠ [])
    (htok : ∀ a ∈ as, tok a ≠ [])
    (hitem : ∀ a ∈ as, ∀ rest, P rest → item (tok a ++ rest) = some (a, rest))
    {rest : List Token} (hrest : P rest) (hhead : rest.head? ≠ some sep) :
    separated sep item ([sep].intercalate (as.map tok) ++ rest) = some (as, rest) := by
  refine separatedUpTo_tokens hsep hne hitem hrest hhead ?_
  rw [List.length_append]
  exact Nat.le_add_right_of_le (length_intercalate htok)

end Separated

theorem exprTokens_ne_nil (e : Expr) : exprTokens e ≠ [] := by
  unfold exprTokens
  split <;> exact List.cons_ne_nil _ _

/-- A condition that lists at least one value if it lists any. -/
def Condition.IsComplete : Condition → Prop
  | isIn _ items => items ≠ []
  | _ => True

theorem readTest_tokens {rest : List Token} (h : EndsExpr rest) {c : Condition} (hc : c.IsComplete) :
    readTest c.left (testTokens c ++ rest) = some (c, rest) := by
  have hword : ∀ w ts, EndsExpr (word w :: ts) := by
    intro w ts h
    cases h
  cases c with
  | compare left op right =>
    have htest : testTokens (.compare left op right) ++ rest =
        comparisonTokens op ++ (exprTokens right ++ rest) := List.append_assoc ..
    rw [htest]
    unfold readTest
    split
    · rename_i heq
      cases op <;> cases heq
    · rename_i heq
      cases op <;> cases heq
    · rename_i heq
      cases op <;> cases heq
    · rw [readComparison_tokens]
      simp only [Option.bind_eq_bind, Option.bind_some, readExpr_tokens h]
      rfl
  | like left pattern escape =>
    have htest : testTokens (.like left pattern escape) ++ rest = word "LIKE" :: (exprTokens pattern ++
        (word "ESCAPE" :: symbol '\'' :: symbol escape :: symbol '\'' :: rest)) := by simp [testTokens]
    rw [htest, readTest, readExpr_tokens (hword _ _)]
    rfl
  | isIn left items =>
    have htest : testTokens (.isIn left items) ++ rest = word "IN" :: symbol '(' ::
        ([symbol ','].intercalate (items.map exprTokens) ++ symbol ')' :: rest) := by simp [testTokens]
    have hitems : separated (symbol ',') readExpr
        ([symbol ','].intercalate (items.map exprTokens) ++ symbol ')' :: rest) =
          some (items, symbol ')' :: rest) := by
      refine separated_tokens (P := EndsExpr) ?_ hc (fun e _ => exprTokens_ne_nil e)
        (fun e _ _ hr => readExpr_tokens hr e) ?_ ?_
      · intro ts h
        cases h
      · intro h
        cases h
      · intro h
        cases h
    rw [htest, readTest, hitems]
    rfl
  | between left lower upper =>
    have htest : testTokens (.between left lower upper) ++ rest = word "BETWEEN" :: (exprTokens lower ++
        (word "AND" :: (exprTokens upper ++ rest))) := by simp [testTokens]
    rw [htest, readTest, readExpr_tokens (hword _ _)]
    simp only [Option.bind_eq_bind, Option.bind_some, readExpr_tokens h]
    rfl

theorem testTokens_ends (c : Condition) (rest : List Token) : EndsExpr (testTokens c ++ rest) := by
  cases c with
  | compare left op right => cases op <;> exact fun h => by cases h
  | like | isIn | between => exact fun h => by cases h

theorem readCondition_tokens {rest : List Token} (h : EndsExpr rest) {c : Condition}
    (hc : c.IsComplete) : readCondition (conditionTokens c ++ rest) = some (c, rest) := by
  rw [conditionTokens, List.append_assoc, readCondition, readExpr_tokens (testTokens_ends c rest)]
  exact readTest_tokens h hc

theorem readSort_tokens {rest : List Token} (h : rest.head? ≠ some (word "DESC")) (s : SortColumn) :
    readSort (sortTokens s ++ rest) = some (s, rest) := by
  obtain ⟨column, descending⟩ := s
  cases descending with
  | true => rfl
  | false =>
    simp only [sortTokens, Bool.false_eq_true, if_false, List.cons_append, List.nil_append]
    unfold readSort
    cases rest with
    | nil => rfl
    | cons t rest =>
      have ht : t ≠ word "DESC" := fun hd => h (congrArg some hd)
      simp [readName]
      split <;> simp_all

/-! ## Whole clauses -/

def conditionsTokens (cs : List Condition) : List Token :=
  if cs.isEmpty then [] else word "WHERE" :: [word "AND"].intercalate (cs.map conditionTokens)

def sortsTokens (ss : List SortColumn) : List Token :=
  if ss.isEmpty then [] else
    word "ORDER" :: word "BY" :: [symbol ','].intercalate (ss.map sortTokens)

def limitTokens (n : Nat) : List Token :=
  [word "FETCH", word "FIRST", word (String.ofList (Nat.toDigits 10 n)), word "ROWS", word "ONLY"]

theorem readConditions_tokens {cs : List Condition} (hcs : ∀ c ∈ cs, c.IsComplete)
    {rest : List Token} (h : EndsExpr rest) (hand : rest.head? ≠ some (word "AND"))
    (hwhere : rest.head? ≠ some (word "WHERE")) :
    readConditions (conditionsTokens cs ++ rest) = some (cs, rest) := by
  cases cs with
  | nil =>
    have hnil : conditionsTokens [] = [] := rfl
    rw [hnil, List.nil_append]
    unfold readConditions
    split
    · exact absurd rfl hwhere
    · rfl
  | cons c cs =>
    rw [conditionsTokens, if_neg (by simp), List.cons_append, readConditions]
    refine separated_tokens (P := EndsExpr) ?_ (List.cons_ne_nil c cs) ?_
      (fun c hc rest hr => readCondition_tokens hr (hcs c hc)) h hand
    · intro ts h
      cases h
    · intro c _ h
      exact exprTokens_ne_nil c.left (List.append_eq_nil_iff.mp h).1

theorem readSorts_tokens {ss : List SortColumn} {rest : List Token}
    (hdesc : rest.head? ≠ some (word "DESC")) (hcomma : rest.head? ≠ some (symbol ','))
    (horder : rest.head? ≠ some (word "ORDER")) :
    readSorts (sortsTokens ss ++ rest) = some (ss, rest) := by
  cases ss with
  | nil =>
    have hnil : sortsTokens [] = [] := rfl
    rw [hnil, List.nil_append]
    unfold readSorts
    split
    · exact absurd rfl horder
    · rfl
  | cons s ss =>
    rw [sortsTokens, if_neg (by simp), List.cons_append, List.cons_append, readSorts]
    refine separated_tokens (P := fun ts => ts.head? ≠ some (word "DESC")) ?_
      (List.cons_ne_nil s ss) ?_ (fun s _ rest hr => readSort_tokens hr s) hdesc hcomma
    · intro ts h
      cases h
    · intro s _ h
      cases h

theorem readLimit_tokens (n : Nat) : readLimit (limitTokens n) = some n := by
  have hdigits : (Nat.toDigits 10 n).all Char.isDigit = true :=
    List.all_eq_true.mpr fun c hc => Nat.isDigit_of_mem_toDigits (by decide) (by decide) hc
  rw [limitTokens, readLimit, String.toList_ofList, readNumber, if_pos hdigits,
    Nat.ofDigitChars_ten_toDigits]

theorem head?_sortsTokens (ss : List SortColumn) (n : Nat) :
    (sortsTokens ss ++ limitTokens n).head? = some (word "ORDER") ∨
      (sortsTokens ss ++ limitTokens n).head? = some (word "FETCH") := by
  unfold sortsTokens
  split
  · exact .inr rfl
  · exact .inl rfl

theorem readClause_tokens {c : Clause} (hc : ∀ q ∈ c.conditions, q.IsComplete) :
    readClause (conditionsTokens c.conditions ++ (sortsTokens c.sorts ++ limitTokens c.limit)) =
      some c := by
  have hhead := head?_sortsTokens c.sorts c.limit
  have hsorts : readSorts (sortsTokens c.sorts ++ limitTokens c.limit) =
      some (c.sorts, limitTokens c.limit) :=
    readSorts_tokens (by simp [limitTokens]) (by simp [limitTokens]) (by simp [limitTokens])
  generalize sortsTokens c.sorts ++ limitTokens c.limit = rest at hhead hsorts ⊢
  have hconditions : readConditions (conditionsTokens c.conditions ++ rest) =
      some (c.conditions, rest) := by
    refine readConditions_tokens hc ?_ ?_ ?_
    · rcases hhead with h | h <;> rw [EndsExpr, h] <;> decide
    · rcases hhead with h | h <;> rw [h] <;> decide
    · rcases hhead with h | h <;> rw [h] <;> decide
  rw [readClause, hconditions]
  simp only [Option.bind_eq_bind, Option.bind_some, hsorts, readLimit_tokens]
  rfl

/-- What a filter's clause is read as. -/
def clauseOf (c : FilterClause) : Clause := ⟨c.conjuncts.map condition, c.sorts, c.limit.toNat⟩

theorem isWord_digits (n : Nat) : isWord (String.ofList (Nat.toDigits 10 n)) = true := by
  rw [isWord, Bool.and_eq_true, bne_iff_ne, String.toList_ofList, List.all_eq_true]
  refine ⟨?_, fun c hc => ?_⟩
  · intro h
    have hnil := congrArg String.toList h
    rw [String.toList_ofList] at hnil
    exact Nat.toDigits_ne_nil hnil
  · have hdigit : c.isDigit = true := Nat.isDigit_of_mem_toDigits (by decide) (by decide) hc
    simp [StoreStatement.isWordChar, Char.isAlphanum, hdigit]

theorem tokens_limit {n : Int} (h : 0 ≤ n) :
    tokens ("FETCH FIRST " ++ Integer.toText n ++ " ROWS ONLY") = limitTokens n.toNat := by
  have htext : Integer.toText n = String.ofList (Nat.toDigits 10 n.toNat) := by
    rw [Integer.toText, if_neg (Int.not_lt.mpr h), List.nil_append]
    congr 2
    omega
  have hword : isWord (Integer.toText n) = true := by
    rw [htext]
    exact isWord_digits n.toNat
  have hfront : endsWord "FETCH FIRST ".toList = false := by decide
  have hback : startsWord " ROWS ONLY".toList = false := by decide
  have htokens : tokens "FETCH FIRST " = [word "FETCH", word "FIRST"] ∧
      tokens " ROWS ONLY" = [word "ROWS", word "ONLY"] := by decide
  rw [tokens_append (.inr hback), tokens_append (.inl hfront), tokens_word hword, htokens.1,
    htokens.2, htext]
  rfl

/-- A clause whose columns are words, and whose limit is a number of rows. -/
structure IsReadableClause (c : FilterClause) : Prop where
  conjuncts : ∀ q ∈ c.conjuncts, IsReadable q
  sorts : ∀ s ∈ c.sorts, isWord s.column = true
  limit : 0 ≤ c.limit

theorem isComplete_condition {q : Conjunct} (h : IsReadable q) : (condition q).IsComplete := by
  cases q with
  | tenant column => trivial
  | test column caseless t =>
    cases t with
    | isIn count =>
      intro hnil
      exact h.2 (List.replicate_eq_nil_iff _ |>.mp hnil)
    | compare | matchesPattern | between => trivial

theorem tokens_whereParts {c : FilterClause} (h : IsReadableClause c) :
    (c.whereParts.map tokens).flatten = conditionsTokens (c.conjuncts.map condition) := by
  unfold FilterClause.whereParts conditionsTokens
  rw [List.isEmpty_map]
  split
  · rfl
  · have hfront : endsWord "WHERE ".toList = false := by decide
    have htokens : tokens "WHERE " = [word "WHERE"] ∧ tokens " AND " = [word "AND"] := by decide
    have hmap : (c.conjuncts.map Conjunct.toText).map tokens =
        (c.conjuncts.map condition).map conditionTokens := by
      rw [List.map_map, List.map_map]
      exact List.map_congr_left fun q hq => tokens_conjunct (h.conjuncts q hq)
    rw [List.map_singleton, List.flatten_singleton, tokens_append (.inl hfront),
      tokens_intercalate parts_and, hmap, htokens.1, htokens.2]
    rfl

theorem tokens_orderParts {c : FilterClause} (h : IsReadableClause c) :
    (c.orderParts.map tokens).flatten = sortsTokens c.sorts := by
  unfold FilterClause.orderParts sortsTokens
  split
  · rfl
  · have hfront : endsWord "ORDER BY ".toList = false := by decide
    have htokens : tokens "ORDER BY " = [word "ORDER", word "BY"] ∧ tokens ", " = [symbol ','] := by
      decide
    have hmap : (c.sorts.map SortColumn.toText).map tokens = c.sorts.map sortTokens := by
      rw [List.map_map]
      exact List.map_congr_left fun s hs => tokens_sort (h.sorts s hs)
    rw [List.map_singleton, List.flatten_singleton, tokens_append (.inl hfront),
      tokens_intercalate parts_comma, hmap, htokens.1, htokens.2]
    rfl

theorem tokens_clause {c : FilterClause} (h : IsReadableClause c) :
    tokens c.toText = conditionsTokens (c.conjuncts.map condition) ++
      (sortsTokens c.sorts ++ limitTokens c.limit.toNat) := by
  have hspace : tokens " " = [] := by decide
  rw [FilterClause.toText, tokens_intercalate parts_space, hspace, intercalate_empty,
    ← tokens_whereParts h, ← tokens_orderParts h, ← tokens_limit h.limit]
  simp [FilterClause.limitText]

/-- A readable clause is read as what it was written from. -/
theorem ofText?_toText {c : FilterClause} (h : IsReadableClause c) :
    Clause.ofText? c.toText = some (clauseOf c) := by
  have hcomplete : ∀ q ∈ (clauseOf c).conditions, q.IsComplete := by
    intro q hq
    obtain ⟨p, hp, rfl⟩ := List.mem_map.mp hq
    exact isComplete_condition (h.conjuncts p hp)
  rw [Clause.ofText?, tokens_clause h]
  exact readClause_tokens hcomplete

/-! ## Whole queries -/

theorem tokens_columns {columns : List String} (h : ∀ c ∈ columns, isWord c = true) :
    tokens (Statement.commaList columns) =
      [symbol ','].intercalate (columns.map fun name => [word name]) := by
  have hcomma : tokens ", " = [symbol ','] := by decide
  have hmap : columns.map tokens = columns.map fun name => [word name] :=
    List.map_congr_left fun c hc => tokens_word (h c hc)
  rw [Statement.commaList, tokens_intercalate parts_comma, hmap, hcomma]

theorem tokens_select {columns : List String} {table : String}
    (hcolumns : ∀ c ∈ columns, isWord c = true) (htable : isWord table = true) :
    tokens (Statement.select table columns []).toText = word "SELECT" ::
      ([symbol ','].intercalate (columns.map fun name => [word name]) ++
        [word "FROM", word table]) := by
  have hfrom : Parts " FROM " := ⟨by decide, by decide, by decide⟩
  have hfront : endsWord "SELECT ".toList = false := by decide
  have htokens : tokens "SELECT " = [word "SELECT"] ∧ tokens " FROM " = [word "FROM"] := by decide
  have htext : (Statement.select table columns []).toText =
      "SELECT " ++ Statement.commaList columns ++ " FROM " ++ table := rfl
  rw [htext, tokens_around hfrom, tokens_append (.inl hfront), tokens_columns hcolumns,
    tokens_word htable, htokens.1, htokens.2]
  simp

/-- A query of some columns with a readable clause behind it is read as it was written. -/
theorem ofText?_select {columns : List String} {table : String} {c : FilterClause}
    (hne : columns ≠ []) (hcolumns : ∀ c ∈ columns, isWord c = true) (htable : isWord table = true)
    (hc : IsReadableClause c) :
    Query.ofText? (Statement.withClause (Statement.select table columns []).toText c.toText) =
      some ⟨columns, table, clauseOf c⟩ := by
  have hclause : readClause (tokens c.toText) = some (clauseOf c) := ofText?_toText hc
  have hspace : tokens " " = [] := by decide
  have hnames (rest : List Token) : separated (symbol ',') readName
      ([symbol ','].intercalate (columns.map fun name => [word name]) ++ word "FROM" :: rest) =
        some (columns, word "FROM" :: rest) := by
    refine separated_tokens (P := fun _ => True) (fun _ => trivial) hne ?_ ?_ trivial ?_
    · intro name _ h
      cases h
    · intro name _ rest _
      rfl
    · intro h
      cases h
  rw [Query.ofText?, Statement.withClause, tokens_around parts_space, tokens_select hcolumns htable,
    hspace, List.append_nil]
  rw [List.cons_append, List.append_assoc, List.cons_append, List.cons_append, List.nil_append,
    readQuery, hnames]
  simp only [Option.bind_eq_bind, Option.bind_some, hclause]
  rfl

end Tablewright.Sql
