import Tablewright.Report

/-! Reports as lines of plain text. Columns are as wide as their widest cell; the brackets
that say how a word is to be shown are left out. -/

namespace Tablewright.Report

/-- A text without bracketed words, of no more characters than the first argument says. -/
def plainFrom : Nat → List Char → List Char
  | _, [] => []
  | 0, cs => cs
  | n + 1, '[' :: cs =>
    let word := cs.takeWhile fun c => c.isAlpha || c == '/'
    match cs.drop word.length with
    | ']' :: rest => plainFrom n rest
    | _ => '[' :: plainFrom n cs
  | n + 1, c :: cs => c :: plainFrom n cs

def plain (s : String) : String := String.ofList (plainFrom s.length s.toList)

/-- The width of each column: that of its widest cell. -/
def widths (rows : List (List String)) : List Nat :=
  rows.foldl
    (fun ws row => (List.range (max ws.length row.length)).map fun i =>
      max (ws.getD i 0) (row.getD i "").length)
    []

def padRight (width : Nat) (s : String) : String :=
  s ++ String.ofList (List.replicate (width - s.length) ' ')

def rowLine (ws : List Nat) (row : List String) : String :=
  " | ".intercalate ((row.zip ws).map fun (cell, w) => padRight w cell)

def tableLines (t : ReportTable) : List String :=
  let rows := (t.columns :: t.rows).map (·.map plain)
  let ws := widths rows
  plain t.title :: rows.map (rowLine ws) ++ (t.caption.map plain).toList

def lines : Report → List String
  | line text => [plain text]
  | table t => tableLines t

end Tablewright.Report
