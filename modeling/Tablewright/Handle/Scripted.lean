import Tablewright.Handle.Script

/-! Handles with a script. -/

namespace Tablewright.Handle

variable {σ : Type}

/-- A handle whose calls are kept, and may be made to fail, by a script. -/
def supervised (h : ScriptItem → Handle σ) : Handle (Script Call × σ) where
  answer c s :=
    let (item, script) := s.1.take c
    match item.raised with
    | some text => (⟨.error (.database text), []⟩, script, s.2)
    | none =>
      let (a, inner) := (h item).answer c s.2
      (a, script, inner)

/-- Numbers from one on, as many as there are rows. -/
def countedKeys (rows : List (List Value)) : List Value :=
  (List.range rows.length).map fun (i : Nat) => .int (i + 1)

/-- What an item answers to a call. -/
def scriptedReply (item : ScriptItem) : (c : Call) → c.Reply
  | .read .. => item.row
  | .readMany .. => item.rows.map Except.ok
  | .write .. => item.affected.getD 1
  | .insertKey .. => (item.affected.getD 1, item.key.getD (.int 1))
  | .writeMany _ rows _ => item.affected.getD rows.length
  | .insertManyKey _ rows _ _ => (item.affected.getD rows.length, item.keys.getD (countedKeys rows))

/-- Answers from a script alone. -/
def scripted : Handle (Script Call × Unit) :=
  supervised fun item => ⟨fun c _ => (⟨.ok (scriptedReply item c), []⟩, ())⟩

end Tablewright.Handle
