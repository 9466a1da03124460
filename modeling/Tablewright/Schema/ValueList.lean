import Tablewright.Decoder
import Tablewright.Diagnostics.Journal
import Tablewright.Schema.ValueType
import Tablewright.Value.Same

/-! The values a field may take. A plain list is one list for every row; a keyed list
has one list for each value of another field of the row. Entries are texts and are
compared after they are read as the field's type. -/

namespace Tablewright

structure ValueList where
  name : String
  values : List String
  keyedValues : List (String × List String)
  deriving DecidableEq, Repr, Inhabited

namespace ValueList

def isKeyed (l : ValueList) : Bool := !l.keyedValues.isEmpty

/-- The entries as values of a type; an entry that spells none is left out. -/
def readEntries (t : ValueType) (entries : List String) : Except Failure (List Value) :=
  (entries.mapM t.parseText).map (·.filterMap id)

/-- Whether a value is one of the entries. -/
def among (v : Value) (t : ValueType) (entries : List String) : Except Failure Bool :=
  (readEntries t entries).map v.among

/-- The text under which the list for a key is kept. -/
def keyText : Value → String
  | .null => ""
  | v => v.display

/-- The list that a key selects. -/
def entriesFor (l : ValueList) (key : Value) : Option (List String) :=
  Entries.get? (keyText key) l.keyedValues

/-- Whether a value is in the list, for a keyed list in the one that the key selects. Null
is in every list; a key without a list of its own admits nothing else. -/
def admits (l : ValueList) (v : Value) (t : ValueType) (key : Value) : Check Bool :=
  if v.isNull then return true
  else if !l.isKeyed then .mk (return among v t l.values)
  else match l.entriesFor key with
    | some entries => .mk (return among v t entries)
    | none => do
      Check.note .error .fields
        (key.literal ++ " is not a valid key for value list " ++ l.name)
      return false

def decode : Decoder ValueList := Decoder.model fun es =>
  mk <$> Decoder.part es ["name"] "" Decoder.numberOrText
    <*> Decoder.part es ["values"] [] (.list .numberOrText)
    <*> Decoder.part es ["keyedValues", "keyed_values"] [] (.mapOf (.list .numberOrText))

end ValueList

end Tablewright
