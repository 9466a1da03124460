import Tablewright.Decoder

/-! Messages to the caller. Problems of a request are reported and not raised, so that
one request can be told everything that is wrong with it. -/

namespace Tablewright

inductive MessageKind where
  | error
  | warning
  | info
  | success
  deriving DecidableEq, Repr, Inhabited

namespace MessageKind

def all : List MessageKind := [error, warning, info, success]

def name : MessageKind → String
  | error => "error"
  | warning => "warning"
  | info => "info"
  | success => "success"

end MessageKind

/-- One message. The object and the row tell where the problem is when the request
holds rows of linked records. -/
structure Message where
  kind : MessageKind
  id : String
  field : Option String
  text : String
  object : Option String
  row : Option Int
  deriving DecidableEq, Repr, Inhabited

namespace Message

def invalidData : String := "invalidData"
def valueRequired : String := "valueRequired"
def internalError : String := "internalError"
def invalidRowCount : String := "invalidRowCount"

def error (text : String) (id : String := invalidData) : Message :=
  ⟨.error, id, none, text, none, none⟩

def fieldError (field text : String) (id : String := invalidData) (object : Option String := none)
    (row : Option Int := none) : Message :=
  ⟨.error, id, some field, text, object, row⟩

def warning (text : String) (field : Option String := none) : Message :=
  ⟨.warning, "warning", field, text, none, none⟩

def decode : Decoder Message := Decoder.model fun es =>
  mk <$> Decoder.part es ["kind"] .error (.oneOf MessageKind.all MessageKind.name)
    <*> Decoder.part es ["message_id"] invalidData .text
    <*> Decoder.part es ["field_name"] none (.optional .text)
    <*> Decoder.part es ["text"] "" .text
    <*> Decoder.part es ["object_name"] none (.optional .text)
    <*> Decoder.part es ["row_number"] none (.optional .integer)

def isError (m : Message) : Bool := m.kind == .error

/-- The message on one line. -/
def toText (m : Message) : String :=
  let field := match m.field with
    | some name => if name = "" then "" else " field:" ++ name
    | none => ""
  Text.stripEnd ("type:" ++ m.kind.name ++ " id:" ++ m.id ++ field ++ " " ++ m.text)

end Message

end Tablewright
