import Tablewright.Decoder

/-! Filter requests: conditions, an order, a limit and a choice of fields, all in the
caller's own words. -/

namespace Tablewright

structure FilterCondition where
  field : String
  comparator : Option String
  /-- The text of a value, or a reference to another field. -/
  value : Option String
  /-- The upper bound of a range. -/
  toValue : Option String
  deriving DecidableEq, Repr, Inhabited

namespace FilterCondition

def decode : Decoder FilterCondition := Decoder.model fun es =>
  mk <$> Decoder.required es ["field"] .numberOrText
    <*> Decoder.part es ["comparator"] none (.optional .numberOrText)
    <*> Decoder.part es ["value"] none (.optional .numberOrText)
    <*> Decoder.part es ["toValue", "to_value"] none (.optional .numberOrText)

end FilterCondition

structure SortBy where
  field : String
  descending : Bool
  deriving DecidableEq, Repr, Inhabited

namespace SortBy

def decode : Decoder SortBy := Decoder.model fun es =>
  mk <$> Decoder.required es ["field"] .text
    <*> Decoder.part es ["descending"] false .boolean

end SortBy

structure FilterRequest where
  filters : List FilterCondition
  sorts : List SortBy
  maxRows : Option Int
  outputFields : Option (List String)
  deriving DecidableEq, Repr, Inhabited

namespace FilterRequest

def decode : Decoder FilterRequest := Decoder.model fun es =>
  mk <$> Decoder.part es ["filters"] [] (.list FilterCondition.decode)
    <*> Decoder.part es ["sorts"] [] (.list SortBy.decode)
    <*> Decoder.part es ["maxRows", "max_rows"] none (.optional .integer)
    <*> Decoder.part es ["fields", "output_fields"] none (.optional (.list .text))

end FilterRequest

end Tablewright
