import TableQuery.Cell
import TableQuery.Decimal.Layout

/-! The text of a scalar, as messages and casts to text write it. -/
namespace TableQuery

def Num.display : Num → String
  | .bool b => if b then "True" else "False"
  | .int n => Decimal.intText n
  | .float x => Decimal.floatText x

mutual

/-- The text of a value: texts as they stand, lists with their items quoted. -/
def Cell.display : Cell → String
  | .null => "None"
  | .na => "<NA>"
  | .bool b => (Num.bool b).display
  | .int n => Decimal.intText n
  | .float x => Decimal.floatText x
  | .text s => s
  | .packed n => n.display
  | .list items => "[" ++ String.intercalate ", " (Cell.quotedAll items) ++ "]"
  | .column _ _ _ => "<column>"
  | .table _ _ => "<table>"

def Cell.quoted : Cell → String
  | .text s => Text.quote s
  | .null => "None"
  | .na => "<NA>"
  | .bool b => (Num.bool b).display
  | .int n => Decimal.intText n
  | .float x => Decimal.floatText x
  | .packed n => n.display
  | .list items => "[" ++ String.intercalate ", " (Cell.quotedAll items) ++ "]"
  | .column _ _ _ => "<column>"
  | .table _ _ => "<table>"

def Cell.quotedAll : List Cell → List String
  | [] => []
  | item :: rest => item.quoted :: Cell.quotedAll rest

end

end TableQuery
