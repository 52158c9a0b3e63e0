import TableQuery.Cell

/-! Structured documents: what a catalog keeps about its tables. The members of an object have an
order, and no two of them have the same name. -/
namespace TableQuery

inductive Document where
  | null
  | bool (b : Bool)
  | int (n : Int)
  | float (x : Float)
  | text (s : String)
  | list (items : List Document)
  | object (members : List (String × Document))

instance : Inhabited Document := ⟨.null⟩

namespace Document

/-- The members with one set: in its place if the name is there, at the end otherwise. -/
def setMember (members : List (String × Document)) (name : String) (d : Document) :
    List (String × Document) :=
  match members with
  | [] => [(name, d)]
  | (n, old) :: rest => if n == name then (n, d) :: rest else (n, old) :: setMember rest name d

def members : Document → List (String × Document)
  | .object ms => ms
  | _ => []

def member? (d : Document) (name : String) : Option Document := d.members.lookup name

def isScalar : Document → Bool
  | .list _ => false
  | .object _ => false
  | _ => true

/-- Whether the document counts as there: not absent, zero or empty. -/
def isTrue : Document → Bool
  | .null => false
  | .bool b => b
  | .int n => n != 0
  | .float x => x != 0.0
  | .text s => s != ""
  | .list items => !items.isEmpty
  | .object ms => !ms.isEmpty

def toCell : Document → Cell
  | .bool b => .bool b
  | .int n => .int n
  | .float x => .float x
  | .text s => .text s
  | _ => .null

def ofCell : Cell → Document
  | .bool b => .bool b
  | .int n => .int n
  | .float x => .float x
  | .text s => .text s
  | .packed (.bool b) => .bool b
  | .packed (.int n) => .int n
  | .packed (.float x) => .float x
  | _ => .null

end Document

end TableQuery
