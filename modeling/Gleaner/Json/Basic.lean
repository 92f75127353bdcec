import Gleaner.Decimal.Double

/-!
# JSON values

The values that a flow produces once its nodes are replaced by their text, and
that are written to JSON files. A record is a list of fields; the printers put
the fields in the order of their names.
-/

namespace Gleaner

/-- A JSON value. Whole numbers are kept apart from other numbers, as they are
written without a point. -/
inductive Json where
  | null
  | bool (b : Bool)
  | int (n : Int)
  | double (x : Decimal.Double)
  | text (s : String)
  | list (items : List Json)
  | record (fields : List (String × Json))
  deriving Repr

namespace Json

instance : Inhabited Json := ⟨null⟩

/-- The list of some texts. -/
def texts (ss : List String) : Json :=
  list (ss.map text)

/-- The value of a field of a record, the first of its name. -/
def field? (j : Json) (name : String) : Option Json :=
  match j with
  | record fields => (fields.find? (·.1 == name)).map (·.2)
  | _ => none

/-- The items of a list, and none of any other value. -/
def items : Json → List Json
  | list items => items
  | _ => []

end Json

end Gleaner
