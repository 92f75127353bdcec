import Gleaner.Hierarchy.Render
import Gleaner.Json.Printer
import Gleaner.Value.Basic

/-!
# Values as JSON, cells and text

A value leaves a flow as JSON or in the cell of a table, where its nodes are
replaced by their text in normal form. In messages a value is described by its
type and size.

* `Value.toJson`, `Value.cell`, `Value.describe`.
-/

namespace Gleaner.Value

mutual

/-- The JSON form of a value. -/
def toJson (d : Document) : Value → Json
  | null => .null
  | text s => .text s
  | node i => .text (Hierarchy.label d i)
  | nodes is => .texts (is.map (Hierarchy.label d))
  | branch is => .texts (is.map (Hierarchy.label d))
  | hierarchy t => t.toJson d
  | table t => .record [("header", .texts t.header), ("rows", .list (t.rows.map .texts))]
  | list items => .list (itemsToJson d items)
  | mapping fields => .record (fieldsToJson d fields)

/-- The JSON forms of some values. -/
def itemsToJson (d : Document) : List Value → List Json
  | [] => []
  | v :: rest => toJson d v :: itemsToJson d rest

/-- The JSON forms of some fields. -/
def fieldsToJson (d : Document) : List (String × Value) → List (String × Json)
  | [] => []
  | (name, v) :: rest => (name, toJson d v) :: fieldsToJson d rest

end

/-- A value in the cell of a table: nothing for null, a text as it is, a node
by its text, and any other value by its JSON form without spaces. -/
def cell (d : Document) (v : Value) : String :=
  match v with
  | null => ""
  | text s => s
  | node i => Hierarchy.label d i
  | v => (v.toJson d).compact

/-- A value as it is described in messages. -/
def describe : Value → String
  | null => "null"
  | text s => "\"" ++ s ++ "\""
  | node i => "node " ++ Document.nodeName i
  | nodes is => Text.numeral is.length ++ " nodes"
  | hierarchy t => "tree with " ++ Text.numeral t.entryCount ++ " top-level entries"
  | branch is => "branch of " ++ Text.numeral is.length ++ " nodes"
  | table t => "table with " ++ Text.numeral t.rows.length ++ " rows"
  | list items => "list of " ++ Text.numeral items.length ++ " items"
  | mapping fields => "mapping with " ++ Text.numeral fields.length ++ " keys"

end Gleaner.Value
