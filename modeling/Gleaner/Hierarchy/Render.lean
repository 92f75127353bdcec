import Gleaner.Hierarchy.Basic
import Gleaner.Json.Basic

/-!
# The JSON form of a hierarchy

A hierarchy is a record of its `children` and its `leaf` texts. A child is
such a record too, with the `type` of its node and its `text`. All texts are
in normal form.
-/

namespace Gleaner.Hierarchy

/-- The text of a node in normal form. -/
def label (d : Document) (i : NodeId) : String :=
  Text.normalize (d.text i)

/-- The records of the nodes on the top level. -/
def childRecords (d : Document) : Hierarchy → List Json
  | empty => []
  | leaves _ rest => rest.childRecords d
  | node key below rest =>
    .record [
      ("children", .list (below.childRecords d)),
      ("leaf", .texts (below.leafList.map (label d))),
      ("text", .text (label d key)),
      ("type", .text (d.nodeType key))] :: rest.childRecords d

/-- The JSON form of a hierarchy. -/
def toJson (d : Document) (t : Hierarchy) : Json :=
  .record [
    ("children", .list (t.childRecords d)),
    ("leaf", .texts (t.leafList.map (label d)))]

end Gleaner.Hierarchy
