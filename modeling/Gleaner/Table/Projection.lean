import Gleaner.Hierarchy.Render
import Gleaner.Table.Column

/-!
# Tables of a page

Table markup is projected row by row: the first `tr` below a table gives the
header, the others give the data rows, and each child of a row is one cell. A
branch of a hierarchy is projected through a table on it, or becomes a single
row of its own. Fixed columns stand in front of everything.

* `Document.tableAt`: the table at or below a node;
* `Table.project`: the projection of a table;
* `Table.ofBranch`: the projection of a branch.
-/

namespace Gleaner

/-- The node itself, if it is a table that passes the filter, or else the first
such table below it. -/
def Document.tableAt (d : Document) (source : NodeId) (filter : Filter) : Except Fault NodeId :=
  if d.isMatch source "table" filter then .ok source
  else
    match d.findOne source "table" filter with
    | some i => .ok i
    | none => .error (.notTabular (d.nodeType source))

namespace Table

/-- The text of a header cell: words joined by underscores. -/
def headerCell (s : String) : String :=
  String.ofList ((Text.normalizeChars s.toList).map fun c => if c = ' ' then '_' else c)

/-- The texts of the cells of a row in the header. -/
def headerCells (d : Document) (row : NodeId) : List String :=
  (d.children row).map fun i => headerCell (d.text i)

/-- The texts of the cells of a data row. -/
def dataCells (d : Document) (row : NodeId) : List String :=
  (d.children row).map (Hierarchy.label d)

/-- The number of data cells of a row. -/
def dataCellCount (d : Document) (row : NodeId) : Nat :=
  ((d.children row).filter fun i => Text.sameName (d.nodeType i) "td").length

/-- Whether a row has the number of data cells asked for, if one is asked for. -/
def isKept (d : Document) (enforce : Option Nat) (row : NodeId) : Bool :=
  match enforce with
  | none => true
  | some n => dataCellCount d row == n

/-- The projection of the table at or below a node, with fixed columns in front
of each row. Data rows with another number of data cells than `enforce` are
left out. -/
def project (d : Document) (source : NodeId) (filter : Filter)
    (constants : List (String × String)) (enforce : Option Nat) : Except Fault Table := do
  let table ← d.tableAt source filter
  let names := constants.map (·.1)
  let values := constants.map (·.2)
  match d.findAll table "tr" .any with
  | [] => return .ofHeader names
  | first :: rows =>
    return ⟨names ++ headerCells d first,
      (rows.filter (isKept d enforce)).map fun row => values ++ dataCells d row⟩

/-- The node of a branch that a column asks for. -/
def nodeOf (column : String) (branch : List NodeId) (index : Nat) : Except Fault NodeId :=
  match branch[index]? with
  | some i => .ok i
  | none => .error (.columnOutOfRange column index branch.length)

/-- The value of a fixed column for a branch: the text of the node it asks for,
or its operand. -/
def branchValue (d : Document) (s : Store) (branch : List NodeId) (c : Column) :
    Except Fault String × Store :=
  match c.branchIndex? with
  | some index => ((nodeOf c.name branch index).map (Hierarchy.label d), s)
  | none => c.resolve d s

/-- The names and values of fixed columns for a branch, from the first to the
last, with the store as it is left. -/
def branchValues (d : Document) (s : Store) (branch : List NodeId) :
    List Column → Except Fault (List (String × String)) × Store
  | [] => (.ok [], s)
  | c :: rest =>
    match branchValue d s branch c with
    | (.error e, s) => (.error e, s)
    | (.ok v, s) =>
      let (found, s) := branchValues d s branch rest
      (found.map ((c.name, v) :: ·), s)

/-- The row of a branch: fixed values and then the text of each node, below the
names of the columns and the types of the nodes. -/
def branchRow (d : Document) (branch : List NodeId) (constants : List (String × String)) : Table :=
  ⟨constants.map (·.1) ++ branch.map d.nodeType,
    [constants.map (·.2) ++ branch.map (Hierarchy.label d)]⟩

/-- The projection of a branch whose fixed columns are known: of the table at
an index, or of the branch itself. -/
def ofBranchWith (d : Document) (branch : List NodeId) (tableIndex : Option Nat)
    (constants : List (String × String)) : Except Fault Table :=
  match tableIndex with
  | none => .ok (branchRow d branch constants)
  | some index => do
    let i ← nodeOf "idxOfHtmlTable" branch index
    if Text.sameName (d.nodeType i) "table" then project d i .any constants none
    else .error (.notTabular (d.nodeType i))

/-- The projection of a branch, and the store after its columns were resolved. -/
def ofBranch (d : Document) (s : Store) (branch : List NodeId) (tableIndex : Option Nat)
    (columns : List Column) : Except Fault Table × Store :=
  let (constants, s) := branchValues d s branch columns
  (constants.bind (ofBranchWith d branch tableIndex), s)

end Table

end Gleaner
