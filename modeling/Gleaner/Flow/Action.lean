import Gleaner.Hierarchy.Build
import Gleaner.Output.Basic
import Gleaner.Table.Column

/-!
# Actions

The actions of the flow language with their parameters, which are checked
before a flow runs: what an action still needs at run time is its input, the
document and the variables.

* `Action.name`: the name of an action in flow files;
* `Update`: what `addToVar` and `removeVar` change. A mapping is changed at a
  key, which the flow language asks for when an update is read.
-/

namespace Gleaner

/-- How many nodes a query is to give. -/
inductive Selection where
  | single
  | multi
  deriving DecidableEq, Repr

/-- A query for the nodes below a node. -/
structure NodeQuery where
  selection : Selection
  nodeType : String
  filter : Filter
  /-- Attributes with values; a node that has one of them is dropped. -/
  exclude : List (String × String)
  deriving DecidableEq, Repr

/-- A query for the rows of a table. -/
structure TableQuery where
  filter : Filter
  columns : List Column
  /-- The number of data cells that a row must have. -/
  enforce : Option Nat
  deriving DecidableEq, Repr

/-- A query for a hierarchy. -/
structure TreeQuery where
  levels : Levels
  start : Option Marker
  stop : Option Marker
  /-- A variable that takes the hierarchy. -/
  saveTo : Option String
  deriving DecidableEq, Repr

/-- A query for the row, or the table, of a branch. -/
structure BranchQuery where
  /-- The place of the table on the branch. -/
  tableIndex : Option Nat
  columns : List Column
  deriving DecidableEq, Repr

/-- A change of a variable. -/
structure Update where
  name : String
  kind : Kind
  /-- The key at which a mapping is changed. -/
  key : Option Operand
  /-- The value, which is the input of the action if it is left out. -/
  value : Option Operand
  deriving DecidableEq, Repr

inductive Action where
  /-- Looks for nodes below a node. -/
  | find (query : NodeQuery)
  /-- Projects the tables at some nodes. -/
  | table (query : TableQuery)
  /-- Builds the hierarchy of the nodes after a node. -/
  | tree (query : TreeQuery)
  /-- Projects a branch of a hierarchy. -/
  | branch (query : BranchQuery)
  /-- Takes the text of a node or one of its attributes. -/
  | get (part : String)
  /-- Cuts a text. -/
  | slice (start stop : Option Int)
  /-- Puts something before and after a text. -/
  | wrap (before after : Operand)
  | declare (name : String) (kind : Kind) (value : Option Operand)
  | save (save : Save)
  | add (update : Update)
  | remove (update : Update)
  /-- Reads a variable. -/
  | read (source : Operand)
  /-- Gives its input on. -/
  | pass
  deriving DecidableEq, Repr

/-- The name of an action as it stands in flow files. -/
def Action.name : Action → String
  | find _ => "path"
  | table _ => "table2csv"
  | tree _ => "buildConnectionTree"
  | branch _ => "treeBranch2csv"
  | get _ => "get"
  | slice .. => "substring"
  | wrap .. => "concat"
  | declare .. => "createVar"
  | save _ => "saveToFile"
  | add _ => "addToVar"
  | remove _ => "removeVar"
  | read _ => "getVar"
  | pass => "end"

end Gleaner
