import Gleaner.Flow.Action
import Gleaner.Run.Basic
import Gleaner.Table.Projection
import Gleaner.Text.Slice

/-!
# Applying an action

An action takes its input, the document and the variables, and gives its
result. Actions that only change a variable or save something give their input
on.

* `Action.apply`: the result of an action.
-/

namespace Gleaner

/-- What a run reads and does not change: the document, and where outputs go. -/
structure Setting (σ : Type) where
  document : Document
  sink : Sink σ

/-- The projection of the tables at some nodes: the header of the first and
the rows of all. -/
def Table.ofNodes (d : Document) (nodes : List NodeId) (filter : Filter)
    (constants : List (String × String)) (enforce : Option Nat) : Except Fault Table := do
  match ← nodes.mapM fun i => Table.project d i filter constants enforce with
  | [] => .error (.notTabular "empty node collection")
  | first :: others => return others.foldl Table.append first

/-- The nodes that a query finds below a node. -/
def NodeQuery.nodes (q : NodeQuery) (d : Document) (scope : NodeId) : List NodeId :=
  (d.findAll scope q.nodeType q.filter).filter fun i =>
    !q.exclude.any fun (name, value) => d.attribute? i name == some value

/-- The result of a query below a node. -/
def NodeQuery.result (q : NodeQuery) (d : Document) (scope : NodeId) : Except Fault Value :=
  let found := q.nodes d scope
  match q.selection with
  | .multi => .ok (.nodes found)
  | .single =>
    match found with
    | i :: _ => .ok (.node i)
    | [] => .error (.emptyQuery "path" q.nodeType q.filter.text)

namespace Action

open Store (Change)

variable {σ : Type}

/-- The fault of an input of the wrong type. -/
def inputMismatch (context expected : String) (input : Value) : Fault :=
  .typeMismatch context expected input.typeName

/-- The node that an action needs as its input. -/
def nodeInput (a : Action) (input : Value) : Except Fault NodeId :=
  match input with
  | .node i => .ok i
  | v => .error (inputMismatch (a.name ++ " input") "node" v)

/-- The text that an action needs as its input. -/
def textInput (a : Action) (input : Value) : Except Fault String :=
  match input with
  | .text s => .ok s
  | v => .error (inputMismatch (a.name ++ " input") "string" v)

/-- The nodes whose tables are projected. -/
def tableInput (input : Value) : Except Fault (List NodeId) :=
  match input with
  | .node i => .ok [i]
  | .nodes is => .ok is
  | v => .error (inputMismatch "table2csv input" "node or node collection" v)

/-- The nodes of a branch that is projected. -/
def branchInput (input : Value) : Except Fault (List NodeId) :=
  match input with
  | .branch is | .nodes is => .ok is
  | v => .error (inputMismatch "treeBranch2csv input" "branch" v)

/-- What is saved of an input in a format. -/
def contentOf (d : Document) (kind : FileKind) (input : Value) : Except Fault Content :=
  match kind, input with
  | .csv, .table t => .ok (.table t)
  | .csv, v => .error (inputMismatch "saveToFile csv input" "table" v)
  | .json, v => .ok (.json (v.toJson d))

/-- The value of an operand, or the input where there is none. -/
def valueOr (d : Document) (input : Value) : Option Operand → Run σ Value
  | some o => Run.resolve d o
  | none => pure input

/-- An operand as the text of a cell. -/
def cellOf (d : Document) (o : Operand) : Run σ String :=
  return (← Run.resolve d o).cell d

/-- The key of an update, which must be given, as the text of a cell. -/
def keyOf (a : Action) (d : Document) (u : Update) : Run σ String :=
  match u.key with
  | some o => cellOf d o
  | none => throw (.missingParameter a.name "varKey")

/-- Adds to a variable: an element, a field, or a new value. -/
def addTo (a : Action) (d : Document) (input : Value) (u : Update) : Run σ Unit :=
  match u.kind with
  | .list => do
    let v ← valueOr d input u.value
    Run.onStore (Change.append u.name v)
  | .mapping => do
    let key ← a.keyOf d u
    let v ← valueOr d input u.value
    Run.onStore (Change.insert u.name key v)
  | .scalar => do
    let v ← valueOr d input u.value
    Run.onStore (Change.set u.name v)

/-- Takes an element or a field out of a variable. -/
def removeFrom (a : Action) (d : Document) (input : Value) (u : Update) : Run σ Unit :=
  match u.kind with
  | .list => do
    let v ← valueOr d input u.value
    Run.onStore (Change.remove u.name v)
  | .mapping => do
    let key ← a.keyOf d u
    Run.onStore ((Change.removeKey u.name key).map fun _ => ())
  | .scalar =>
    throw (.typeMismatch ("removeVar on " ++ Fault.inQuotes u.name) "list or dict" Kind.scalar.name)

/-- The text of a node, or one of its attributes, null if it has none. -/
def partOf (d : Document) (i : NodeId) (part : String) : Value :=
  if part = "text" then .text (d.text i)
  else ((d.attribute? i part).map Value.text).getD .null

/-- The result of an action on its input. -/
def apply (e : Setting σ) (input : Value) (a : Action) : Run σ Value :=
  let d := e.document
  match a with
  | find q => do
    let scope ← Run.ofExcept (a.nodeInput input)
    Run.ofExcept (q.result d scope)
  | table q => do
    let nodes ← Run.ofExcept (tableInput input)
    let constants ← Run.onStore fun s => Column.resolveAll d s q.columns
    return .table (← Run.ofExcept (Table.ofNodes d nodes q.filter constants q.enforce))
  | tree q => do
    let root ← Run.ofExcept (a.nodeInput input)
    let t ← Run.ofExcept (Hierarchy.build d root q.start q.stop q.levels)
    match q.saveTo with
    | some name => Run.declare name .scalar (some (.hierarchy t))
    | none => return .hierarchy t
  | branch q => do
    let nodes ← Run.ofExcept (branchInput input)
    return .table (← Run.onStore fun s => Table.ofBranch d s nodes q.tableIndex q.columns)
  | get part => do
    let i ← Run.ofExcept (a.nodeInput input)
    return partOf d i part
  | slice start stop => do
    let s ← Run.ofExcept (a.textInput input)
    return .text (Text.slice s start stop)
  | wrap before after => do
    let s ← Run.ofExcept (a.textInput input)
    let before ← cellOf d before
    let after ← cellOf d after
    return .text (before ++ s ++ after)
  | declare name kind value => do
    let given ← match kind, value with
      | .scalar, some o => some <$> Run.resolve d o
      | _, _ => pure none
    Run.declare name kind given
  | save s => do
    let content ← Run.ofExcept (contentOf d s.kind input)
    Run.write e.sink s content
    return input
  | add u => do
    a.addTo d input u
    return input
  | remove u => do
    a.removeFrom d input u
    return input
  | read o => Run.resolve d o
  | pass => return input

end Action

end Gleaner
