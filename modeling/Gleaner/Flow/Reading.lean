import Gleaner.Flow.Parameters

/-!
# Reading an action

An action is read off its name and its parameters. The parameters are checked
one after the other, and the first fault is the one that is reported.

* `Action.parse`: the action of a name and parameters.
-/

namespace Gleaner

namespace Parameters

/-- How many nodes are asked for, all of them if nothing is said. -/
def selection (p : Parameters) : Except Fault Selection := do
  match ← p.text? "type" with
  | none | some "multi" => return .multi
  | some "single" => return .single
  | some other =>
    .error (p.invalid "type" ("expected single or multi, got " ++ Fault.inQuotes other))

/-- The kind that a spelling stands for. -/
def kindOf (p : Parameters) (key spelling : String) : Except Fault Kind :=
  match Kind.parse? spelling with
  | some kind => .ok kind
  | none => .error (p.invalid key ("unknown variable type " ++ Fault.inQuotes spelling))

/-- A kind, a scalar if nothing is said. -/
def optionalKind (p : Parameters) (key : String) : Except Fault Kind := do
  match ← p.text? key with
  | some spelling => p.kindOf key spelling
  | none => return .scalar

/-- The format of a file. -/
def fileKind (p : Parameters) : Except Fault FileKind := do
  let spelling ← p.text "fileType"
  match FileKind.parse? spelling with
  | some kind => return kind
  | none =>
    .error (p.invalid "fileType" ("expected csv or json, got " ++ Fault.inQuotes spelling))

def nodeQuery (p : Parameters) : Except Fault NodeQuery := do
  let selection ← p.selection
  let nodeType ← p.text "HTMLtype"
  let filter ← p.filter
  let exclude ← p.pairs "exclude"
  return { selection, nodeType, filter, exclude }

def tableQuery (p : Parameters) : Except Fault TableQuery := do
  let filter ← p.filter
  let columns ← p.columns
  let enforce ← p.index? "numOfColumnToEnforce"
  return { filter, columns, enforce }

def treeQuery (p : Parameters) : Except Fault TreeQuery := do
  let levels ← p.levels "treeRelations"
  let start ← p.marker? "startingPoint" "StartintPoint"
  let stop ← p.marker? "endingPoint" "EndingPoint"
  let saveTo ← p.text? "saveToVar"
  return { levels, start, stop, saveTo }

def branchQuery (p : Parameters) : Except Fault BranchQuery := do
  let tableIndex ← p.index? "idxOfHtmlTable"
  let columns ← p.columns
  return { tableIndex, columns }

def save (p : Parameters) : Except Fault Save := do
  let kind ← p.fileKind
  let name ← p.text "to"
  let longName := (← p.flag? "longName").getD false
  let dir ← p.text? "dir"
  return { name, kind, longName, dir }

def update (p : Parameters) : Except Fault Update := do
  let kind ← p.kindOf "varType" (← p.text "varType")
  let key ← p.operand? "varKey"
  if kind = .mapping ∧ key.isNone then .error (p.missing "varKey")
  else
    let name ← p.text "varName"
    let value ← p.operand? "varValue"
    return { name, kind, key, value }

/-- An operand where a text that is no reference is the name of a variable. -/
def reference (p : Parameters) (key : String) : Except Fault Operand := do
  match Operand.parse (← p.text key) with
  | .literal name => return .var name
  | operand => return operand

end Parameters

namespace Action

/-- The action of a name with its parameters. -/
def parse (name : String) (entries : List (Yaml × Yaml)) : Except Fault Action :=
  let p : Parameters := ⟨name, entries⟩
  match name with
  | "path" => p.nodeQuery.map find
  | "table2csv" => p.tableQuery.map table
  | "buildConnectionTree" => p.treeQuery.map tree
  | "treeBranch2csv" => p.branchQuery.map branch
  | "get" => (p.text "value").map get
  | "substring" => do
    let start ← p.integer? "start"
    let stop ← p.integer? "end"
    return slice start stop
  | "concat" => do
    let before := (← p.operand? "prefix").getD (.literal "")
    let after := (← p.operand? "suffix").getD (.literal "")
    return wrap before after
  | "createVar" => do
    let kind ← p.optionalKind "type"
    let name ← p.text "name"
    let value ← p.operand? "value"
    return declare name kind value
  | "saveToFile" => p.save.map save
  | "addToVar" => p.update.map add
  | "removeVar" => p.update.map remove
  | "getVar" => (p.reference "varName").map read
  | "end" => .ok pass
  | _ => .error (.unknownAction name)

/-- An action has the name that it was read from. -/
theorem name_of_parse {name : String} {entries : List (Yaml × Yaml)} {a : Action}
    (h : parse name entries = .ok a) : a.name = name := by
  unfold parse at h
  split at h
  all_goals
    simp only [Except.map, bind, Except.bind, pure, Except.pure] at h
    (repeat' split at h) <;> cases h <;> rfl

end Action

end Gleaner
