import Gleaner.Flow.Mode
import Gleaner.Yaml.Record

/-!
# Drafts of flows

A draft is a flow as it is written: the steps have their names and modes, but
their parameters are values still to be checked. A step is a record of its
name, its parameters, the steps below it and its mode, of which only the name
must be given. A flow is a list of steps, or a mapping that has one at `flow`.

* `Draft.ofYaml`: the draft that a value stands for.
-/

namespace Gleaner

inductive Draft where
  | nil
  /-- A step with the steps below it, and the steps after it. -/
  | step (name : String) (params : Yaml) (mode : Mode) (below rest : Draft)
  deriving Repr

/-- The fields of a step as far as they are known. -/
structure DraftFields where
  name : Option String
  params : Option Yaml
  below : Option Draft
  mode : Option Mode

namespace DraftFields

def empty : DraftFields :=
  ⟨none, none, none, none⟩

/-- The names of the fields, in the order of a step that is written as a list. -/
def names : List (List String) :=
  [["actionName"], ["actionParams"], ["subActions"], ["actionType"]]

/-- The mode of a value: the usual one for null, a spelling, or a mapping from
a spelling or number to null. -/
def modeOf? : Yaml → Option Mode
  | .null => some .atomic
  | .text s => Mode.parse? s
  | .mapping [(.text s, .null)] => Mode.parse? s
  | .mapping [(.int (.ofNat n), .null)] => Mode.ofIndex? n
  | _ => none

/-- Fills a field other than the steps below, once. -/
def fill (f : DraftFields) (index : Nat) (v : Yaml) : Option DraftFields :=
  match index with
  | 0 => if f.name.isSome then none else v.text?.map fun s => { f with name := some s }
  | 1 => if f.params.isSome || v.repeatsKey then none else some { f with params := some v }
  | 3 => if f.mode.isSome then none else (modeOf? v).map fun m => { f with mode := some m }
  | _ => none

/-- Fills in the steps below, once. -/
def fillBelow (f : DraftFields) (below : Draft) : Option DraftFields :=
  if f.below.isSome then none else some { f with below := some below }

/-- The step of some fields, which must include the name. -/
def toStep (f : DraftFields) (rest : Draft) : Option Draft :=
  f.name.map fun name =>
    .step name (f.params.getD .null) (f.mode.getD .atomic) (f.below.getD .nil) rest

end DraftFields

namespace Draft

mutual

/-- The fields of a step. -/
def fields? : Yaml → Option DraftFields
  | .mapping entries => fieldsOfEntries? entries .empty
  | .list items => fieldsOfItems? items 0 .empty
  | _ => none

/-- The fields of a step that is written as a mapping. -/
def fieldsOfEntries? : List (Yaml × Yaml) → DraftFields → Option DraftFields
  | [], f => some f
  | (k, v) :: rest, f =>
    match FieldKey.ofYaml DraftFields.names k with
    | none => none
    | some .other => fieldsOfEntries? rest f
    | some (.field 2) =>
      ((steps? v).bind f.fillBelow).bind fun f => fieldsOfEntries? rest f
    | some (.field i) => (f.fill i v).bind fun f => fieldsOfEntries? rest f

/-- The fields of a step that is written as a list. -/
def fieldsOfItems? : List Yaml → Nat → DraftFields → Option DraftFields
  | [], _, f => some f
  | v :: rest, 2, f => ((steps? v).bind f.fillBelow).bind fun f => fieldsOfItems? rest 3 f
  | v :: rest, i, f => (f.fill i v).bind fun f => fieldsOfItems? rest (i + 1) f

/-- A list of steps. -/
def steps? : Yaml → Option Draft
  | .list items => stepsOfItems? items
  | _ => none

/-- The steps of some values. -/
def stepsOfItems? : List Yaml → Option Draft
  | [] => some .nil
  | v :: rest =>
    (fields? v).bind fun f => (stepsOfItems? rest).bind f.toStep

end

/-- The draft that a value stands for. -/
def ofYaml (v : Yaml) : Option Draft :=
  match v with
  | .mapping _ =>
    match Yaml.fields? [["flow"]] v with
    | some [some steps] => steps? steps
    | _ => none
  | v => steps? v

end Draft

end Gleaner
