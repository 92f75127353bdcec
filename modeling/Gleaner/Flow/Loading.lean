import Gleaner.Flow.Basic
import Gleaner.Flow.Draft
import Gleaner.Flow.Reading
import Gleaner.Yaml.Reading

/-!
# Loading a flow

The steps of a draft are checked in the order in which they are written, each
before the ones below it, so that a flow that loads has no unknown action and
no parameter that is missing or of the wrong form. A flow has at least one
step.

* `Draft.check`: the flow of a draft;
* `Flow.ofYaml`, `Flow.ofSource`: the flow that a value or a source stands for.
-/

namespace Gleaner

namespace Draft

/-- The parameters of a step: none for null and for an empty list. -/
def entries (name : String) : Yaml → Except Fault (List (Yaml × Yaml))
  | .mapping entries => .ok entries
  | .null | .list [] => .ok []
  | _ => .error (.badFlow ("actionParams of " ++ Fault.inQuotes name ++ " must be a mapping") none)

/-- The action of a step. -/
def action (name : String) (params : Yaml) : Except Fault Action := do
  Action.parse name (← entries name params)

/-- The flow of a draft. -/
def check : Draft → Except Fault Flow
  | nil => .ok .nil
  | step name params mode below rest => do
    let action ← action name params
    let below ← below.check
    let rest ← rest.check
    return .step action mode below rest

def isEmpty : Draft → Bool
  | nil => true
  | step .. => false

end Draft

namespace Flow

/-- The fault of a text or value that is no flow. -/
def malformed (cause : Option String) : Fault :=
  .badFlow "invalid YAML syntax" cause

/-- The cause that is given for a value that has none of the forms of a flow. -/
def formless : String :=
  "data did not match any variant of untagged enum RawFlowHelper"

/-- The flow of a draft with at least one step. -/
def ofDraft (d : Draft) : Except Fault Flow :=
  if d.isEmpty then .error (.badFlow "flow has no steps" none) else d.check

/-- The flow that a value stands for. -/
def ofYaml (v : Yaml) : Except Fault Flow :=
  match Draft.ofYaml v with
  | some d => ofDraft d
  | none => .error (malformed (some formless))

/-- The flow that a source stands for. -/
def ofSource (source : String) : Except Fault Flow :=
  match Yaml.parse? source with
  | some v => ofYaml v
  | none => .error (malformed (some "the source is not a single YAML document"))

end Flow

end Gleaner
