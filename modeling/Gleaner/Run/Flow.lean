import Gleaner.Flow.Basic
import Gleaner.Hierarchy.Branch
import Gleaner.Run.Apply

/-!
# Running a flow

The action of a step runs first; the steps below it then run on its result,
each as its mode says. Steps side by side do not chain: each gets the result
of the step above, and the last result is the result of that step. The first
fault ends the run.

* `Run.along`: runs a computation for the branches that a walk comes to, one after
  the other;
* `Mode.spread`: runs a computation on a value as a mode says;
* `Flow.runBelow`: the steps below a step;
* `Flow.run`: a whole flow, each top-level step on the same input.
-/

namespace Gleaner

variable {σ : Type}

namespace Run

/-- Runs a computation for each branch that a walk still visits, and gives the last
result, or the one given if there is no branch. The walk goes on to a branch when the
computation for the one before has ended. -/
def along (body : Value → Run σ Value) (last : Value) (w : Walk) : Run σ Value :=
  match _h : w.next with
  | (none, _) => pure last
  | (some branch, w') => do
    let last ← body (.branch branch)
    along body last w'
termination_by w.weight
decreasing_by exact Walk.weight_of_next ‹_›

/-- This is the same as to have the walk visit all its branches first. -/
theorem along_eq_each (body : Value → Run σ Value) (last : Value) (w : Walk) :
    along body last w = each body last (w.toList.map .branch) := by
  rw [along]
  split
  · rename_i hnext
    rw [Walk.toList_of_none hnext]
    rfl
  · rename_i hnext
    rw [Walk.toList_of_some hnext]
    exact bind_congr fun last => along_eq_each body last _
termination_by w.weight
decreasing_by exact Walk.weight_of_next ‹_›

end Run

/-- Runs the body of a step on a value as its mode says. -/
def Mode.spread (mode : Mode) (name : String) (v : Value) (body : Value → Run σ Value) :
    Run σ Value :=
  match mode with
  | atomic | recursive => body v
  | loop =>
    match v.elements? with
    | some elements => Run.each body .null elements
    | none =>
      throw (.typeMismatch ("loop into " ++ Fault.inQuotes name) "node collection or list"
        v.typeName)
  | branches =>
    match v with
    | .hierarchy t => Run.along body .null (.start t)
    | v =>
      throw (.typeMismatch ("tree-dfs into " ++ Fault.inQuotes name) "hierarchy tree" v.typeName)

namespace Flow

/-- Runs the steps of a flow on the result of the step above them. Without any
steps the result is `last`. -/
def runBelow (e : Setting σ) (above last : Value) : Flow → Run σ Value
  | nil => pure last
  | step action mode below rest => do
    let last ← mode.spread action.name above fun input => do
      let v ← action.apply e input
      below.runBelow e v v
    rest.runBelow e above last

/-- Runs one step, whatever its mode: its action and then the steps below it. -/
def runStep (e : Setting σ) (action : Action) (below : Flow) (input : Value) : Run σ Value := do
  let v ← action.apply e input
  below.runBelow e v v

/-- Runs the top-level steps of a flow on one input. Without any steps the
result is `last`. -/
def runAll (e : Setting σ) (input last : Value) : Flow → Run σ Value
  | nil => pure last
  | step action _ below rest => do
    let last ← runStep e action below input
    rest.runAll e input last

/-- Runs a flow on the root of the document. -/
def run (e : Setting σ) (f : Flow) : Run σ Value :=
  f.runAll e (.node Document.root) .null

end Flow

end Gleaner
