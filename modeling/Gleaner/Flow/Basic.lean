import Gleaner.Flow.Action
import Gleaner.Flow.Mode

/-!
# Flows

A flow is a list of steps, each with the steps below it. It is written by its
first step, the flow below that step and the steps after it, so that a
statement about flows is proved by following a step downwards and onwards. A
flow is printed as an outline: one line a step, indented by its depth.

* `Flow.count`: the number of steps on all levels;
* `Flow.lines`, `Flow.outline`: the outline.
-/

namespace Gleaner

inductive Flow where
  | nil
  /-- A step with its mode and the steps below it, and the steps after it. -/
  | step (action : Action) (mode : Mode) (below rest : Flow)
  deriving DecidableEq, Repr

namespace Flow

def isEmpty : Flow → Bool
  | nil => true
  | step .. => false

/-- The number of steps on all levels. -/
def count : Flow → Nat
  | nil => 0
  | step _ _ below rest => 1 + below.count + rest.count

/-- The number of steps on the top level. -/
def width : Flow → Nat
  | nil => 0
  | step _ _ _ rest => 1 + rest.width

/-- The line of a step in the outline: its name, and its mode if that is not
the usual one. -/
def line (depth : Nat) (action : Action) (mode : Mode) : String :=
  String.ofList (List.replicate (2 * depth) ' ') ++ action.name ++
    (if mode = .atomic then "" else " [" ++ mode.name ++ "]")

/-- The lines of the outline of steps at a depth. -/
def lines (depth : Nat) : Flow → List String
  | nil => []
  | step action mode below rest =>
    line depth action mode :: (below.lines (depth + 1) ++ rest.lines depth)

/-- The outline of a flow. -/
def outline (f : Flow) : String :=
  String.join ((f.lines 0).map (· ++ "\n"))

theorem length_lines (f : Flow) (depth : Nat) : (f.lines depth).length = f.count := by
  induction f generalizing depth with
  | nil => rfl
  | step action mode below rest ihBelow ihRest =>
    simp only [lines, count, List.length_cons, List.length_append, ihBelow, ihRest]
    omega

end Flow

end Gleaner
