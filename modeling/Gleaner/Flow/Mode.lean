/-!
# Modes

How a step of a flow is applied to the result of the step above it.
-/

namespace Gleaner

inductive Mode where
  /-- Once, to the result. -/
  | atomic
  /-- To each element of the result, one after the other. -/
  | loop
  /-- Once, to the result as a whole. -/
  | recursive
  /-- To each branch of the hierarchy that is the result. -/
  | branches
  deriving DecidableEq, Repr

namespace Mode

/-- The name of a mode. -/
def name : Mode → String
  | atomic => "atomic"
  | loop => "loop"
  | recursive => "recursive"
  | branches => "tree-dfs"

/-- The mode of a spelling: its name or one of the other spellings in use. -/
def parse? : String → Option Mode
  | "atomic" | "Atomic" => some atomic
  | "loop" => some loop
  | "recursive" | "rec" => some recursive
  | "tree-dfs" | "tree_dfs" => some branches
  | _ => none

theorem parse?_name (m : Mode) : parse? m.name = some m := by
  cases m <;> rfl

/-- The mode of a number, in the order of the declaration. -/
def ofIndex? : Nat → Option Mode
  | 0 => some atomic
  | 1 => some loop
  | 2 => some recursive
  | 3 => some branches
  | _ => none

end Mode

end Gleaner
