import Gleaner.Output.Sink
import Gleaner.Store.Change

/-!
# Runs

A run changes two things, the variables and the state of a sink, and may end
with a fault. What was changed before the fault stays changed.

* `Machine`: what a run changes;
* `Run`: a computation on a machine, which gives a value or a fault;
* `Run.onStore`, `Run.write`: the steps from which all runs are made.
-/

namespace Gleaner

structure Machine (σ : Type) where
  store : Store
  sink : σ

/-- A computation that changes a machine and gives a value or a fault. -/
abbrev Run (σ α : Type) : Type :=
  ExceptT Fault (StateM (Machine σ)) α

namespace Run

variable {σ α : Type}

/-- Runs a computation from a machine on. -/
def start (r : Run σ α) (m : Machine σ) : Except Fault α × Machine σ :=
  (ExceptT.run r).run m

/-- The computation of a function on machines. -/
def ofFunction (f : Machine σ → Except Fault α × Machine σ) : Run σ α :=
  ExceptT.mk (StateT.mk f)

/-- A result, or a fault. -/
def ofExcept (r : Except Fault α) : Run σ α :=
  ofFunction fun m => (r, m)

/-- A change of the variables. -/
def onStore (f : Store → Except Fault α × Store) : Run σ α :=
  ofFunction fun m => ((f m.store).1, { m with store := (f m.store).2 })

/-- The value of an operand. -/
def resolve (d : Document) (o : Operand) : Run σ Value :=
  onStore (Store.Change.resolve d o)

/-- Declares a variable and gives the value that it starts with. -/
def declare (name : String) (kind : Kind) (given : Option Value) : Run σ Value :=
  onStore (Store.Change.declare name kind given)

/-- Writes something to a sink. -/
def write (sink : Sink σ) (save : Save) (content : Content) : Run σ Unit :=
  ofFunction fun m =>
    let (r, state) := sink.write save content m.sink
    let r := match r with
      | .ok _ => .ok ()
      | .error e => .error (.writeFailed e.path e.cause)
    (r, { m with sink := state })

/-- Runs a computation for each of some values, one after the other, and gives
the last result, or the one given if there is no value. -/
def each (body : Value → Run σ Value) (last : Value) : List Value → Run σ Value
  | [] => pure last
  | v :: rest => do
    let last ← body v
    each body last rest

end Run

end Gleaner
