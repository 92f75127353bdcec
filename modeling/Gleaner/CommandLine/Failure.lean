import Gleaner.Job.Batch
import Gleaner.Settings.Basic

/-!
# Failures of commands

How a command that failed ends: what it says, and its exit status. The fault of
a flow, of a document or of settings speaks for itself, however deep it lies;
any other failure says what was being done. With more verbosity the causes
follow.

* `Failure.exitStatus`: the exit status;
* `Failure.report`: what is said.
-/

namespace Gleaner.CommandLine

inductive Failure where
  | settings (fault : SettingsFault)
  | flow (fault : Fault)
  | job (fault : JobFault)
  | batch (fault : BatchFault)
  /-- Some jobs of a batch failed, of how many. -/
  | jobs (failed total : Nat)
  deriving DecidableEq, Repr

namespace Failure

/-- The fault of a flow behind a failure. -/
def flowFault? : Failure → Option Fault
  | flow f => some f
  | job f => f.flowFault?
  | _ => none

/-- The fault of a document behind a failure. -/
def documentFault? : Failure → Option DocumentFault
  | job f => f.documentFault?
  | _ => none

/-- What was being done and what went wrong, the nearest first. -/
def chain : Failure → List String
  | settings f => [f.message]
  | flow f => f.message :: f.causes
  | job f => f.chain
  | batch f => f.chain
  | jobs failed total => [Text.numeral failed ++ " of " ++ Text.numeral total ++ " jobs failed"]

/-- The exit status of a command that failed. -/
def exitStatus (f : Failure) : Nat :=
  match f, f.flowFault?, f.documentFault? with
  | settings f, _, _ => f.exitStatus
  | _, some f, _ => f.exitStatus
  | _, _, some f => f.exitStatus
  | _, none, none => 1

/-- The lines of a chain, numbered from zero. -/
def numbered (chain : List String) : List String :=
  chain.mapIdx fun i cause => "  " ++ Text.numeral i ++ ": " ++ cause

/-- What a command that failed says, with more to it if it is verbose. -/
def report (verbose : Bool) (f : Failure) : List String :=
  match f, f.flowFault?, f.documentFault? with
  | settings f, _, _ => [f.userMessage]
  | _, some f, _ =>
    f.userMessage :: (if verbose then ["", "Context Chain:", f.developerMessage] else [])
  | _, _, some f => [f.userMessage]
  | f, none, none =>
    ("Error: " ++ f.chain.headD "") ::
      (if verbose then "" :: "Error chain:" :: numbered f.chain else [])

end Failure

end Gleaner.CommandLine
