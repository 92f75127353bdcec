import Gleaner.Fault.Basic
import Gleaner.Markup.Fault

/-!
# Faults of a job

Why a job did not end: it has no flow, its flow or document could not be
loaded, or the run of the flow ended with a fault. The message says what was
being done, then what went wrong, then the causes behind that.
-/

namespace Gleaner

inductive JobFault where
  /-- A job that has neither kind of flow. -/
  | noFlow (document : String)
  | inlineFlow (fault : Fault)
  | flowFile (path : String) (fault : Fault)
  | document (path : String) (fault : DocumentFault)
  /-- The run of the flow on a document ended with a fault. -/
  | run (document : String) (fault : Fault)
  deriving DecidableEq, Repr

namespace JobFault

/-- What was being done. -/
def headline : JobFault → String
  | noFlow path => "Job for " ++ path ++ " has neither scrap_flow nor inline_scrap_flow"
  | inlineFlow _ => "Invalid inline flow"
  | flowFile path _ => "Failed to load flow " ++ path
  | document path _ => "Failed to load document " ++ path
  | run path _ => "Flow failed on " ++ path

/-- The fault of a flow behind the fault of a job. -/
def flowFault? : JobFault → Option Fault
  | inlineFlow f | flowFile _ f | run _ f => some f
  | noFlow _ | document .. => none

/-- The fault of a document behind the fault of a job. -/
def documentFault? : JobFault → Option DocumentFault
  | document _ f => some f
  | _ => none

/-- What was being done, what went wrong and why, the nearest first. -/
def chain (f : JobFault) : List String :=
  f.headline ::
    match f with
    | noFlow _ => []
    | document _ fault => fault.message :: fault.causes
    | inlineFlow fault | flowFile _ fault | run _ fault => fault.message :: fault.causes

/-- The chain of a fault on one line. -/
def message (f : JobFault) : String :=
  ": ".intercalate f.chain

end JobFault

end Gleaner
