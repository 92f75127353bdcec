import Gleaner.Job.Run
import Gleaner.Yaml.Reading

/-!
# Batches

The jobs of a batch file run on their own: one that fails keeps none of the
others from running, and the outcomes stand in the order of the jobs. The paths
in the file are taken from its directory.

* `Batch.load`: the jobs of a batch file;
* `Batch.rehearse`, `Batch.run`: the outcomes of dry and of real runs.
-/

namespace Gleaner

/-- Why there are no jobs to run. -/
inductive BatchFault where
  | unreadable (path cause : String)
  | invalid (path cause : String)
  deriving DecidableEq, Repr

/-- What was being done and why it failed. -/
def BatchFault.chain : BatchFault → List String
  | unreadable path cause => ["Failed to read batch file " ++ path, cause]
  | invalid path cause => ["Invalid batch file " ++ path, cause]

/-- What became of one job of a batch. -/
structure Outcome where
  /-- The place of the job in the batch, from zero. -/
  index : Nat
  document : String
  /-- The report of the job, or the message of its fault. -/
  result : Except String Report

namespace Outcome

/-- The outcome of a job. -/
def ofResult (index : Nat) (j : Job) (result : Except JobFault Report) : Outcome :=
  ⟨index, j.document, result.mapError JobFault.message⟩

def isFailure (o : Outcome) : Bool :=
  !o.result.toBool

end Outcome

namespace Batch

/-- The cause that is given for a value that has none of the forms of a batch. -/
def formless : String :=
  "data did not match any variant of untagged enum JobBatchHelper"

/-- The jobs of a source, or the cause why it has none. -/
def parse (source : String) : Except String (List Job) :=
  match Yaml.parse? source with
  | none => .error "the source is not a single YAML document"
  | some v => ((ofYaml? v).map .ok).getD (.error formless)

/-- The directory of a batch file. -/
def base (path : String) : String :=
  (Path.parent? path).getD "."

/-- The jobs of a batch file. -/
def load {m : Type → Type} [Monad m] (read : FileReader m) (path : String) :
    m (Except BatchFault (List Job)) := do
  match ← read path with
  | .error cause => return .error (.unreadable path cause)
  | .ok source =>
    match parse source with
    | .error cause => return .error (.invalid path cause)
    | .ok jobs => return .ok (jobs.map (·.resolvePaths (base path)))

/-- The outcomes of some jobs, the first of which has an index, each run in
turn. -/
def runFrom {m : Type → Type} [Monad m] (runJob : Job → m (Except JobFault Report)) (index : Nat) :
    List Job → m (List Outcome)
  | [] => return []
  | j :: rest => do
    let result ← runJob j
    let outcomes ← runFrom runJob (index + 1) rest
    return .ofResult index j result :: outcomes

/-- The outcomes of the jobs of a batch. -/
def runAll {m : Type → Type} [Monad m] (runJob : Job → m (Except JobFault Report))
    (jobs : List Job) : m (List Outcome) :=
  runFrom runJob 0 jobs

/-- The outcomes of dry runs. -/
def rehearse {m : Type → Type} [Monad m] (read : FileReader m) (jobs : List Job) :
    m (List Outcome) :=
  runAll (·.rehearse read) jobs

/-- The outcomes of real runs, and the disk after them. -/
def run (dir stamp : String) (jobs : List Job) (disk : Disk) : List Outcome × Disk :=
  (runAll (m := StateM Disk) (fun j => j.run dir stamp) jobs).run disk

end Batch

end Gleaner
