import Gleaner.Flow.Loading
import Gleaner.Job.Basic
import Gleaner.Job.Fault
import Gleaner.Markup.Event
import Gleaner.Output.Directory
import Gleaner.Run.Flow

/-!
# Running a job

The flow of a job is loaded first and then its document, so that a job with two
faults reports the one of the flow. The flow then runs with the variable
`ServiceName`, which is declared whether or not the job names a service.

Files are read through a function, in any monad, so that the same steps serve
a disk in memory and the files of the system.

* `Job.load`: the flow and the document of a job;
* `Job.execute`: the run of the flow with a sink;
* `Job.rehearse`: a dry run, which lists what it would write;
* `Job.run`: a real run, which writes below an output directory of a disk;
* `Job.carryOut`: a real run on any file system.
-/

namespace Gleaner

/-- The result of a job: the last value of its flow, and the paths of what was
written. -/
structure Report where
  document : String
  value : Json
  written : List String

/-- The flow of a file. -/
def Flow.load {m : Type → Type} [Monad m] (read : FileReader m) (path : String) :
    m (Except Fault Flow) := do
  match ← read path with
  | .ok source => return ofSource source
  | .error cause => return .error (.badFlow ("cannot read flow file " ++ path) (some cause))

/-- The document of a file. -/
def Document.load {m : Type → Type} [Monad m] (read : FileReader m) (path : String) :
    m (Except DocumentFault Document) := do
  match ← read path with
  | .ok source => return parse source
  | .error cause => return .error (.unreadable path cause)

namespace Job

variable {m : Type → Type} [Monad m]

/-- The flow that is written into a job. -/
def parseInline : Yaml → Except Fault Flow
  | .text source => Flow.ofSource source
  | v => Flow.ofYaml v

/-- The flow of a job. -/
def loadFlow (read : FileReader m) (j : Job) : m (Except JobFault Flow) := do
  match j.inlineFlow, j.flowFile with
  | some v, _ => return (parseInline v).mapError .inlineFlow
  | none, some path => return (← Flow.load read path).mapError (.flowFile path)
  | none, none => return .error (.noFlow j.document)

/-- The flow and the document of a job. -/
def load (read : FileReader m) (j : Job) : m (Except JobFault (Flow × Document)) := do
  match ← j.loadFlow read with
  | .error f => return .error f
  | .ok flow =>
    match ← Document.load read j.document with
    | .error f => return .error (.document j.document f)
    | .ok document => return .ok (flow, document)

/-- The name of the variable that holds the service. -/
def serviceVariable : String := "ServiceName"

/-- The variables that a job starts with. -/
def store (j : Job) : Store :=
  Store.empty.declare serviceVariable .scalar (some ((j.service.map .text).getD .null))

/-- Runs the flow of a job with a sink, and gives the last value. -/
def execute {σ : Type} (j : Job) (flow : Flow) (document : Document) (sink : Sink σ) (state : σ) :
    Except JobFault Json × σ :=
  let (r, machine) := (flow.run ⟨document, sink⟩).start ⟨j.store, state⟩
  match r with
  | .ok v => (.ok (v.toJson document), machine.sink)
  | .error f => (.error (.run j.document f), machine.sink)

/-- Runs a job without writing anything. The report lists where each output
would go, relative to the output directory. -/
def rehearse (read : FileReader m) (j : Job) : m (Except JobFault Report) := do
  match ← j.load read with
  | .error f => return .error f
  | .ok (flow, document) =>
    let (r, saved) := j.execute flow document .listing []
    return r.map (⟨j.document, ·, saved.map (·.save.relativePath)⟩)

/-- Runs a job on a disk, writing below a directory. What was written before a
fault stays. -/
def run (dir stamp : String) (j : Job) (disk : Disk) : Except JobFault Report × Disk :=
  match Id.run (j.load disk.readText) with
  | .error f => (.error f, disk)
  | .ok (flow, document) =>
    let sink := (OutputDirectory.mk dir j.sourceName stamp).sink
    let (r, desk) := j.execute flow document sink ⟨disk, []⟩
    (r.map (⟨j.document, ·, desk.written⟩), desk.disk)

/-- Runs a job on a file system, writing below a directory. The flow is run
first and its outputs are written afterwards: a run does not depend on what
becomes of them, up to the first that cannot be written. -/
def carryOut (fs : FileSystem m) (dir stamp : String) (j : Job) : m (Except JobFault Report) := do
  match ← j.load fs.reader with
  | .error f => return .error f
  | .ok (flow, document) =>
    let (r, saved) := j.execute flow document .listing []
    match ← (OutputDirectory.mk dir j.sourceName stamp).saveAll fs saved with
    | .error f => return .error (.run j.document (.writeFailed f.path f.cause))
    | .ok written => return r.map (⟨j.document, ·, written⟩)

end Job

end Gleaner
