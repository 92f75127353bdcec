import Gleaner.CommandLine.Command
import Gleaner.CommandLine.Display
import Gleaner.CommandLine.Failure

/-!
# Performing commands

A command reads settings, then files, then runs jobs, and ends with an exit
status and two texts, one for what it found and one for what went wrong. What
it needs of the world around it is a `Host`, in any monad: a disk in memory or
the system itself.

* `Host`: what a command needs;
* `Host.ofDisk`: a disk in memory as a host;
* `perform`: the end of some arguments.
-/

namespace Gleaner.CommandLine

/-- What a command needs of the world around it. -/
structure Host (m : Type → Type) where
  /-- The value of a variable of the environment. -/
  lookup : String → m (Option String)
  /-- The time as it stands in long names. -/
  stamp : m String
  files : FileSystem m

/-- A disk in memory with an environment, at a time. -/
def Host.ofDisk (environment : List (String × String)) (stamp : String) : Host (StateM Disk) where
  lookup name := return (environment.find? (·.1 == name)).map (·.2)
  stamp := return stamp
  files := Disk.system

/-- How a command ends. -/
structure Ending where
  status : Nat
  /-- The text on standard output. -/
  output : String
  /-- The lines on standard error. -/
  messages : List String
  deriving DecidableEq, Repr

/-- The name and version of the program. -/
def versionLine : String := "scrapeflow 0.1.0"

/-- What the program can be asked for. -/
def usage : List String :=
  ["Interpret scraping flows into tables and hierarchies", "",
    "Usage: scrapeflow [OPTIONS] <COMMAND>", "",
    "Commands:",
    "  run -f FLOW -d DOCUMENT [-s NAME] [--print] [--dry-run]",
    "  batch JOBS [-j N] [--dry-run]",
    "  validate -f FLOW", "",
    "Options:",
    "  -v, --verbose", "  -c, --config FILE", "  -o, --output-dir DIR",
    "  -h, --help", "  -V, --version"]

/-- The end of arguments that name no command to run. -/
def Stop.ending : Stop → Ending
  | help => ⟨0, unlines usage, []⟩
  | version => ⟨0, unlines [versionLine], []⟩
  | misuse message => ⟨2, "", ["error: " ++ message]⟩

/-- The end of a command that failed after it had written some output. -/
def Failure.ending (verbose : Bool) (output : String) (f : Failure) : Ending :=
  ⟨f.exitStatus, output, f.report verbose⟩

/-! ## Commands -/

variable {m : Type → Type} [Monad m]

/-- Runs a job, writing below a directory or not at all. -/
def Host.runJob (h : Host m) (dir : String) (dryRun : Bool) (j : Job) :
    m (Except JobFault Report) := do
  if dryRun then j.rehearse h.files.reader
  else j.carryOut h.files dir (← h.stamp)

/-- The value of `ServiceName` in a run without one of its own. -/
def usualService : String := "adHoc execution"

/-- Runs one flow on one document. -/
def performRun (h : Host m) (s : Settings) (j : Job) (print dryRun : Bool) :
    m (String × Option Failure) := do
  match ← h.runJob s.outputDir dryRun j with
  | .ok report => return (report.display print dryRun, none)
  | .error f => return ("", some (.job f))

/-- Runs the jobs of a file. -/
def performBatch (h : Host m) (s : Settings) (jobs : String) (dryRun : Bool) :
    m (String × Option Failure) := do
  match ← Batch.load h.files.reader jobs with
  | .error f => return ("", some (.batch f))
  | .ok jobs =>
    let outcomes ← Batch.runAll (h.runJob s.outputDir dryRun) jobs
    let failed := outcomes.countP Outcome.isFailure
    return (unlines (outcomes.map Outcome.display),
      if failed = 0 then none else some (.jobs failed jobs.length))

/-- Loads a flow and shows its outline. -/
def performValidate (h : Host m) (path : String) : m (String × Option Failure) := do
  match ← Flow.load h.files.reader path with
  | .ok f => return (f.display, none)
  | .error f => return ("", some (.flow f))

/-- Performs a command with some settings, and gives its output and failure. -/
def Command.perform (h : Host m) (s : Settings) : Command → m (String × Option Failure)
  | run flow document service print dryRun =>
    performRun h s ⟨some (service.getD usualService), document, some flow, none⟩ print dryRun
  | batch jobs _ dryRun => performBatch h s jobs dryRun
  | validate flow => performValidate h flow

/-- The settings of a command: the ones that are loaded with its flags over
them. -/
def Invocation.settings (i : Invocation) (s : Settings) : Settings :=
  { s with
    outputDir := i.outputDir.getD s.outputDir
    maxParallel :=
      match i.command with
      | .batch _ (some n) _ => n
      | _ => s.maxParallel }

/-- Performs a command with its settings. -/
def Invocation.perform (h : Host m) (i : Invocation) : m Ending := do
  let verbose := i.verbosity ≥ 1
  match ← Settings.load h.lookup h.files.holds h.files.reader i.verbosity i.settingsFile with
  | .error f => return (Failure.settings f).ending verbose ""
  | .ok s =>
    match ← i.command.perform h (i.settings s) with
    | (output, none) => return ⟨0, output, []⟩
    | (output, some f) => return f.ending verbose output

/-- The end of some arguments. -/
def perform (h : Host m) (args : List String) : m Ending := do
  match Invocation.ofArguments args with
  | .error s => return s.ending
  | .ok i => i.perform h

end Gleaner.CommandLine
