import Gleaner.Fault.Code
import Gleaner.Toml.Basic

/-!
# Settings

Settings come in layers: the values that are built in, then the environment,
then a file, then the flags of the command line. Each layer changes what it
gives and leaves the rest. A file with anything wrong in it changes nothing.

* `Settings.merge?`: settings with the assignments of a source over them;
* `Settings.withEnvironment`: settings with the environment over them;
* `Settings.effectiveLevel`: what is logged;
* `Settings.load`: the settings of the environment and a file.
-/

namespace Gleaner

structure Settings where
  /-- How many times more output was asked for. -/
  verbosity : Nat
  outputDir : String
  /-- How many jobs of a batch run at a time. -/
  maxParallel : Nat
  /-- What is logged unless more output is asked for. -/
  logLevel : Option String
  deriving DecidableEq, Repr

/-- Why there are no settings. -/
inductive SettingsFault where
  | unreadable (path cause : String)
  | invalid (path : String)
  deriving DecidableEq, Repr

namespace SettingsFault

def code : SettingsFault → Nat
  | unreadable .. => Code.settingsNotFound
  | invalid _ => Code.settingsInvalid

/-- The exit status of a run that ended with the fault. -/
def exitStatus (f : SettingsFault) : Nat :=
  Code.exitStatus f.code

def message (f : SettingsFault) : String :=
  Code.tag f.code ++
    match f with
    | unreadable path _ => "cannot read config file " ++ path
    | invalid path => "invalid config file " ++ path

/-- The message for a user: the area in words, then the message and its cause. -/
def userMessage (f : SettingsFault) : String :=
  Code.describe f.code ++ ": " ++ f.message ++
    match f with
    | unreadable _ cause => ": " ++ cause
    | invalid _ => ""

end SettingsFault

namespace Settings

/-- The settings that are built in. -/
def builtIn (verbosity : Nat) : Settings :=
  ⟨verbosity, ".", 4, none⟩

/-- What is logged: more with each level of verbosity, and the level that is
set without any. -/
def effectiveLevel (s : Settings) : String :=
  match s.verbosity with
  | 0 => s.logLevel.getD "info"
  | 1 => "debug"
  | _ => "trace"

/-- The settings with one assignment over them. -/
def assign? (s : Settings) : String → Toml.Value → Option Settings
  | "output_dir", .text dir => some { s with outputDir := dir }
  | "max_parallel", .whole n => some { s with maxParallel := n }
  | "log_level", .text level => some { s with logLevel := some level }
  | _, _ => none

/-- The settings with some assignments over them. -/
def assignAll? (s : Settings) : List (String × Toml.Value) → Option Settings
  | [] => some s
  | (key, value) :: rest => (s.assign? key value).bind (·.assignAll? rest)

/-- The settings with a source over them. -/
def merge? (s : Settings) (source : String) : Option Settings :=
  (Toml.parse? source).bind s.assignAll?

/-! ## Loading -/

/-- The file that is read from the working directory if it is there. -/
def defaultFile : String := "scrapeflow.toml"

/-- What the environment says about settings. -/
structure Environment where
  outputDir : Option String
  logLevel : Option String
  maxParallel : Option String

/-- What the environment says, by the names of its variables. -/
def Environment.ofLookup {m : Type → Type} [Monad m] (lookup : String → m (Option String)) :
    m Environment := do
  return {
    outputDir := ← lookup "SCRAPEFLOW_OUTPUT_DIR"
    logLevel := ← lookup "SCRAPEFLOW_LOG"
    maxParallel := ← lookup "SCRAPEFLOW_MAX_PARALLEL" }

/-- The settings with the environment over them. A number of jobs that is no
numeral is passed over. -/
def withEnvironment (s : Settings) (e : Environment) : Settings :=
  { s with
    outputDir := e.outputDir.getD s.outputDir
    logLevel := e.logLevel <|> s.logLevel
    maxParallel := (e.maxParallel.bind Text.unsigned?).getD s.maxParallel }

/-- The settings with a file over them. -/
def withFile (s : Settings) (path : String) (content : Except String String) :
    Except SettingsFault Settings :=
  match content with
  | .error cause => .error (.unreadable path cause)
  | .ok source => ((s.merge? source).map .ok).getD (.error (.invalid path))

/-- The settings of an environment and a file. A file that is named must be
there; without one the default file is read if it is there. -/
def load {m : Type → Type} [Monad m] (lookup : String → m (Option String))
    (holds : String → m Bool) (read : String → m (Except String String))
    (verbosity : Nat) (file : Option String) : m (Except SettingsFault Settings) := do
  let s := (builtIn verbosity).withEnvironment (← Environment.ofLookup lookup)
  match file with
  | some path => return s.withFile path (← read path)
  | none =>
    if ← holds defaultFile then return s.withFile defaultFile (← read defaultFile)
    else return .ok s

end Settings

end Gleaner
