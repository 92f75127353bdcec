import Gleaner.CommandLine.Argument

/-!
# Commands

The commands are `run`, for one flow on one document, `batch`, for the jobs of
a file, and `validate`, for a flow alone. The flags for verbosity, the settings
file and the output directory may stand before and after the name of the
command; where both are given, the ones after it count.

* `Invocation.ofArguments`: the command of some arguments.
-/

namespace Gleaner.CommandLine

inductive Command where
  | run (flow document : String) (service : Option String) (print dryRun : Bool)
  | batch (jobs : String) (maxParallel : Option Nat) (dryRun : Bool)
  | validate (flow : String)
  deriving DecidableEq, Repr

/-- A command with what is said about settings. -/
structure Invocation where
  verbosity : Nat
  settingsFile : Option String
  outputDir : Option String
  command : Command
  deriving DecidableEq, Repr

/-! ## Flags -/

/-- The flags of all commands. -/
def sharedFlags : List Flag :=
  [⟨"verbose", some 'v', .count⟩, ⟨"config", some 'c', .path⟩, ⟨"output-dir", some 'o', .path⟩]

def runFlags : List Flag :=
  [⟨"flow", some 'f', .path⟩, ⟨"document", some 'd', .path⟩, ⟨"service-name", some 's', .text⟩,
    ⟨"print", none, .nothing⟩, ⟨"dry-run", none, .nothing⟩]

def batchFlags : List Flag :=
  [⟨"max-parallel", some 'j', .number⟩, ⟨"dry-run", none, .nothing⟩]

def validateFlags : List Flag :=
  [⟨"flow", some 'f', .path⟩]

/-- The flags of a command by its name. -/
def flagsOf? : String → Option (List Flag)
  | "run" => some runFlags
  | "batch" => some batchFlags
  | "validate" => some validateFlags
  | _ => none

/-! ## Reading -/

/-- The only word of a command. -/
def oneWord (words : List String) : Except Stop String :=
  match words with
  | [w] => if Takes.path.accepts w then .ok w else .error (.misuse "empty word")
  | [] => .error (.misuse "missing word")
  | _ => .error (.misuse "too many words")

/-- Nothing, if there are no words. -/
def noWords (words : List String) : Except Stop Unit :=
  if words.isEmpty then .ok () else .error (.misuse "too many words")

/-- The command of a name and what is given after it. -/
def Command.ofGiven (name : String) (g : Given) : Except Stop Command :=
  match name with
  | "run" => do
    noWords g.words
    return .run (← g.require "flow") (← g.require "document") (g.value? "service-name")
      (g.has "print") (g.has "dry-run")
  | "batch" => do
    let jobs ← oneWord g.words
    return .batch jobs ((g.value? "max-parallel").bind Text.unsigned?) (g.has "dry-run")
  | _ => do
    noWords g.words
    return .validate (← g.require "flow")

/-- Why the command `help` runs no command, by the words after it. -/
def helpStop : List String → Stop
  | [] => .help
  | name :: _ =>
    if (flagsOf? name).isSome || name = "help" then .help else .misuse ("unknown command " ++ name)

namespace Invocation

/-- What is said about settings before and after the name of a command. -/
def ofParts (before after : Given) (command : Command) : Invocation where
  verbosity := if after.has "verbose" then after.count "verbose" else before.count "verbose"
  settingsFile := after.value? "config" <|> before.value? "config"
  outputDir := after.value? "output-dir" <|> before.value? "output-dir"
  command := command

/-- The command of some arguments. -/
def ofArguments (args : List String) : Except Stop Invocation := do
  let (before, rest) ← Reader.read ⟨sharedFlags, true⟩ args
  match rest with
  | [] => throw (.misuse "no command")
  | "help" :: words => throw (helpStop words)
  | name :: rest =>
    match flagsOf? name with
    | none => throw (.misuse ("unknown command " ++ name))
    | some flags =>
      let (after, _) ← Reader.read ⟨flags ++ sharedFlags, false⟩ rest
      return ofParts before after (← Command.ofGiven name after)

end Invocation

end Gleaner.CommandLine
