import Gleaner.Files.Disk
import Gleaner.Output.Csv
import Gleaner.Output.Sink

/-!
# Writing below a directory

A real run writes each output to a file below the output directory, and makes
the directories on the way. A long name has the name of the document and the
time in it. Nothing keeps a save from naming a place outside the output
directory: its name and its directory are joined to the path as they are.

* `OutputDirectory.target`: the path of a save;
* `OutputDirectory.save`, `OutputDirectory.saveAll`: writes to a file system;
* `OutputDirectory.sink`: the sink that writes to a disk.
-/

namespace Gleaner

/-- A directory that outputs are written below. -/
structure OutputDirectory where
  path : String
  /-- The name of the document in long names. -/
  source : String
  /-- The time in long names. -/
  stamp : String
  deriving DecidableEq, Repr

/-- A disk that is written to, and the paths of the files written so far. -/
structure Desk where
  disk : Disk
  written : List String
  deriving Repr

namespace OutputDirectory

/-- The name of the file of a save, without its ending. -/
def stem (o : OutputDirectory) (s : Save) : String :=
  if s.longName then s.name ++ "-" ++ o.source ++ "-" ++ o.stamp else s.name

/-- The path of the file of a save. -/
def target (o : OutputDirectory) (s : Save) : String :=
  let file := s.fileName (o.stem s)
  match s.dir with
  | some dir => Path.join (Path.join o.path dir) file
  | none => Path.join o.path file

section

variable {m : Type → Type} [Monad m]

/-- Makes the directories above a path. -/
def prepare (fs : FileSystem m) (path : String) : m (Except WriteFault Unit) := do
  match Path.parent? path with
  | none => return .ok ()
  | some above => return (← fs.makeDirectories above).mapError fun f => ⟨above, f.text⟩

/-- Writes some content as a save says, and gives the path of the file. What of
the content could be written stays in the file. -/
def save (o : OutputDirectory) (fs : FileSystem m) (s : Save) (content : Content) :
    m (Except WriteFault String) := do
  let path := o.target s
  match ← prepare fs path with
  | .error f => return .error f
  | .ok () =>
    let (result, text) := content.encode
    match ← fs.write path text with
    | .error f => return .error ⟨path, f.text⟩
    | .ok () =>
      match result with
      | .error cause => return .error ⟨path, cause⟩
      | .ok () => return .ok path

/-- Writes what was kept, in order up to the first fault, and gives the paths of
the files. -/
def saveAll (o : OutputDirectory) (fs : FileSystem m) :
    List Saved → m (Except WriteFault (List String))
  | [] => return .ok []
  | s :: rest => do
    match ← o.save fs s.save s.content with
    | .error f => return .error f
    | .ok path => return (← o.saveAll fs rest).map (path :: ·)

end

/-- Writes some content to a disk, and keeps the path of the file. -/
def write (o : OutputDirectory) (s : Save) (content : Content) (desk : Desk) :
    Except WriteFault String × Desk :=
  match (o.save Disk.system s content).run desk.disk with
  | (.error f, disk) => (.error f, { desk with disk })
  | (.ok path, disk) => (.ok path, ⟨disk, desk.written ++ [path]⟩)

/-- The sink that writes below a directory of a disk. -/
def sink (o : OutputDirectory) : Sink Desk where
  write := o.write

end OutputDirectory

end Gleaner
