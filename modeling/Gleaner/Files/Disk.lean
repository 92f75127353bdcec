import Gleaner.Files.System

/-!
# Disks

A disk is a tree of directories and files in memory, with a working directory,
from which relative paths start. A path is followed part by part, each step from a
directory that is there, so that `a/../b` leads to nothing unless `a` is a
directory.

* `Disk.place`: where a path leads;
* `Disk.read?`, `Disk.write`: the text of a file;
* `Disk.makeDirectory`: a directory;
* `Disk.system`: disks as a file system.
-/

namespace Gleaner

/-- What stands at a place of a disk. -/
inductive Entry where
  | file (content : String)
  | directory
  deriving DecidableEq, Repr

/-- A place is the list of the names on the way to it from the root. -/
structure Disk where
  entries : List (List String × Entry)
  /-- The place of the working directory. -/
  home : List String
  deriving Repr

namespace Disk

/-- The disk that holds nothing but its working directory. -/
def empty (home : List String) : Disk :=
  ⟨(List.range home.length).map fun n => (home.take (n + 1), .directory), home⟩

/-- What stands at a place. The root is a directory. -/
def entry? (d : Disk) (place : List String) : Option Entry :=
  if place.isEmpty then some .directory else (d.entries.find? (·.1 == place)).map (·.2)

/-- Puts something at a place, instead of what stands there. -/
def put (d : Disk) (place : List String) (e : Entry) : Disk :=
  { d with entries := (place, e) :: d.entries.filter (·.1 != place) }

/-! ## Following a path -/

/-- The number of bytes that a name may have. -/
def nameLimit : Nat := 255

/-- The number of bytes that a path must stay below. -/
def pathLimit : Nat := 4096

/-- The place that some parts lead to from another one. Each step starts from
a directory, so only the last one may lead to nothing. -/
def follow (d : Disk) (place : List String) : List String → Except FileFault (List String)
  | [] => .ok place
  | part :: rest =>
    match d.entry? place with
    | none => .error .missing
    | some (.file _) => .error .notDirectory
    | some .directory =>
      if part.isEmpty || part == "." then d.follow place rest
      else if part == ".." then d.follow place.dropLast rest
      else if part.utf8ByteSize > nameLimit then .error .nameTooLong
      else d.follow (place ++ [part]) rest

/-- The place that a path leads to. There need not be anything at it. -/
def place (d : Disk) (path : String) : Except FileFault (List String) :=
  if path.toList.contains '\x00' then .error .nulInName
  else if path.isEmpty then .error .missing
  else if path.utf8ByteSize ≥ pathLimit then .error .nameTooLong
  else d.follow (if Path.isAbsolute path then [] else d.home) (Path.parts path)

/-- What a path leads to, if it leads to anything. -/
def at? (d : Disk) (path : String) : Option Entry :=
  (d.place path).toOption.bind d.entry?

/-- Whether a path leads to a file or a directory. -/
def holds (d : Disk) (path : String) : Bool :=
  (d.at? path).isSome

/-- Whether a path leads to a directory. -/
def hasDirectory (d : Disk) (path : String) : Bool :=
  d.at? path == some .directory

/-! ## Files and directories -/

/-- The text of a file. -/
def read? (d : Disk) (path : String) : Except FileFault String := do
  match d.entry? (← d.place path) with
  | some (.file content) => return content
  | some .directory => throw .isDirectory
  | none => throw .missing

/-- The text of a file, or the wording of the fault. -/
def readText (d : Disk) (path : String) : Except String String :=
  (d.read? path).mapError FileFault.text

/-- Writes a file, in a directory that is there. -/
def write (d : Disk) (path content : String) : Except FileFault Disk := do
  let place ← d.place path
  if d.entry? place = some .directory then throw .isDirectory
  return d.put place (.file content)

/-- Makes a directory, in a directory that is there. -/
def makeDirectory (d : Disk) (path : String) : Except FileFault Disk := do
  let place ← d.place (Path.trimSlashes path)
  if (d.entry? place).isSome then throw .taken
  return d.put place .directory

/-- A change of a disk as a computation, which leaves the disk as it is if there
is a fault. -/
def change (f : Disk → Except FileFault Disk) : StateM Disk (Except FileFault Unit) := fun d =>
  match f d with
  | .ok d => (.ok (), d)
  | .error e => (.error e, d)

/-- A disk as the file system of computations that change it. -/
def system : FileSystem (StateM Disk) where
  read path d := (d.read? path, d)
  write path content := change (·.write path content)
  makeDirectory path := change (·.makeDirectory path)
  holds path d := (d.holds path, d)
  hasDirectory path d := (d.hasDirectory path, d)

/-- The files below a place, with the names on the way to them from there. -/
def filesBelow (d : Disk) (place : List String) : List (List String × String) :=
  d.entries.filterMap fun (names, e) =>
    match e with
    | .file content =>
      if place.isPrefixOf names then some (names.drop place.length, content) else none
    | .directory => none

end Disk

end Gleaner
