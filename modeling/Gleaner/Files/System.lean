import Gleaner.Files.Path
import Gleaner.Text.Numeral

/-!
# File systems

What a program needs of the files around it, in any monad: reading and writing
a file, making a directory, and seeing what is there. Whatever can be done with
these few operations is written once, for a disk in memory and for the files of
the machine alike.

* `FileFault`: why a path cannot be used;
* `FileSystem`: the operations;
* `FileSystem.makeDirectories`: a directory and the ones on the way to it.
-/

namespace Gleaner

/-- Why a path cannot be used. -/
inductive FileFault where
  | missing
  | taken
  | notDirectory
  | isDirectory
  | nameTooLong
  | nulInName
  /-- Any other cause, in the words of the system. -/
  | other (text : String)
  deriving DecidableEq, Repr

namespace FileFault

/-- The wording of a fault. -/
def text : FileFault → String
  | missing => "No such file or directory (os error 2)"
  | taken => "File exists (os error 17)"
  | notDirectory => "Not a directory (os error 20)"
  | isDirectory => "Is a directory (os error 21)"
  | nameTooLong => "File name too long (os error 36)"
  | nulInName => "file name contained an unexpected NUL byte"
  | other text => text

/-- The fault of a code of the system. -/
def ofCode (code : Nat) (details : String) : FileFault :=
  match code with
  | 2 => missing
  | 17 => taken
  | 20 => notDirectory
  | 21 => isDirectory
  | 36 => nameTooLong
  | code => other (details ++ " (os error " ++ Text.numeral code ++ ")")

end FileFault

structure FileSystem (m : Type → Type) where
  read : String → m (Except FileFault String)
  /-- Writes a file, in a directory that is there. -/
  write : String → String → m (Except FileFault Unit)
  /-- Makes a directory, in a directory that is there. -/
  makeDirectory : String → m (Except FileFault Unit)
  /-- Whether a path leads to a file or a directory. -/
  holds : String → m Bool
  /-- Whether a path leads to a directory. -/
  hasDirectory : String → m Bool

/-- How the text of a file is read, or the cause why it cannot be. -/
abbrev FileReader (m : Type → Type) : Type :=
  String → m (Except String String)

namespace FileSystem

variable {m : Type → Type} [Monad m]

/-- Reads a file, with the wording of a fault as the cause. -/
def reader (fs : FileSystem m) : FileReader m := fun path => do
  return (← fs.read path).mapError FileFault.text

/-- Takes a directory that could not be made for made if it is there. -/
def accept (fs : FileSystem m) (path : String) (f : FileFault) : m (Except FileFault Unit) := do
  return if ← fs.hasDirectory path then .ok () else .error f

/-- Makes the first directory of a list, each of which lies in the next one. If
there is no directory to make it in, this is made first. What was made before a
fault stays. -/
def makeChain (fs : FileSystem m) : List String → m (Except FileFault Unit)
  | [] => return .error .missing
  | path :: above => do
    if path.isEmpty then return .ok ()
    match ← fs.makeDirectory path with
    | .ok () => return .ok ()
    | .error .missing =>
      match ← fs.makeChain above with
      | .error f => return .error f
      | .ok () =>
        match ← fs.makeDirectory path with
        | .ok () => return .ok ()
        | .error f => fs.accept path f
    | .error f => fs.accept path f

/-- Makes a directory and the ones on the way to it, as far as they are not
there. -/
def makeDirectories (fs : FileSystem m) (path : String) : m (Except FileFault Unit) :=
  fs.makeChain (Path.ancestors path)

end FileSystem

end Gleaner
