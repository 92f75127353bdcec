import Gleaner.Json.Basic
import Gleaner.Table.Basic
import Gleaner.Text.Letter

/-!
# Outputs

What a flow saves: a table as CSV or any value as JSON, under a name. The
place is given relative to the output directory; where a save goes in the end
is up to the sink that takes it.

* `FileKind`: the two formats and their spellings;
* `Save`: where and how something is saved;
* `Content`: what is saved;
* `WriteFault`: a save that failed.
-/

namespace Gleaner

inductive FileKind where
  | csv
  | json
  deriving DecidableEq, Repr

namespace FileKind

/-- The format of a spelling, in letters of any case. -/
def parse? (s : String) : Option FileKind :=
  match Text.lower s with
  | "csv" => some csv
  | "json" => some json
  | _ => none

/-- The ending of the names of files of a format. -/
def extension : FileKind → String
  | csv => "csv"
  | json => "json"

/-- The format of an ending, as `extension` gives it. -/
def ofExtension? : String → Option FileKind
  | "csv" => some csv
  | "json" => some json
  | _ => none

theorem ofExtension?_extension (k : FileKind) : ofExtension? k.extension = some k := by
  cases k <;> rfl

end FileKind

structure Save where
  /-- The name of the file without its ending. -/
  name : String
  kind : FileKind
  /-- Whether the name of the document and the time are part of the name. -/
  longName : Bool
  /-- A directory below the output directory. -/
  dir : Option String
  deriving DecidableEq, Repr

/-- The name of the file of a save whose base name is `stem`. -/
def Save.fileName (s : Save) (stem : String) : String :=
  stem ++ "." ++ s.kind.extension

inductive Content where
  | table (t : Table)
  | json (j : Json)
  deriving Repr

/-- A file or directory that could not be written, and why. -/
structure WriteFault where
  path : String
  cause : String
  deriving DecidableEq, Repr

end Gleaner
