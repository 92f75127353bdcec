import Gleaner.Output.Basic
import Gleaner.Json.Printer

/-!
# The text of an output

A table is written as CSV: one line for each record, with commas between the
fields. A field that has a comma, a quote or the end of a line in it stands in
quotes, and each quote in it is written twice. A record whose line would be
empty is written as two quotes, so that it does not get lost. A writer asks all
records to be as long as the first one, unless it is flexible; tables are written
by a flexible one.

* `Csv.record`: one record with the end of its line;
* `Csv.Writer`: a writer of records, with `Writer.writeRecord`, `Writer.writeAll`;
* `Content.encode`: the text of a file that holds some content.
-/

namespace Gleaner

namespace Csv

/-- Whether a character can only stand in a quoted field. -/
def isSpecial (c : Char) : Bool :=
  c == ',' || c == '"' || c == '\r' || c == '\n'

/-- The characters with each quote written twice. -/
def doubled (cs : List Char) : List Char :=
  cs.flatMap fun c => if c == '"' then ['"', '"'] else [c]

/-- A field as it stands in a line. -/
def field (cs : List Char) : List Char :=
  if cs.any isSpecial then '"' :: doubled cs ++ ['"'] else cs

/-- The line of a record, without its end. -/
def line (fields : List String) : List Char :=
  [','].intercalate (fields.map fun s => field s.toList)

/-- A record with the end of its line. -/
def record (fields : List String) : List Char :=
  let cs := line fields
  (if cs.isEmpty then ['"', '"'] else cs) ++ ['\n']

example : record ["a", "x \"y\"", ""] = "a,\"x \"\"y\"\"\",\n".toList := by decide
example : record [] = record [""] := by decide

/-! ## Writers -/

/-- The fault of a record that is not as long as the first one. -/
structure UnequalLengths where
  expected : Nat
  found : Nat
  deriving DecidableEq, Repr

/-- The message of a fault. -/
def UnequalLengths.text (e : UnequalLengths) : String :=
  "CSV error: found record with " ++ toString e.found ++
    " fields, but the previous record has " ++ toString e.expected ++ " fields"

/-- A writer of records, with what it has written. -/
structure Writer where
  /-- Whether records may differ in length. -/
  flexible : Bool
  /-- The length of the first record, once it is counted. -/
  count? : Option Nat
  written : String
  deriving DecidableEq, Repr

namespace Writer

/-- A writer that has written nothing. -/
def new (flexible : Bool) : Writer := ⟨flexible, none, ""⟩

/-- Writes some characters. -/
def put (w : Writer) (cs : List Char) : Writer :=
  { w with written := w.written ++ String.ofList cs }

/-- Compares the length of a record to that of the first one, or keeps it, if it
is the first one. A flexible writer does not count. -/
def count (w : Writer) (length : Nat) : Except UnequalLengths Writer :=
  if w.flexible then .ok w
  else
    match w.count? with
    | none => .ok { w with count? := some length }
    | some expected => if expected = length then .ok w else .error ⟨expected, length⟩

/-- Writes a record. It is counted when its fields are written: if its length is
wrong, only the end of the line is missing. -/
def writeRecord (w : Writer) (fields : List String) : Except UnequalLengths Unit × Writer :=
  match w.count fields.length with
  | .ok w => (.ok (), w.put (record fields))
  | .error e => (.error e, w.put (line fields))

/-- Writes some records, up to the first fault. -/
def writeAll (w : Writer) : List (List String) → Except UnequalLengths Unit × Writer
  | [] => (.ok (), w)
  | fields :: rest =>
    match w.writeRecord fields with
    | (.error e, w) => (.error e, w)
    | (.ok (), w) => w.writeAll rest

end Writer

end Csv

/-- The text of a file that holds some content, tables as CSV and other values as
JSON over several lines, and whether all of it could be written. -/
def Content.encode : Content → Except String Unit × String
  | table t =>
    let (result, w) := (Csv.Writer.new true).writeAll t.records
    (result.mapError (·.text), w.written)
  | json j => (.ok (), j.pretty)

end Gleaner
