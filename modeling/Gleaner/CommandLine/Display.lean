import Gleaner.Job.Batch

/-!
# What commands show

The texts on standard output: the files of a job and its value, a line for each
job of a batch, the outline of a flow. Every line has its end.

* `Report.display`, `Outcome.display`, `Flow.display`: the three texts.
-/

namespace Gleaner

/-- Some lines as a text. -/
def unlines (lines : List String) : String :=
  String.join (lines.map (· ++ "\n"))

/-- The files of a job, written or listed, and its value if it is to be
printed. -/
def Report.display (print dryRun : Bool) (r : Report) : String :=
  let verb := if dryRun then "would write " else "wrote "
  unlines (r.written.map (verb ++ ·) ++ if print then [r.value.pretty] else [])

/-- The line of a job of a batch. -/
def Outcome.display (o : Outcome) : String :=
  match o.result with
  | .ok report =>
    "ok     " ++ o.document ++ " (" ++ Text.numeral report.written.length ++ " files)"
  | .error message => "failed " ++ o.document ++ ": " ++ message

/-- The outline of a flow and its size. -/
def Flow.display (f : Flow) : String :=
  f.outline ++
    unlines [Text.numeral f.width ++ " steps, " ++ Text.numeral f.count ++ " actions"]

end Gleaner
