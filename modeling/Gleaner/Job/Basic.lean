import Gleaner.Files.Path
import Gleaner.Yaml.Record

/-!
# Jobs

A job names a document and the flow to run on it, either in a file or written
into the job, and may have the name of a service. A job is a record of its
parameters and its payload, and both of these are records as well. A batch is a
list of jobs, or a mapping that has one at `jobs`.

* `Job.ofYaml?`: a job that stands alone;
* `Batch.ofYaml?`: the jobs of a batch;
* `Job.resolvePaths`: a job as seen from another directory.
-/

namespace Gleaner

structure Job where
  /-- The value of the variable `ServiceName`. -/
  service : Option String
  /-- The path of the document. -/
  document : String
  /-- The path of a flow. -/
  flowFile : Option String
  /-- A flow as a value, or as a source if the value is a text. It goes before
  the flow in a file. -/
  inlineFlow : Option Yaml

namespace Job

/-- The name of a document in long names. -/
def sourceName (j : Job) : String :=
  (Path.fileName? j.document).getD "document"

/-- The job with its relative paths taken from a directory. -/
def resolvePaths (base : String) (j : Job) : Job :=
  { j with
    document := Path.join base j.document
    flowFile := j.flowFile.map (Path.join base) }

/-! ## Reading -/

/-- How the fields of a record are read. -/
abbrev FieldReader : Type :=
  List (List String) → Yaml → Option (List (Option Yaml))

/-- A value that may be left out or null. -/
def optional? {α : Type} (read? : Yaml → Option α) : Option Yaml → Option (Option α)
  | none | some .null => some none
  | some v => (read? v).map some

/-- A value of its own within a job: none of its mappings has a key twice. -/
def inline? (v : Yaml) : Option Yaml :=
  if v.repeatsKey then none else some v

/-- The name of the service, from the parameters. -/
def service? (read : FieldReader) : Option Yaml → Option (Option String)
  | none => some none
  | some params =>
    match read [["service_name"]] params with
    | some [name] => optional? Yaml.text? name
    | _ => none

/-- The job of its parameters and payload. -/
def ofParts? (read : FieldReader) (params : Option Yaml) (payload : Yaml) : Option Job := do
  let service ← service? read params
  let [some document, flowFile, inlineFlow] ←
      read [["document", "url_to_scrap"], ["scrap_flow"], ["inline_scrap_flow"]] payload
    | none
  return {
    service
    document := ← document.text?
    flowFile := ← optional? Yaml.text? flowFile
    inlineFlow := ← optional? inline? inlineFlow }

/-- The job of a value. -/
def read? (read : FieldReader) (v : Yaml) : Option Job := do
  let [params, some payload] ← read [["params"], ["payload"]] v
    | none
  ofParts? read params payload

/-- The job of a value that stands alone, where all records are mappings. -/
def ofYaml? (v : Yaml) : Option Job :=
  read? Yaml.mappingFields? v

end Job

namespace Batch

/-- The jobs of a list. -/
def ofItems? (items : List Yaml) : Option (List Job) :=
  items.mapM (Job.read? Yaml.fields?)

/-- The jobs of a value. -/
def ofYaml? (v : Yaml) : Option (List Job) :=
  match v with
  | .list items => ofItems? items
  | .mapping _ =>
    match Yaml.fields? [["jobs"]] v with
    | some [some (.list items)] => ofItems? items
    | _ => none
  | _ => none

end Batch

end Gleaner
