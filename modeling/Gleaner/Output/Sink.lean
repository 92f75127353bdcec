import Gleaner.Files.Path
import Gleaner.Output.Basic

/-!
# Sinks

A sink takes the outputs of a run, one after the other. It has a state of its
own, and a write either gives the path of what was written or fails. The sink
of a dry run writes nothing: it keeps what it is given.

* `Sink.write`: one write;
* `Saved`: a write that was kept;
* `Sink.listing`: the sink of a dry run.
-/

namespace Gleaner

/-- How outputs are taken. -/
structure Sink (σ : Type) where
  write : Save → Content → σ → Except WriteFault String × σ

/-- Where a save goes, relative to the output directory. -/
def Save.relativePath (s : Save) : String :=
  let file := s.fileName s.name
  match s.dir with
  | some dir => Path.join dir file
  | none => file

/-- Something that was saved. -/
structure Saved where
  save : Save
  content : Content
  deriving Repr

/-- The sink that keeps what it is given, in order. -/
def Sink.listing : Sink (List Saved) where
  write save content kept := (.ok save.relativePath, kept ++ [⟨save, content⟩])

end Gleaner
