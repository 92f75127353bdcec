import Gleaner.Main
import Gleaner.Proofs.Document.Queries
import Gleaner.Proofs.Hierarchy.Branch
import Gleaner.Proofs.Hierarchy.Rendering
import Gleaner.Proofs.Job.ExitStatus
import Gleaner.Proofs.Job.Schedule
import Gleaner.Proofs.Markup.Repair
import Gleaner.Proofs.Run.Bounds
import Gleaner.Proofs.Run.Interference
import Gleaner.Proofs.Run.Kinds
import Gleaner.Proofs.Run.Queue
import Gleaner.Proofs.Run.Sinks
import Gleaner.Proofs.Job.Rehearsal
import Gleaner.Proofs.Run.Removal
import Gleaner.Proofs.Files.Resolve
import Gleaner.Proofs.Output.Below
import Gleaner.Proofs.Output.Records
import Gleaner.Proofs.Run.Branches
import Gleaner.Proofs.Table.BranchColumn
import Gleaner.Proofs.Value.Operand
import Gleaner.Proofs.Hierarchy.Slice
import Gleaner.Proofs.Hierarchy.Relabelling
import Gleaner.Proofs.Store.Refusal
import Gleaner.Proofs.Table.Projection
import Gleaner.Proofs.Run.Tables
import Gleaner.Proofs.Flow.Parameters
import Gleaner.Proofs.Flow.Reading
import Gleaner.Proofs.Flow.Checking
import Gleaner.Proofs.Run.Declared
import Gleaner.Proofs.Job.Service
import Gleaner.Proofs.Flow.Outline
import Gleaner.Proofs.Text.Normal
import Gleaner.Proofs.Text.Slice
import Gleaner.Proofs.Document.Recasing
import Gleaner.Proofs.Markup.Decoding
import Gleaner.Proofs.Hierarchy.Depth
import Gleaner.Proofs.Document.Closing
import Gleaner.Proofs.Value.Sequence
import Gleaner.Proofs.Store.Indexing
