import Gleaner.Job.Run

/-!
# Tasks on a shared disk

A program that shares its disk with others acts on it now and then, and others may
act in between. A `FileTask` is such a program: it says which action comes first,
and how to go on with the disk that the action finds, or it is done. Whatever is
written for a file system in any monad is a task on `FileTask.system`, each of
whose operations is one action.

* `FileTask.run`: the run of a task that has the disk for itself;
* `FileTask.ReadsTo`: what a task comes to that never changes the disk;
* `Job.readsTo_rehearse`: a dry run is such a task, and comes to what it comes to
  when it is run by itself.
-/

namespace Gleaner

/-- A computation by single actions on a disk. The task after an action depends on
the disk that the action finds. -/
inductive FileTask (α : Type) where
  | done (a : α)
  | act (effect : Disk → Disk) (next : Disk → FileTask α)

namespace FileTask

variable {α β : Type}

/-- One task after the other. -/
def bind : FileTask α → (α → FileTask β) → FileTask β
  | done a, k => k a
  | act effect next, k => act effect fun disk => (next disk).bind k

instance : Monad FileTask where
  pure := done
  bind := FileTask.bind

/-- The task of a computation on disks, which is one action. -/
def perform (x : StateM Disk α) : FileTask α :=
  act (fun disk => (x.run disk).2) fun disk => done (x.run disk).1

/-- The file system whose operations are single actions. -/
def system : FileSystem FileTask where
  read path := perform (Disk.system.read path)
  write path content := perform (Disk.system.write path content)
  makeDirectory path := perform (Disk.system.makeDirectory path)
  holds path := perform (Disk.system.holds path)
  hasDirectory path := perform (Disk.system.hasDirectory path)

/-- The run of a task that has the disk for itself. -/
def run : FileTask α → Disk → α × Disk
  | done a, disk => (a, disk)
  | act effect next, disk => (next disk).run (effect disk)

/-! ## Tasks that only read -/

/-- Whether a task never changes a disk, and comes to a result on it. -/
def ReadsTo (disk : Disk) (a : α) : FileTask α → Prop
  | done b => b = a
  | act effect next => effect disk = disk ∧ (next disk).ReadsTo disk a

variable {disk : Disk} {a : α} {b : β} {t : FileTask α}

/-- A computation that is written for any monad reads as a task what it reads by
itself, if its parts do. -/
theorem ReadsTo.bind {x : Id α} {k : α → FileTask β} {k' : α → Id β}
    (ht : t.ReadsTo disk (Id.run x)) (hk : ∀ a, (k a).ReadsTo disk (Id.run (k' a))) :
    (t >>= k).ReadsTo disk (Id.run (x >>= k')) := by
  induction t with
  | done a =>
    cases ht
    exact hk x
  | act effect next ih => exact ⟨ht.1, ih disk ht.2⟩

theorem readsTo_reader (disk : Disk) (path : String) :
    (system.reader path).ReadsTo disk (disk.readText path) :=
  ⟨rfl, rfl⟩

end FileTask

/-! ## Dry runs -/

open FileTask

theorem Flow.readsTo_load (disk : Disk) (path : String) :
    (Flow.load system.reader path).ReadsTo disk (Id.run (Flow.load disk.readText path)) := by
  refine (readsTo_reader disk path).bind (x := disk.readText path) fun r => ?_
  cases r with
  | error cause => rfl
  | ok source => rfl

theorem Document.readsTo_load (disk : Disk) (path : String) :
    (Document.load system.reader path).ReadsTo disk
      (Id.run (Document.load disk.readText path)) := by
  refine (readsTo_reader disk path).bind (x := disk.readText path) fun r => ?_
  cases r with
  | error cause => rfl
  | ok source => rfl

namespace Job

theorem readsTo_loadFlow (disk : Disk) (j : Job) :
    (j.loadFlow system.reader).ReadsTo disk (Id.run (j.loadFlow disk.readText)) := by
  unfold loadFlow
  split
  · rfl
  · rename_i path _ _
    exact (Flow.readsTo_load disk path).bind fun r => rfl
  · rfl

theorem readsTo_load (disk : Disk) (j : Job) :
    (j.load system.reader).ReadsTo disk (Id.run (j.load disk.readText)) := by
  refine (readsTo_loadFlow disk j).bind fun r => ?_
  cases r with
  | error f => rfl
  | ok flow =>
    refine (Document.readsTo_load disk j.document).bind fun r => ?_
    cases r with
    | error f => rfl
    | ok document => rfl

/-- A dry run does not change the disk, and comes to what it comes to when it is
run by itself. -/
theorem readsTo_rehearse (disk : Disk) (j : Job) :
    (j.rehearse system.reader).ReadsTo disk (Id.run (j.rehearse disk.readText)) := by
  refine (readsTo_load disk j).bind fun r => ?_
  cases r with
  | error f => rfl
  | ok parts => rfl

end Job

end Gleaner
