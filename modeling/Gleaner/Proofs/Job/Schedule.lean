import Mathlib.Data.List.Basic
import Mathlib.Logic.Relation
import Gleaner.Job.Batch
import Gleaner.Proofs.Files.Task

/-!
# Batches that run side by side

The jobs of a batch may run side by side on one disk, as many at a time as there
are permits. A job that waits starts when a permit is free and holds it until it
is done; in between it acts on the disk whenever it does, and so do the others.
`Batch.Step` leaves all of this open, so that what holds of all reachable states
holds of every schedule.

* `Batch.State.Sound`: permits are neither lost nor made, and no job starts twice;
* `Batch.State.Sound.exists_step_iff`, `Batch.State.Sound.exists_over`: a batch can
  go on until it is over, and it can be brought to its end;
* `Batch.State.Undisturbed`: jobs that only read do not disturb one another;
* `Batch.schedule_independent`: the statement for batches.
-/

namespace Gleaner

namespace Batch

/-- How far a job of a batch has come. -/
inductive Stage where
  | waiting
  | running (rest : FileTask (Except JobFault Report))
  | finished (result : Except JobFault Report)

/-- A job of a batch and how far it has come. -/
structure Slot where
  job : Job
  stage : Stage

namespace Slot

def isWaiting : Slot → Bool
  | ⟨_, .waiting⟩ => true
  | _ => false

def isRunning : Slot → Bool
  | ⟨_, .running _⟩ => true
  | _ => false

/-- The outcome of a job that is finished, at a place of the batch. -/
def outcome? (index : Nat) : Slot → Option Outcome
  | ⟨j, .finished result⟩ => some (.ofResult index j result)
  | _ => none

end Slot

/-- A batch on its way. -/
structure State where
  /-- The number of permits that no job holds. -/
  free : Nat
  slots : List Slot
  disk : Disk
  /-- The places of the jobs that have been started, the last one first. -/
  started : List Nat

/-- A batch before any job is started. There is one permit at least. -/
def begin (maxParallel : Nat) (jobs : List Job) (disk : Disk) : State :=
  ⟨max 1 maxParallel, jobs.map (⟨·, .waiting⟩), disk, []⟩

/-- The outcomes of jobs that are all finished, the first of which has an index. -/
def outcomesFrom? (index : Nat) : List Slot → Option (List Outcome)
  | [] => some []
  | slot :: rest => do
    let outcome ← slot.outcome? index
    let outcomes ← outcomesFrom? (index + 1) rest
    return outcome :: outcomes

namespace State

/-- The number of jobs that wait. -/
def waiting (s : State) : Nat :=
  s.slots.countP (·.isWaiting)

/-- The number of jobs that are running. -/
def running (s : State) : Nat :=
  s.slots.countP (·.isRunning)

/-- The outcomes of the batch when it is over. -/
def outcomes? (s : State) : Option (List Outcome) :=
  outcomesFrom? 0 s.slots

end State

/-- What may happen next, where a job does the task that it stands for. -/
inductive Step (task : Job → FileTask (Except JobFault Report)) : State → State → Prop where
  /-- A job that waits takes a permit and starts. -/
  | start {s : State} {i free : Nat} {j : Job} :
    s.free = free + 1 → s.slots[i]? = some ⟨j, .waiting⟩ →
    Step task s ⟨free, s.slots.set i ⟨j, .running (task j)⟩, s.disk, i :: s.started⟩
  /-- A job that is running acts on the disk. -/
  | act {s : State} {i : Nat} {j : Job} {effect : Disk → Disk}
    {next : Disk → FileTask (Except JobFault Report)} :
    s.slots[i]? = some ⟨j, .running (.act effect next)⟩ →
    Step task s ⟨s.free, s.slots.set i ⟨j, .running (next s.disk)⟩, effect s.disk, s.started⟩
  /-- A job that is done gives its permit back. -/
  | finish {s : State} {i : Nat} {j : Job} {result : Except JobFault Report} :
    s.slots[i]? = some ⟨j, .running (.done result)⟩ →
    Step task s ⟨s.free + 1, s.slots.set i ⟨j, .finished result⟩, s.disk, s.started⟩

/-- Whether a state comes about in some schedule. -/
abbrev Reaches (task : Job → FileTask (Except JobFault Report)) : State → State → Prop :=
  Relation.ReflTransGen (Step task)

variable {task : Job → FileTask (Except JobFault Report)} {s s' : State} {limit : Nat}
  {jobs : List Job}

/-! ## Slots -/

section

variable {slots : List Slot} {i : Nat} {j : Job} {stage stage' : Stage}

theorem countP_set_add (p : Slot → Bool) {old new : Slot} (h : slots[i]? = some old) :
    (slots.set i new).countP p + (p old).toNat = slots.countP p + (p new).toNat := by
  obtain ⟨hi, rfl⟩ := List.getElem?_eq_some_iff.mp h
  rw [List.countP_set hi]
  cases hp : p slots[i] with
  | false => cases p new <;> simp
  | true =>
    have hpos : 0 < slots.countP p := List.countP_pos_iff.mpr ⟨slots[i], List.getElem_mem hi, hp⟩
    cases p new <;> simp <;> omega

/-- A job that starts waits no more and is running. -/
theorem countP_set_running (h : slots[i]? = some ⟨j, .waiting⟩)
    (rest : FileTask (Except JobFault Report)) :
    (slots.set i ⟨j, .running rest⟩).countP (·.isWaiting) + 1 = slots.countP (·.isWaiting) ∧
      (slots.set i ⟨j, .running rest⟩).countP (·.isRunning) = slots.countP (·.isRunning) + 1 :=
  ⟨countP_set_add (·.isWaiting) h, countP_set_add (·.isRunning) h⟩

/-- A job that ends is running no more. -/
theorem countP_set_finished {rest : FileTask (Except JobFault Report)}
    (h : slots[i]? = some ⟨j, .running rest⟩) (result : Except JobFault Report) :
    (slots.set i ⟨j, .finished result⟩).countP (·.isWaiting) = slots.countP (·.isWaiting) ∧
      (slots.set i ⟨j, .finished result⟩).countP (·.isRunning) + 1 = slots.countP (·.isRunning) :=
  ⟨countP_set_add (·.isWaiting) h, countP_set_add (·.isRunning) h⟩

theorem map_job_set (h : slots[i]? = some ⟨j, stage⟩) :
    (slots.set i ⟨j, stage'⟩).map (·.job) = slots.map (·.job) := by
  obtain ⟨hi, he⟩ := List.getElem?_eq_some_iff.mp h
  rw [List.map_set]
  refine List.ext_getElem? fun k => ?_
  by_cases hk : i = k
  · subst hk
    rw [List.getElem?_set_self (by simpa using hi)]
    simp [h]
  · rw [List.getElem?_set_ne hk]

theorem getElem?_set_of_some {old new : Slot} (h : slots[i]? = some old) :
    (slots.set i new)[i]? = some new := by
  obtain ⟨hi, -⟩ := List.getElem?_eq_some_iff.mp h
  exact List.getElem?_set_self hi

end

/-! ## Permits -/

namespace State

/-- What holds of a batch whatever its schedule is. -/
structure Sound (limit : Nat) (jobs : List Job) (s : State) : Prop where
  jobs : s.slots.map (·.job) = jobs
  /-- Each permit is free or held by a job that is running. -/
  permits : s.free + s.running = limit
  once : s.started.Nodup
  /-- The jobs that were started are those that do not wait. -/
  begun : ∀ i, i ∈ s.started ↔ ∃ slot, s.slots[i]? = some slot ∧ slot.isWaiting = false

theorem sound_begin (maxParallel : Nat) (jobs : List Job) (disk : Disk) :
    (begin maxParallel jobs disk).Sound (max 1 maxParallel) jobs where
  jobs := by
    unfold begin
    rw [List.map_map]
    exact List.map_id jobs
  permits := by
    have hnone : (jobs.map (Slot.mk · .waiting)).countP (·.isRunning) = 0 := by
      rw [List.countP_map]
      exact List.countP_eq_zero.mpr fun _ _ => Bool.false_ne_true
    exact congrArg (max 1 maxParallel + ·) hnone
  once := List.nodup_nil
  begun i := by
    refine ⟨nofun, fun ⟨slot, hslot, hwaiting⟩ => ?_⟩
    obtain ⟨j, -, rfl⟩ := List.mem_map.mp (List.mem_of_getElem? hslot)
    cases hwaiting

/-- A job that is not waiting comes to another stage. -/
theorem begun_set {i : Nat} {old new : Slot} (h : s.slots[i]? = some old)
    (hold : old.isWaiting = false) (hnew : new.isWaiting = false)
    (hs : ∀ k, k ∈ s.started ↔ ∃ slot, s.slots[k]? = some slot ∧ slot.isWaiting = false) (k : Nat) :
    k ∈ s.started ↔ ∃ slot, (s.slots.set i new)[k]? = some slot ∧ slot.isWaiting = false := by
  by_cases hk : i = k
  · subst hk
    exact iff_of_true ((hs i).mpr ⟨old, h, hold⟩) ⟨new, getElem?_set_of_some h, hnew⟩
  · rw [List.getElem?_set_ne hk]
    exact hs k

theorem Sound.step (hs : s.Sound limit jobs) (h : Step task s s') : s'.Sound limit jobs := by
  have hpermits := hs.permits
  unfold running at hpermits
  cases h with
  | @start i free j hfree hi =>
    have hnew : i ∉ s.started := fun hmem => by
      obtain ⟨slot, hslot, hwaiting⟩ := (hs.begun i).mp hmem
      rw [hi] at hslot
      cases hslot
      cases hwaiting
    refine ⟨(map_job_set hi).trans hs.jobs, ?_, List.nodup_cons.mpr ⟨hnew, hs.once⟩, fun k => ?_⟩
    · have hcount := (countP_set_running hi (task j)).2
      unfold running
      dsimp only
      omega
    · rw [List.mem_cons]
      by_cases hk : i = k
      · subst hk
        exact iff_of_true (.inl rfl) ⟨_, getElem?_set_of_some hi, rfl⟩
      · rw [List.getElem?_set_ne hk, or_iff_right (Ne.symm hk)]
        exact hs.begun k
  | @act i j effect next hi =>
    refine ⟨(map_job_set hi).trans hs.jobs, ?_, hs.once, begun_set hi rfl rfl hs.begun⟩
    have hcount : (s.slots.set i ⟨j, .running (next s.disk)⟩).countP (·.isRunning) + 1 =
        s.slots.countP (·.isRunning) + 1 := countP_set_add (·.isRunning) hi
    unfold running
    dsimp only
    omega
  | @finish i j result hi =>
    refine ⟨(map_job_set hi).trans hs.jobs, ?_, hs.once, begun_set hi rfl rfl hs.begun⟩
    have hcount := (countP_set_finished hi result).2
    unfold running
    dsimp only
    omega

theorem Sound.of_reaches (hs : s.Sound limit jobs) (h : Reaches task s s') :
    s'.Sound limit jobs := by
  induction h with
  | refl => exact hs
  | tail _ hstep ih => exact ih.step hstep

end State

/-! ## Going on -/

/-- A batch is not over exactly if one of its jobs is not finished. -/
theorem outcomesFrom?_eq_none : ∀ {index : Nat} {slots : List Slot},
    outcomesFrom? index slots = none ↔
      ∃ (i : Nat) (slot : Slot), slots[i]? = some slot ∧ ∀ index, slot.outcome? index = none
  | _, [] => by
    refine iff_of_false (Option.some_ne_none _) ?_
    rintro ⟨i, slot, hi, -⟩
    cases hi
  | index, ⟨j, .waiting⟩ :: rest => iff_of_true rfl ⟨0, _, rfl, fun _ => rfl⟩
  | index, ⟨j, .running t⟩ :: rest => iff_of_true rfl ⟨0, _, rfl, fun _ => rfl⟩
  | index, ⟨j, .finished result⟩ :: rest => by
    have hrest : outcomesFrom? index (⟨j, .finished result⟩ :: rest) = none ↔
        outcomesFrom? (index + 1) rest = none := by
      rw [outcomesFrom?]
      cases outcomesFrom? (index + 1) rest with
      | none => exact iff_of_true rfl rfl
      | some outcomes => exact iff_of_false nofun nofun
    rw [hrest, outcomesFrom?_eq_none]
    constructor
    · rintro ⟨i, slot, hi, hslot⟩
      exact ⟨i + 1, slot, hi, hslot⟩
    · rintro ⟨_ | i, slot, hi, hslot⟩
      · cases hi
        cases hslot 0
      · exact ⟨i, slot, hi, hslot⟩

namespace State

/-- If a batch is not over, then a job is running, or one waits and a permit is
free. -/
theorem Sound.exists_running_or_waiting (hs : s.Sound limit jobs) (hlimit : 0 < limit)
    (h : s.outcomes? = none) :
    (∃ (i : Nat) (j : Job) (rest : FileTask (Except JobFault Report)),
        s.slots[i]? = some ⟨j, .running rest⟩) ∨
      ∃ (i : Nat) (j : Job) (free : Nat),
        s.free = free + 1 ∧ s.slots[i]? = some ⟨j, .waiting⟩ := by
  obtain ⟨i, ⟨j, stage⟩, hi, hslot⟩ := outcomesFrom?_eq_none.mp h
  cases stage with
  | finished result => cases hslot 0
  | running rest => exact .inl ⟨i, j, rest, hi⟩
  | waiting =>
    rcases hfree : s.free with _ | free
    · -- All permits are held, and there is one at least.
      have hpermits := hs.permits
      have hrunning : 0 < s.running := by omega
      obtain ⟨⟨k, stage⟩, hmem, hslot⟩ := List.countP_pos_iff.mp hrunning
      obtain ⟨n, hn⟩ := List.getElem?_of_mem hmem
      cases stage with
      | waiting | finished => cases hslot
      | running rest => exact .inl ⟨n, k, rest, hn⟩
    · exact .inr ⟨i, j, free, rfl, hi⟩

/-- A batch can go on exactly if it is not over. -/
theorem Sound.exists_step_iff (hs : s.Sound limit jobs) (hlimit : 0 < limit) :
    (∃ s', Step task s s') ↔ s.outcomes? = none := by
  refine ⟨fun ⟨s', h⟩ => ?_, fun h => ?_⟩
  · refine outcomesFrom?_eq_none.mpr ?_
    cases h with
    | start _ hi => exact ⟨_, _, hi, fun _ => rfl⟩
    | act hi => exact ⟨_, _, hi, fun _ => rfl⟩
    | finish hi => exact ⟨_, _, hi, fun _ => rfl⟩
  · obtain ⟨i, j, rest, hi⟩ | ⟨i, j, free, hfree, hi⟩ := hs.exists_running_or_waiting hlimit h
    · cases rest with
      | done result => exact ⟨_, .finish hi⟩
      | act effect next => exact ⟨_, .act hi⟩
    · exact ⟨_, .start hfree hi⟩

/-- A job that is running can go on to its end while the others do nothing. -/
theorem reaches_finished {i : Nat} {j : Job} {rest : FileTask (Except JobFault Report)}
    (h : s.slots[i]? = some ⟨j, .running rest⟩) :
    Reaches task s ⟨s.free + 1, s.slots.set i ⟨j, .finished (rest.run s.disk).1⟩,
      (rest.run s.disk).2, s.started⟩ := by
  induction rest generalizing s with
  | done result => exact .single (.finish h)
  | act effect next ih =>
    have hrest := ih s.disk (s := ⟨s.free, s.slots.set i ⟨j, .running (next s.disk)⟩,
      effect s.disk, s.started⟩) (getElem?_set_of_some h)
    rw [List.set_set] at hrest
    exact .head (.act h) hrest

/-- The number of times that a job is still to start or to end. -/
def remaining (s : State) : Nat :=
  2 * s.waiting + s.running

/-- A batch can be brought to its end, however far it has come. -/
theorem Sound.exists_over (task : Job → FileTask (Except JobFault Report))
    (hs : s.Sound limit jobs) (hlimit : 0 < limit) :
    ∃ s', Reaches task s s' ∧ s'.outcomes?.isSome := by
  -- Of the two ways to go on, one ends a job and the other starts one.
  induction hn : s.remaining using Nat.strongRecOn generalizing s with
  | ind n ih =>
    cases ho : s.outcomes? with
    | some outcomes => exact ⟨s, .refl, by rw [ho]; rfl⟩
    | none =>
      obtain ⟨i, j, rest, hi⟩ | ⟨i, j, free, hfree, hi⟩ := hs.exists_running_or_waiting hlimit ho
      · have hreaches : Reaches task s _ := reaches_finished hi
        obtain ⟨hwaiting, hrunning⟩ := countP_set_finished hi (rest.run s.disk).1
        have hless : remaining ⟨s.free + 1, s.slots.set i ⟨j, .finished (rest.run s.disk).1⟩,
            (rest.run s.disk).2, s.started⟩ < n := by
          rw [← hn]
          unfold remaining waiting running
          dsimp only
          omega
        obtain ⟨s', hs', hover⟩ := ih _ hless (hs.of_reaches hreaches) rfl
        exact ⟨s', hreaches.trans hs', hover⟩
      · have hstep : Step task s _ := .start hfree hi
        obtain ⟨hwaiting, hrunning⟩ := countP_set_running hi (task j)
        have hless : remaining ⟨free, s.slots.set i ⟨j, .running (task j)⟩, s.disk,
            i :: s.started⟩ < n := by
          rw [← hn]
          unfold remaining waiting running
          dsimp only
          omega
        obtain ⟨s', hs', hover⟩ := ih _ hless (hs.step hstep) rfl
        exact ⟨s', .head hstep hs', hover⟩

end State

/-! ## Outcomes -/

/-- Whether a job comes to its result on a disk, as far as it has come. -/
def Slot.Follows (disk : Disk) (alone : Job → Except JobFault Report) : Slot → Prop
  | ⟨_, .waiting⟩ => True
  | ⟨j, .running rest⟩ => rest.ReadsTo disk (alone j)
  | ⟨j, .finished result⟩ => result = alone j

section

variable {disk : Disk} {alone : Job → Except JobFault Report}

/-- Whether no job has disturbed another one: the disk is what it was, and each job
comes to its result on it. -/
structure State.Undisturbed (disk : Disk) (alone : Job → Except JobFault Report) (s : State) :
    Prop where
  disk_eq : s.disk = disk
  slots : ∀ slot ∈ s.slots, slot.Follows disk alone

theorem follows_set {slots : List Slot} {i : Nat} {new : Slot}
    (h : ∀ slot ∈ slots, slot.Follows disk alone) (hnew : new.Follows disk alone) :
    ∀ slot ∈ slots.set i new, slot.Follows disk alone := by
  intro slot hslot
  obtain hslot | rfl := List.mem_or_eq_of_mem_set hslot
  · exact h slot hslot
  · exact hnew

theorem State.Undisturbed.step (htask : ∀ j, (task j).ReadsTo disk (alone j))
    (hs : s.Undisturbed disk alone) (h : Step task s s') : s'.Undisturbed disk alone := by
  obtain ⟨rfl, hslots⟩ := hs
  cases h with
  | @start i free j _ hi => exact ⟨rfl, follows_set hslots (htask j)⟩
  | act hi =>
    obtain ⟨heffect, hnext⟩ := hslots _ (List.mem_of_getElem? hi)
    exact ⟨heffect, follows_set hslots hnext⟩
  | finish hi =>
    have hresult := hslots _ (List.mem_of_getElem? hi)
    exact ⟨rfl, follows_set hslots hresult⟩

/-- Jobs that only read disturb one another in no schedule. -/
theorem State.undisturbed_of_reaches (htask : ∀ j, (task j).ReadsTo disk (alone j))
    {maxParallel : Nat} (h : Reaches task (begin maxParallel jobs disk) s) :
    s.Undisturbed disk alone := by
  induction h with
  | refl =>
    refine ⟨rfl, fun slot hslot => ?_⟩
    obtain ⟨j, -, rfl⟩ := List.mem_map.mp hslot
    trivial
  | tail _ hstep ih => exact ih.step htask hstep

/-- The outcomes of such jobs are those of runs one after the other. -/
theorem outcomesFrom?_eq_some : ∀ {index : Nat} {slots : List Slot} {outcomes : List Outcome},
    (∀ slot ∈ slots, slot.Follows disk alone) → outcomesFrom? index slots = some outcomes →
      outcomes = Id.run (runFrom (m := Id) alone index (slots.map (·.job)))
  | _, [], _, _, h => by
    cases h
    rfl
  | index, ⟨j, stage⟩ :: rest, outcomes, hslots, h => by
    obtain ⟨hfirst, hrest⟩ := List.forall_mem_cons.mp hslots
    cases stage with
    | waiting | running => cases h
    | finished result =>
      cases hr : outcomesFrom? (index + 1) rest with
      | none =>
        rw [outcomesFrom?, hr] at h
        cases h
      | some others =>
        rw [outcomesFrom?, hr] at h
        cases h
        have hothers := outcomesFrom?_eq_some hrest hr
        rw [hothers, show result = alone j from hfirst]
        rfl

end

theorem length_runFrom (alone : Job → Except JobFault Report) :
    ∀ (index : Nat) (jobs : List Job),
      (Id.run (runFrom (m := Id) alone index jobs)).length = jobs.length
  | _, [] => rfl
  | index, _ :: rest => congrArg (· + 1) (length_runFrom alone (index + 1) rest)

/-- The outcomes of runs one after the other, by their places. -/
theorem getElem?_runFrom (alone : Job → Except JobFault Report) :
    ∀ (index : Nat) (jobs : List Job) (i : Nat),
      (Id.run (runFrom (m := Id) alone index jobs))[i]? =
        jobs[i]?.map fun j => .ofResult (index + i) j (alone j)
  | _, [], _ => rfl
  | _, _ :: _, 0 => rfl
  | index, _ :: rest, i + 1 => by
    have hrest := getElem?_runFrom alone (index + 1) rest i
    rw [Nat.add_right_comm] at hrest
    exact hrest

/-- In every schedule of a batch, whatever its jobs do, there are at most as many of
them running as there are permits, none is started twice, and the batch goes on
until it is over. When a dry run is over, its outcomes stand in the order of the
jobs, and each is that of its job run by itself, whatever becomes of the others. -/
theorem schedule_independent (jobs : List Job) (maxParallel : Nat) (disk : Disk) :
    (∀ task s, Reaches task (begin maxParallel jobs disk) s →
      s.running ≤ max 1 maxParallel ∧ s.started.Nodup ∧
        ((∃ s', Step task s s') ↔ s.outcomes? = none) ∧
        ∃ s', Reaches task s s' ∧ s'.outcomes?.isSome) ∧
      ∀ s outcomes, Reaches (·.rehearse FileTask.system.reader) (begin maxParallel jobs disk) s →
        s.outcomes? = some outcomes →
          outcomes.length = jobs.length ∧
          (∀ (i : Nat) (j : Job), jobs[i]? = some j → outcomes[i]? =
            some ⟨i, j.document,
              (Id.run (j.rehearse disk.readText)).mapError JobFault.message⟩) ∧
          outcomes = Id.run (rehearse disk.readText jobs) := by
  have hlimit : 0 < max 1 maxParallel := by omega
  refine ⟨fun task s h => ?_, fun s outcomes h ho => ?_⟩
  · have hs := (State.sound_begin maxParallel jobs disk).of_reaches h
    have hpermits := hs.permits
    exact ⟨by omega, hs.once, hs.exists_step_iff hlimit, hs.exists_over task hlimit⟩
  · have hs := (State.sound_begin maxParallel jobs disk).of_reaches h
    have hundisturbed := State.undisturbed_of_reaches (fun j => Job.readsTo_rehearse disk j) h
    have houtcomes : outcomes = Id.run (rehearse disk.readText jobs) := by
      rw [outcomesFrom?_eq_some hundisturbed.slots ho, hs.jobs]
      rfl
    have hentry (i : Nat) : outcomes[i]? = jobs[i]?.map fun j =>
        .ofResult (0 + i) j (Id.run (j.rehearse disk.readText)) := by
      rw [houtcomes]
      exact getElem?_runFrom (fun j => Id.run (j.rehearse disk.readText)) 0 jobs i
    refine ⟨?_, fun i j hj => ?_, houtcomes⟩
    · rw [houtcomes]
      exact length_runFrom (fun j => Id.run (j.rehearse disk.readText)) 0 jobs
    · rw [hentry, hj, Nat.zero_add]
      rfl

/-- A disk that holds a page. -/
def noteDisk : Disk :=
  ⟨[(["note.html"], .file "<p>a</p>")], []⟩

/-- A job without a flow, and one whose flow saves the page. -/
def mixedJobs : List Job :=
  [⟨none, "lost.html", none, none⟩,
    ⟨none, "note.html", none, some (.list [.mapping [(.text "actionName", .text "saveToFile"),
      (.text "actionParams", .mapping [(.text "to", .text "note"),
        (.text "fileType", .text "json")])]])⟩]

/-- With one permit, the second job is started and ends before the first one
starts, which fails. The outcomes are in the order of the jobs. -/
theorem schedule_independent_mixed :
    ∃ s outcomes, Reaches (·.rehearse FileTask.system.reader) (begin 0 mixedJobs noteDisk) s ∧
      s.started = [0, 1] ∧ s.running ≤ 1 ∧ s.outcomes? = some outcomes ∧
      outcomes.map (·.index) = [0, 1] ∧
      outcomes.map (·.result.map (·.written)) =
        [.error "Job for lost.html has neither scrap_flow nor inline_scrap_flow",
          .ok ["note.json"]] := by
  let task (j : Job) : FileTask (Except JobFault Report) := j.rehearse FileTask.system.reader
  have hsecond : Step task (begin 0 mixedJobs noteDisk) _ := .start (i := 1) rfl rfl
  have hended := (Relation.ReflTransGen.single hsecond).trans (State.reaches_finished (i := 1) rfl)
  have hfirst := hended.tail (.start (i := 0) rfl rfl)
  have hreaches := hfirst.trans (State.reaches_finished (i := 0) rfl)
  obtain ⟨hall, hdry⟩ := schedule_independent mixedJobs 0 noteDisk
  have hover := hdry _ _ hreaches rfl
  refine ⟨_, _, hreaches, rfl, (hall task _ hreaches).1, rfl, ?_, ?_⟩ <;> rw [hover.2.2]
  · rfl
  · decide +kernel

end Batch

end Gleaner
