import Gleaner.CommandLine.Failure
import Gleaner.Proofs.Flow.Loading
import Gleaner.Proofs.Job.Parts

/-!
# Exit statuses of jobs

A job that ends with exit status 2 has a flow that did not load. A flow that
loads is complete, so that its run ends with no fault in the definition of a
flow; these are the faults with exit status 2 (`Fault.exitStatus_eq_two_iff`),
and the other faults of a job have other exit statuses.

* `Job.FlowFault`: the faults of a job whose flow did not load;
* `Job.Blames`: outcomes that have exit status 2 only with such a fault;
* `Job.accounts_blames`: the parts of a job;
* `Job.definition_faults_precede_runs`: runs of flows, and jobs.
-/

namespace Gleaner

/-! ## Codes -/

theorem Code.exitStatus_eq_two_iff {code : Nat} : exitStatus code = 2 ↔ code / 1000 = 2 := by
  unfold exitStatus
  dsimp only
  split <;> omega

theorem Fault.area_eq_two_iff (f : Fault) : f.code / 1000 = 2 ↔ f.isDefinitionFault = true := by
  cases f <;> simp [code, isDefinitionFault, Code.undefinedVariable, Code.exhausted,
    Code.typeMismatch, Code.entryNotFound, Code.markerNotFound, Code.columnOutOfRange,
    Code.notTabular, Code.missingParameter, Code.invalidParameter, Code.emptyQuery,
    Code.unknownAction, Code.writeFailed, Code.flowSyntax]

theorem Fault.exitStatus_eq_two_iff (f : Fault) :
    f.exitStatus = 2 ↔ f.isDefinitionFault = true :=
  Code.exitStatus_eq_two_iff.trans f.area_eq_two_iff

theorem DocumentFault.exitStatus_ne_two (f : DocumentFault) : f.exitStatus ≠ 2 := by
  cases f <;> simp [exitStatus, code, Code.exitStatus_eq_two_iff, Code.documentUnreadable,
    Code.documentMalformed]

/-! ## Jobs -/

namespace Job

open CommandLine

/-- Whether a fault of a job is that its flow did not load. -/
inductive FlowFault (j : Job) : JobFault → Prop where
  | inlineFlow {v : Yaml} {fault : Fault} : j.inlineFlow = some v →
    parseInline v = .error fault → FlowFault j (.inlineFlow fault)
  | unreadable {path cause : String} : j.flowFile = some path →
    FlowFault j (.flowFile path (.badFlow ("cannot read flow file " ++ path) (some cause)))
  | flowFile {path source : String} {fault : Fault} : j.flowFile = some path →
    Flow.ofSource source = .error fault → FlowFault j (.flowFile path fault)

/-- Whether an outcome of a job is a value with a property, or a fault that is to
blame for exit status 2, if it has this status. -/
def Blames {α : Type} (B : JobFault → Prop) (Q : α → Prop) : Except JobFault α → Prop
  | .ok a => Q a
  | .error f => (Failure.job f).exitStatus = 2 → B f

theorem blames_eq {α : Type} (B : JobFault → Prop) (Q : α → Prop) :
    Blames B Q = Ends Q fun f => (Failure.job f).exitStatus = 2 → B f :=
  funext fun r => by cases r <;> rfl

/-- A document that does not load, the run of a complete flow and a write have other exit
statuses. -/
theorem accounts_blames (j : Job) (B : JobFault → Prop) :
    j.Accounts Flow.IsComplete fun f => (Failure.job f).exitStatus = 2 → B f where
  document f h := absurd h f.exitStatus_ne_two
  run flow document sink state f hflow hf h := by
    have hrun := hflow.runOutcome ⟨document, sink⟩ ⟨j.store, state⟩
    rw [hf] at hrun
    cases hrun.symm.trans (f.exitStatus_eq_two_iff.mp h)
  write path cause h := by
    cases (Fault.exitStatus_eq_two_iff _).mp h

/-! ### Loading -/

theorem parseInline_isComplete {v : Yaml} {flow : Flow} (h : parseInline v = .ok flow) :
    flow.IsComplete := by
  unfold parseInline at h
  split at h
  · exact Flow.isComplete_of_ofSource h
  · exact Flow.isComplete_of_ofYaml h

section

variable {m : Type → Type} [Monad m] [LawfulMonad m]

theorem always_loadFlow (j : Job) (read : FileReader m) :
    Always (Blames j.FlowFault Flow.IsComplete) (j.loadFlow read) := by
  unfold loadFlow
  split
  · rename_i v hv
    refine .pure ?_
    cases h : parseInline v with
    | ok flow => exact parseInline_isComplete h
    | error fault => exact fun _ => .inlineFlow hv h
  · rename_i path _ hpath
    refine (always_flowLoad read path).bind fun r hr => .pure ?_
    rcases hr with ⟨source, rfl⟩ | ⟨cause, rfl⟩
    · cases h : Flow.ofSource source with
      | ok flow => exact Flow.isComplete_of_ofSource h
      | error fault => exact fun _ => .flowFile hpath h
    · exact fun _ => .unreadable hpath
  · refine .pure fun h => ?_
    cases h

/-! ### Running -/

variable {B : JobFault → Prop} {j : Job} {read : FileReader m}

theorem always_rehearse (h : Always (Blames B Flow.IsComplete) (j.loadFlow read)) :
    Always (Blames B fun _ => True) (j.rehearse read) := by
  rw [blames_eq] at *
  exact (j.accounts_blames B).always_rehearse h

theorem always_carryOut {fs : FileSystem m} (dir stamp : String)
    (h : Always (Blames B Flow.IsComplete) (j.loadFlow fs.reader)) :
    Always (Blames B fun _ => True) (j.carryOut fs dir stamp) := by
  rw [blames_eq] at *
  exact (j.accounts_blames B).always_carryOut dir stamp h

end

/-- Without effects, the fault to blame is the result of loading the flow. -/
theorem always_loadFlow_id (j : Job) (read : FileReader Id) :
    Always (Blames (fun f => Id.run (j.loadFlow read) = .error f) Flow.IsComplete)
      (j.loadFlow read) := by
  have hflow := (j.always_loadFlow read).run_id
  refine ⟨⟨Id.run (j.loadFlow read), ?_⟩, rfl⟩
  cases h : Id.run (j.loadFlow read) with
  | ok flow =>
    rw [h] at hflow
    exact hflow
  | error f => exact fun _ => rfl

theorem blames_run (j : Job) (dir stamp : String) (disk : Disk) :
    Blames (fun f => Id.run (j.loadFlow disk.readText) = .error f) (fun _ => True)
      (j.run dir stamp disk).1 := by
  have hload := j.always_loadFlow_id disk.readText
  rw [blames_eq] at *
  exact (j.accounts_blames _).ends_run dir stamp hload

/-! ### The statement -/

/-- The run of a flow that loads ends with no fault in the definition of a flow,
hence with no code of this area and not with exit status 2. A job ends with exit
status 2 only if its flow did not load: its fault is the result of loading the
flow from the disk, and a fault of loading with files of any kind. -/
theorem definition_faults_precede_runs :
    (∀ flow : Flow, ((∃ source, Flow.ofSource source = .ok flow) ∨
        ∃ v, Flow.ofYaml v = .ok flow) →
      ∀ {σ : Type} (e : Setting σ) (m : Machine σ) (f : Fault),
        ((flow.run e).start m).1 = .error f →
          f.isDefinitionFault = false ∧ ¬ (2000 ≤ f.code ∧ f.code < 3000) ∧ f.exitStatus ≠ 2) ∧
    (∀ (j : Job) (dir stamp : String) (disk : Disk) (f : JobFault),
      (j.run dir stamp disk).1 = .error f ∨ Id.run (j.rehearse disk.readText) = .error f →
        (Failure.job f).exitStatus = 2 → Id.run (j.loadFlow disk.readText) = .error f) ∧
    ∀ {m : Type → Type} [Monad m] [LawfulMonad m] (fs : FileSystem m) (j : Job)
      (dir stamp : String),
        Always (Blames j.FlowFault fun _ => True) (j.rehearse fs.reader) ∧
          Always (Blames j.FlowFault fun _ => True) (j.carryOut fs dir stamp) := by
  refine ⟨fun flow hflow σ e m f hf => ?_, fun j dir stamp disk f hf hstatus => ?_,
    fun fs j dir stamp => ?_⟩
  · have hcomplete : flow.IsComplete := by
      rcases hflow with ⟨source, h⟩ | ⟨v, h⟩
      · exact Flow.isComplete_of_ofSource h
      · exact Flow.isComplete_of_ofYaml h
    have hrun : f.isDefinitionFault = false := by
      have h := hcomplete.runOutcome e m
      rwa [hf] at h
    have harea : f.code / 1000 ≠ 2 := fun h => by simp [f.area_eq_two_iff.mp h] at hrun
    refine ⟨hrun, fun h => harea ?_, fun h => harea (Code.exitStatus_eq_two_iff.mp h)⟩
    omega
  · rcases hf with hf | hf
    · have h := j.blames_run dir stamp disk
      rw [hf] at h
      exact h hstatus
    · have h := (always_rehearse (j.always_loadFlow_id disk.readText)).run_id
      rw [hf] at h
      exact h hstatus
  · exact ⟨always_rehearse (j.always_loadFlow fs.reader),
      always_carryOut dir stamp (j.always_loadFlow fs.reader)⟩

/-- The steps of a flow that counts a page under a key of the variable `site`. -/
def countingSteps : Yaml :=
  .list [.mapping [(.text "actionName", .text "addToVar"),
    (.text "actionParams", .mapping [(.text "varName", .text "pages"),
      (.text "varType", .text "dict"), (.text "varKey", .text "$site.name")])]]

/-- The flow of these steps. -/
def countingFlow : Flow :=
  .step (.add ⟨"pages", .mapping, some (.path "site" ["name"]), none⟩) .atomic .nil .nil

/-- A job with a flow whose only step is no action. -/
def strayJob : Job :=
  ⟨none, "page.html", none, some (.list [.mapping [(.text "actionName", .text "leap")]])⟩

/-- The flow loads and its run fails, for want of the variable; the flow of the
job does not load. -/
theorem definition_faults_counting :
    (Flow.ofYaml countingSteps = .ok countingFlow ∧
      ((countingFlow.run ⟨.ofEvents [], .listing⟩).start ⟨.empty, []⟩).1 =
        .error (.undefinedVariable "site") ∧
      (Fault.undefinedVariable "site").exitStatus ≠ 2) ∧
    (strayJob.run "out" "now" (.empty [])).1 = .error (.inlineFlow (.unknownAction "leap")) ∧
      (Failure.job (.inlineFlow (.unknownAction "leap"))).exitStatus = 2 ∧
      Id.run (strayJob.loadFlow (Disk.readText (.empty []))) =
        .error (.inlineFlow (.unknownAction "leap")) := by
  have hload : Flow.ofYaml countingSteps = .ok countingFlow := by decide +kernel
  have hrun : ((countingFlow.run ⟨.ofEvents [], .listing⟩).start ⟨.empty, []⟩).1 =
      .error (.undefinedVariable "site") := by decide +kernel
  have hjob : (strayJob.run "out" "now" (.empty [])).1 =
      .error (.inlineFlow (.unknownAction "leap")) := by rfl
  have hstatus : (Failure.job (.inlineFlow (.unknownAction "leap"))).exitStatus = 2 := by rfl
  exact ⟨⟨hload, hrun, (definition_faults_precede_runs.1 countingFlow (.inr ⟨_, hload⟩) _ _ _
    hrun).2.2⟩, hjob, hstatus,
    definition_faults_precede_runs.2.1 strayJob _ _ _ _ (.inl hjob) hstatus⟩

end Job

end Gleaner
