import Gleaner.Proofs.Flow.Checking
import Gleaner.Proofs.Job.Parts
import Gleaner.Proofs.Job.Rehearsal
import Gleaner.Proofs.Run.Declared

/-!
# The variable of the service

A job declares the variable of its service before its flow runs, with or without the name of a
service, and what is declared stays so. A flow may declare it anew, as something else, or empty it,
but no job ends with the fault that the variable is not declared.

* `Job.FindsService`: the faults of a job but that one;
* `Job.accounts_findsService`, `Job.always_loadFlow_findsService`: the parts of a job;
* `Job.service_stays_declared`: operations, actions, flows and jobs.
-/

namespace Gleaner

namespace Job

/-- Whether a fault of a job is another than that the variable of the service is not declared. -/
def FindsService (f : JobFault) : Prop :=
  f.flowFault? ≠ some (.undefinedVariable serviceVariable)

theorem mem_names_store (j : Job) : serviceVariable ∈ j.store.names := by
  rw [Store.mem_names_iff, store, Store.declare, Store.get?_put_self]
  rfl

theorem accounts_findsService (j : Job) : j.Accounts (fun _ => True) FindsService where
  document _ := nofun
  run flow document sink state f _ hf h := by
    cases h
    exact flow.fault_ne_of_declared ⟨document, sink⟩ j.mem_names_store hf
  write _ _ := nofun

/-! ## Loading -/

theorem isDefinitionFault_of_parseInline {v : Yaml} {f : Fault} (h : parseInline v = .error f) :
    f.isDefinitionFault = true := by
  unfold parseInline at h
  split at h
  · exact Flow.isDefinitionFault_of_ofSource h
  · exact Flow.isDefinitionFault_of_ofYaml h

theorem ends_mapError {r : Except Fault Flow} {g : Fault → JobFault}
    (hr : ∀ f, r = .error f → f.isDefinitionFault = true)
    (hg : ∀ f, (g f).flowFault? = some f) :
    Ends (fun _ => True) FindsService (r.mapError g) := by
  cases r with
  | ok flow => trivial
  | error f =>
    intro h
    cases (hg f).symm.trans h
    cases hr _ rfl

/-- A flow that does not load is at fault itself. -/
theorem always_loadFlow_findsService {m : Type → Type} [Monad m] [LawfulMonad m] (j : Job)
    (read : FileReader m) : Always (Ends (fun _ => True) FindsService) (j.loadFlow read) := by
  unfold loadFlow
  split
  · exact .pure (ends_mapError (fun _ => isDefinitionFault_of_parseInline) fun _ => rfl)
  · rename_i path _ _
    refine (always_flowLoad read path).bind fun r hr => .pure (ends_mapError ?_ fun _ => rfl)
    rintro f rfl
    rcases hr with ⟨source, hf⟩ | ⟨cause, hf⟩
    · exact Flow.isDefinitionFault_of_ofSource hf.symm
    · cases hf
      rfl
  · exact .pure nofun

/-! ## The statement -/

/-- Names that are declared stay declared: an operation, an action and the run of a flow, on any
sink and whether they succeed or fail, leave them so, and such a run is not told of them that they
are not declared. Hence no job ends with the fault that the variable of its service is not
declared, whatever its flow does, on a disk and on files of any kind. -/
theorem service_stays_declared :
    (∀ (d : Document) (s : Store) (op : Store.Operation), s.names ⊆ (s.after d op).names) ∧
    (∀ {σ : Type} (e : Setting σ) (a : Action) (input : Value) (m : Machine σ),
      m.store.names ⊆ ((a.apply e input).start m).2.store.names) ∧
    (∀ {σ : Type} (e : Host σ) (f : Flow) (input last : Value) (m : Machine σ),
      m.store.names ⊆ ((f.runAllOn e input last).start m).2.store.names) ∧
    (∀ {σ : Type} (e : Setting σ) (f : Flow) (m : Machine σ),
      m.store.names ⊆ ((f.run e).start m).2.store.names ∧
        ∀ x ∈ m.store.names, ((f.run e).start m).1 ≠ .error (.undefinedVariable x)) ∧
    (∀ (j : Job) (dir stamp : String) (disk : Disk) (f : JobFault),
      (j.run dir stamp disk).1 = .error f ∨ Id.run (j.rehearse disk.readText) = .error f →
        f.flowFault? ≠ some (.undefinedVariable serviceVariable)) ∧
    ∀ {m : Type → Type} [Monad m] [LawfulMonad m] (fs : FileSystem m) (j : Job)
      (dir stamp : String),
        Always (Ends (fun _ => True) FindsService) (j.rehearse fs.reader) ∧
          Always (Ends (fun _ => True) FindsService) (j.carryOut fs dir stamp) := by
  refine ⟨Store.names_subset_after, fun e a input m => a.names_subset_apply e input m,
    fun e f input last m => f.names_subset_runAllOn e input last m,
    fun e f m => ⟨f.names_subset_run e m, fun x hx => f.fault_ne_of_declared e hx⟩,
    fun j dir stamp disk f hf => ?_, fun fs j dir stamp => ?_⟩
  · have hload := j.always_loadFlow_findsService (m := Id) disk.readText
    rcases hf with hf | hf
    · exact (j.accounts_findsService.ends_run dir stamp hload).of_error hf
    · exact (j.accounts_findsService.always_rehearse hload).run_id.of_error hf
  · have hload := j.always_loadFlow_findsService fs.reader
    exact ⟨j.accounts_findsService.always_rehearse hload,
      j.accounts_findsService.always_carryOut dir stamp hload⟩

/-- Steps that declare the variable of the service as a list and take an element out of it. -/
def poppingSteps : Yaml :=
  .list [.mapping [(.text "actionName", .text "createVar"), (.text "actionParams", .mapping
      [(.text "name", .text "ServiceName"), (.text "type", .text "list")])],
    .mapping [(.text "actionName", .text "getVar"), (.text "actionParams", .mapping
      [(.text "varName", .text "$ServiceName.pop")])]]

/-- The flow of these steps. -/
def poppingFlow : Flow :=
  .step (.declare "ServiceName" .list none) .atomic .nil <|
    .step (.read (.pop "ServiceName")) .atomic .nil .nil

/-- A job without a service that runs these steps. -/
def poppingJob : Job :=
  ⟨none, "page.html", none, some poppingSteps⟩

/-- The job fails, but not for want of the variable, which is still there. -/
theorem service_stays_declared_popping :
    (poppingJob.run "out" "now" pageDisk).1 =
        .error (.run "page.html" (.exhausted "ServiceName")) ∧
      JobFault.flowFault? (.run "page.html" (.exhausted "ServiceName")) ≠
        some (.undefinedVariable serviceVariable) ∧
      serviceVariable ∈ poppingJob.store.names ∧
      serviceVariable ∈
        ((poppingFlow.run ⟨.ofEvents [], .listing⟩).start ⟨poppingJob.store, []⟩).2.store.names ∧
      ((poppingFlow.run ⟨.ofEvents [], .listing⟩).start ⟨poppingJob.store, []⟩).1 ≠
        .error (.undefinedVariable serviceVariable) := by
  have hrun : (poppingJob.run "out" "now" pageDisk).1.map (·.written) =
      .error (.run "page.html" (.exhausted "ServiceName")) := by decide +kernel
  have hjob := map_eq_error.mp hrun
  have hnames : serviceVariable ∈ poppingJob.store.names := poppingJob.mem_names_store
  obtain ⟨-, -, -, hflow, hjobs, -⟩ := service_stays_declared
  obtain ⟨hkept, hfault⟩ := hflow ⟨.ofEvents [], .listing⟩ poppingFlow ⟨poppingJob.store, []⟩
  exact ⟨hjob, hjobs _ _ _ _ _ (.inl hjob), hnames, hkept hnames, hfault _ hnames⟩

end Job

end Gleaner
