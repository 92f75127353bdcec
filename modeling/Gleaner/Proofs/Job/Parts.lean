import Mathlib.Control.Traversable.Basic
import Mathlib.Logic.Basic
import Mathlib.Tactic.Choose
import Gleaner.Job.Run

/-!
# The parts of jobs

A job loads its flow, then its document, and runs the flow. What is asked of the faults of a job
is asked of the faults of these parts: of those of its flow when it is loaded, and of the others by
`Job.Accounts`.

Jobs read and write files in any monad. `Always p x` says that whatever the computation `x` gives
has the property `p`.

* `Job.Ends`: the outcome of a job or of a part;
* `Job.Accounts`: the faults of a document, of a run and of a write have a property;
* `Job.Accounts.always_rehearse`, `Job.Accounts.always_carryOut`, `Job.Accounts.ends_run`: dry and
  real runs.
-/

namespace Gleaner

/-! ## Results of computations in a monad -/

/-- Whether all that a computation gives has a property: it is a computation of
values that come with the property. -/
def Always {m : Type → Type} [Functor m] {α : Type} (p : α → Prop) (x : m α) : Prop :=
  ∃ y : m {a // p a}, Subtype.val <$> y = x

namespace Always

variable {m : Type → Type} [Monad m] [LawfulMonad m] {α β : Type} {p : α → Prop} {q : β → Prop}

theorem of_forall (h : ∀ a, p a) (x : m α) : Always p x :=
  ⟨(fun a => ⟨a, h a⟩) <$> x, by simp⟩

theorem pure {a : α} (h : p a) : Always p (pure a : m α) :=
  ⟨Pure.pure ⟨a, h⟩, map_pure ..⟩

theorem bind {x : m α} {k : α → m β} (hx : Always p x) (hk : ∀ a, p a → Always q (k a)) :
    Always q (x >>= k) := by
  obtain ⟨y, rfl⟩ := hx
  choose z hz using fun a : {a // p a} => hk a a.2
  exact ⟨y >>= z, by simp [hz]⟩

theorem run_id {x : Id α} (h : Always p x) : p (Id.run x) := by
  obtain ⟨y, rfl⟩ := h
  exact (Id.run y).2

end Always

namespace Job

/-! ## Outcomes -/

/-- Whether an outcome is a value with a property, or a fault with a property. -/
def Ends {α : Type} (Q : α → Prop) (E : JobFault → Prop) : Except JobFault α → Prop
  | .ok a => Q a
  | .error f => E f

namespace Ends

variable {α β : Type} {P : α → Prop} {Q : β → Prop} {E : JobFault → Prop}

theorem of_error {r : Except JobFault α} {f : JobFault} (h : Ends P E r) (hr : r = .error f) :
    E f := by
  rwa [hr] at h

theorem map {r : Except JobFault α} {g : α → β} (h : Ends P E r) (hg : ∀ a, P a → Q (g a)) :
    Ends Q E (r.map g) := by
  cases r with
  | ok a => exact hg a h
  | error f => exact h

end Ends

/-- Whether the faults of a job have a property, those of loading its flow apart, if its flow has
one. -/
structure Accounts (j : Job) (P : Flow → Prop) (E : JobFault → Prop) : Prop where
  document : ∀ f, E (.document j.document f)
  run : ∀ {σ : Type} (flow : Flow) (document : Document) (sink : Sink σ) (state : σ) (f : Fault),
    P flow → ((flow.run ⟨document, sink⟩).start ⟨j.store, state⟩).1 = .error f →
      E (.run j.document f)
  write : ∀ path cause, E (.run j.document (.writeFailed path cause))

/-! ## Parts -/

section

variable {m : Type → Type} [Monad m] [LawfulMonad m]

theorem always_flowLoad (read : FileReader m) (path : String) :
    Always (fun r => (∃ source, r = Flow.ofSource source) ∨
      ∃ cause, r = .error (.badFlow ("cannot read flow file " ++ path) (some cause)))
      (Flow.load read path) := by
  refine (Always.of_forall (fun _ => trivial) (read path)).bind
    fun (r : Except String String) _ => ?_
  cases r with
  | ok source => exact .pure (.inl ⟨source, rfl⟩)
  | error cause => exact .pure (.inr ⟨cause, rfl⟩)

namespace Accounts

variable {P : Flow → Prop} {E : JobFault → Prop} {j : Job} {read : FileReader m}

theorem always_load (hj : j.Accounts P E) (h : Always (Ends P E) (j.loadFlow read)) :
    Always (Ends (fun r => P r.1) E) (j.load read) := by
  refine h.bind fun r hr => ?_
  cases r with
  | error f => exact .pure hr
  | ok flow =>
    refine (Always.of_forall (fun _ => trivial) (Document.load read j.document)).bind
      fun (r : Except DocumentFault Document) _ => ?_
    cases r with
    | error f => exact .pure (hj.document f)
    | ok document => exact .pure hr

theorem ends_execute {σ : Type} (hj : j.Accounts P E) {flow : Flow} (h : P flow)
    (document : Document) (sink : Sink σ) (state : σ) :
    Ends (fun _ => True) E (j.execute flow document sink state).1 := by
  have hrun := hj.run flow document sink state
  unfold execute
  rcases hr : (flow.run ⟨document, sink⟩).start ⟨j.store, state⟩ with ⟨f | v, machine⟩
  · exact hrun f h (congrArg Prod.fst hr)
  · trivial

theorem always_rehearse (hj : j.Accounts P E) (h : Always (Ends P E) (j.loadFlow read)) :
    Always (Ends (fun _ => True) E) (j.rehearse read) := by
  refine (hj.always_load h).bind fun r hr => ?_
  cases r with
  | error f => exact .pure hr
  | ok loaded => exact .pure ((hj.ends_execute hr loaded.2 Sink.listing []).map fun _ _ => trivial)

theorem always_carryOut {fs : FileSystem m} (dir stamp : String) (hj : j.Accounts P E)
    (h : Always (Ends P E) (j.loadFlow fs.reader)) :
    Always (Ends (fun _ => True) E) (j.carryOut fs dir stamp) := by
  refine (hj.always_load h).bind fun r hr => ?_
  cases r with
  | error f => exact .pure hr
  | ok loaded =>
    refine (Always.of_forall (fun _ => trivial) _).bind
      fun (written : Except WriteFault (List String)) _ => ?_
    cases written with
    | error f => exact .pure (hj.write f.path f.cause)
    | ok written =>
      exact .pure ((hj.ends_execute hr loaded.2 Sink.listing []).map fun _ _ => trivial)

theorem ends_run (dir stamp : String) {disk : Disk} (hj : j.Accounts P E)
    (h : Always (Ends P E) (j.loadFlow (m := Id) disk.readText)) :
    Ends (fun _ => True) E (j.run dir stamp disk).1 := by
  have hload := (hj.always_load h).run_id
  unfold Job.run
  rcases hl : Id.run (j.load disk.readText) with f | ⟨flow, document⟩
  · rw [hl] at hload
    exact hload
  · rw [hl] at hload
    exact (hj.ends_execute hload document _ _).map fun _ _ => trivial

end Accounts

end

end Job

end Gleaner
