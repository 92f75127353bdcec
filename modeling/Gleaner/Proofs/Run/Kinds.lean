import Gleaner.Markup.Event
import Gleaner.Proofs.Flow.Program

/-!
# Kinds of variables

The value of a list variable is a list and that of a mapping is a mapping, in
all variables that come about by operations, and so throughout the runs of
flows: a run changes its variables by operations only.

* `Program.stores`: the variables that a run goes through;
* `Program.stores_invariant`: what operations keep holds of all of them;
* `Flow.kinds_agree`: the statement, with what follows for the operations.
-/

namespace Gleaner

variable {σ α : Type}

namespace Program

/-- The variables that the run of a program goes through from a machine on: those
that it starts with, and those after each request. -/
def stores (e : Host σ) (p : Program α) (m : Machine σ) : List Store :=
  m.store :: (p.events e m).map fun event => (event.outcome e).2.store

/-- The variables at the end of a run are among those that it goes through. -/
theorem store_run_mem_stores (e : Host σ) (p : Program α) (m : Machine σ) :
    ((p.run e).start m).2.store ∈ p.stores e m := by
  rcases (p.trace_run e m).eq_or_exists_outcome with he | ⟨event, hevent, he⟩
  · rw [he]
    exact List.mem_cons_self
  · rw [he]
    exact List.mem_cons_of_mem _ (List.mem_map_of_mem hevent)

/-- A run changes its variables by operations only: what all operations keep holds
throughout. -/
theorem stores_invariant {I : Store → Prop} {e : Host σ}
    (hI : ∀ s op, I s → I (s.after e.document op)) {p : Program α} {m : Machine σ}
    (hm : I m.store) : ∀ s ∈ p.stores e m, I s := by
  have houtcome (event : Event σ) (h : I event.before.store) : I (event.outcome e).2.store := by
    obtain ⟨request, before⟩ := event
    rw [Event.outcome]
    cases request with
    | perform op =>
      rw [Request.machine_answer_perform]
      exact hI before.store op h
    | write saved =>
      rw [Request.machine_answer_write]
      exact h
  obtain ⟨hevents, -⟩ := (p.trace_run e m).invariant (I := fun m => I m.store)
    (fun event _ => houtcome event) hm
  intro s hs
  rcases List.mem_cons.mp hs with rfl | hs
  · exact hm
  · obtain ⟨event, hevent, rfl⟩ := List.mem_map.mp hs
    exact (hevents event hevent).2

theorem reachable_stores {e : Host σ} {p : Program α} {m : Machine σ}
    (h : m.store.Reachable) : ∀ s ∈ p.stores e m, s.Reachable :=
  stores_invariant (fun _ op hs => hs.after e.document op) h

end Program

/-- The variables that the run of a flow goes through from a machine on. -/
def Flow.stores (e : Setting σ) (f : Flow) (m : Machine σ) : List Store :=
  (f.program e.document).stores e.host m

theorem Flow.store_run_mem_stores (e : Setting σ) (f : Flow) (m : Machine σ) :
    ((f.run e).start m).2.store ∈ f.stores e m := by
  rw [← Flow.run_program]
  exact Program.store_run_mem_stores e.host (f.program e.document) m

/-- In variables that come about by operations, and in all that a run goes
through from such variables to its end, lists and mappings have values of their
kinds, and the operations on them do what they say. -/
theorem Flow.kinds_agree :
    (∀ s : Store, s.Reachable → s.IsSound ∧ s.IsFaithful) ∧
      ∀ {σ : Type} (e : Setting σ) (f : Flow) (m : Machine σ), m.store.Reachable →
        ((f.run e).start m).2.store ∈ f.stores e m ∧
          ∀ s ∈ f.stores e m, s.IsSound ∧ s.IsFaithful := by
  have hsound (s : Store) (h : s.Reachable) : s.IsSound ∧ s.IsFaithful :=
    ⟨h.isSound, h.isSound.isFaithful⟩
  refine ⟨hsound, fun e f m hm => ⟨f.store_run_mem_stores e m, fun s hs => hsound s ?_⟩⟩
  exact Program.reachable_stores hm s hs

/-- Steps that collect a text in a list, declare the list anew as a mapping, and
then collect another text. -/
def turningFlow : Flow :=
  .step (.declare "seen" .list none) .atomic .nil <|
    .step (.add ⟨"seen", .list, none, some (.literal "a")⟩) .atomic .nil <|
      .step (.declare "seen" .mapping none) .atomic .nil <|
        .step (.add ⟨"seen", .list, none, some (.literal "b")⟩) .atomic .nil .nil

/-- The variables after the first text was collected. -/
def collectedStore : Store :=
  ⟨[("seen", ⟨.list, .list [.text "a"]⟩)]⟩

/-- The run goes through the variables where the list holds the first text, and
fails in the end, as the mapping takes no elements. At both points the values
are of their kinds. -/
theorem Flow.kinds_agree_turning :
    Store.empty.Reachable ∧
      ((turningFlow.run ⟨.ofEvents [], .listing⟩).start ⟨.empty, []⟩).1 =
        .error (.typeMismatch "variable 'seen'" "list" "dict") ∧
      ((turningFlow.run ⟨.ofEvents [], .listing⟩).start ⟨.empty, []⟩).2.store =
        ⟨[("seen", ⟨.mapping, .mapping []⟩)]⟩ ∧
      ((turningFlow.run ⟨.ofEvents [], .listing⟩).start ⟨.empty, []⟩).2.store.IsSound ∧
      collectedStore ∈ turningFlow.stores ⟨.ofEvents [], .listing⟩ ⟨.empty, []⟩ ∧
      collectedStore.IsSound ∧ collectedStore.IsFaithful := by
  have hempty : Store.empty.Reachable := .empty
  have hmem : collectedStore ∈ turningFlow.stores ⟨.ofEvents [], .listing⟩ ⟨.empty, []⟩ := by
    decide +kernel
  obtain ⟨hend, hall⟩ :=
    Flow.kinds_agree.2 ⟨.ofEvents [], .listing⟩ turningFlow ⟨.empty, []⟩ hempty
  exact ⟨hempty, by decide +kernel, by decide +kernel, (hall _ hend).1, hmem, hall _ hmem⟩

end Gleaner
