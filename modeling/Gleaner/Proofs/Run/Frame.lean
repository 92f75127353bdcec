import Gleaner.Markup.Event
import Gleaner.Proofs.Flow.Variables

/-!
# What a run leaves alone

A run changes no variable but those that its flow may change: the targets of its
actions, and the lists that `$name.pop` takes elements from. All others keep
their kinds and values, however often they are read, and whether the run succeeds
or fails. A run of a flow that saves nothing does not touch its sink.

* `Program.get?_run`: a program keeps what it does not ask to change;
* `Flow.sink_runAllOn`: the sink after a run has got the writes of the run;
* `Flow.frame`: the statement for flows.
-/

namespace Gleaner

variable {σ α : Type}

namespace Program

variable {p : Program α}

/-- A run keeps a variable that its program asks for no change of. -/
theorem get?_run {x : String}
    (h : p.Asks fun request => ∀ op, request = .perform op → op.target? ≠ some x) (e : Host σ)
    (m : Machine σ) : ((p.run e).start m).2.store.get? x = m.store.get? x := by
  have hkeeps : ∀ event ∈ p.events e m, event.before.store.get? x = m.store.get? x →
      (event.outcome e).2.store.get? x = m.store.get? x := by
    intro event hevent hbefore
    have htarget := h.of_mem_events hevent
    obtain ⟨request, before⟩ := event
    rw [← hbefore, Event.outcome]
    cases request with
    | perform op =>
      rw [Request.machine_answer_perform]
      exact Store.get?_after_of_ne e.document before.store (htarget op rfl)
    | write saved => rw [Request.machine_answer_write]
  exact ((p.trace_run e m).invariant (I := fun n => n.store.get? x = m.store.get? x) hkeeps rfl).2

/-- A run makes no writes if its program asks for none. -/
theorem writes_eq_nil (h : p.Asks fun request => ∀ saved, request ≠ .write saved) (e : Host σ)
    (m : Machine σ) : p.writes e m = [] := by
  refine List.eq_nil_iff_forall_not_mem.mpr fun w hw => ?_
  exact h.of_mem_events (mem_events_of_mem_writes hw) w.saved rfl

end Program

namespace Flow

theorem get?_runAllOn {f : Flow} {x : String} (hx : ¬f.MayChange x) (e : Host σ)
    (input last : Value) (m : Machine σ) :
    ((f.runAllOn e input last).start m).2.store.get? x = m.store.get? x :=
  Program.get?_run (asks_name_ne Action.MayAsk.mayChange hx) e m

/-- The sink after a run is the one before, fed with the writes of the run. -/
theorem sink_runAllOn (e : Host σ) (input last : Value) (f : Flow) (m : Machine σ) :
    ((f.runAllOn e input last).start m).2.sink =
      ((f.writesOn e input last m).map (·.saved)).foldl e.feed m.sink :=
  ((f.programOn e.document input last).trace_run e m).sink_eq

theorem writesOn_eq_nil {f : Flow} (hf : ∀ s, .save s ∉ f.actions) (e : Host σ)
    (input last : Value) (m : Machine σ) : f.writesOn e input last m = [] := by
  refine Program.writes_eq_nil (asks_programOn fun a ha request hrequest saved he => ?_) e m
  subst he
  cases hrequest
  exact hf _ ha

/-- A run of a flow on any input, whether it succeeds or fails, keeps all variables
but those that the flow may change, and calls its sink only if an action of the
flow saves something. The sinks of settings are among those that the statement is
about. -/
theorem frame (f : Flow) (input last : Value) :
    (∀ {σ : Type} (e : Setting σ), f.runAllOn e.host input last = f.runAll e input last) ∧
      ∀ {σ : Type} (e : Host σ) (m : Machine σ),
        (∀ x, ¬f.MayChange x →
          ((f.runAllOn e input last).start m).2.store.get? x = m.store.get? x) ∧
        ((∀ s, .save s ∉ f.actions) →
          f.writesOn e input last m = [] ∧
            ((f.runAllOn e input last).start m).2.sink = m.sink) := by
  refine ⟨fun e => runAllOn_host e input last f, fun e m => ⟨fun x hx => ?_, fun hf => ?_⟩⟩
  · exact get?_runAllOn hx e input last m
  · have hwrites : f.writesOn e input last m = [] := writesOn_eq_nil hf e input last m
    refine ⟨hwrites, ?_⟩
    rw [sink_runAllOn, hwrites]
    rfl

/-- Steps that read a field of a variable, move an element from one list to another
and then take an element out of the first list, which may have none left. -/
def movingFlow : Flow :=
  .step (.read (.path "page" ["title"])) .atomic
    (.step (.add ⟨"seen", .list, none, some (.pop "queue")⟩) .atomic .nil .nil) <|
  .step (.read (.var "page")) .atomic .nil <|
  .step (.read (.pop "queue")) .atomic .nil .nil

/-- The variables of a run of these steps: the queue has one element. -/
def movingStore : Store :=
  ((Store.empty.declare "page" .mapping (some (.mapping [("title", .text "Home")]))).declare
    "queue" .list (some (.list [.text "a"]))).declare "seen" .list none

/-- The run fails with its queue empty. The page is what it was, though it was
read twice. -/
theorem frame_moving :
    ¬movingFlow.MayChange "page" ∧ (∀ s, .save s ∉ movingFlow.actions) ∧
      ∃ m, (movingFlow.runAll ⟨.ofEvents [], .listing⟩ .null .null).start ⟨movingStore, []⟩ =
          (.error (.exhausted "queue"), m) ∧
        m.store.get? "queue" = some ⟨.list, .list []⟩ ∧
        m.store.get? "seen" = some ⟨.list, .list [.text "a"]⟩ ∧
        m.store.get? "page" = some ⟨.mapping, .mapping [("title", .text "Home")]⟩ ∧
        m.sink = [] := by
  have hpage : ¬movingFlow.MayChange "page" := by decide
  have hsave : ∀ s, .save s ∉ movingFlow.actions := by simp [movingFlow, actions]
  obtain ⟨hhost, hrun⟩ := frame movingFlow .null .null
  obtain ⟨hkeeps, hsink⟩ := hrun (Setting.host ⟨.ofEvents [], .listing⟩) ⟨movingStore, []⟩
  rw [hhost] at hkeeps hsink
  refine ⟨hpage, hsave, _, Prod.ext ?_ rfl, ?_, ?_, (hkeeps "page" hpage).trans ?_,
    (hsink hsave).2⟩
  all_goals decide +kernel

end Flow

end Gleaner
