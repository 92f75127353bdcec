import Gleaner.Proofs.Store.Operation

/-!
# Programs

A run is made of requests to its machine: operations on the variables, and
writes to the sink. A `Program` says which request comes first and how to go on
with each answer, or how to end. It does not mention the machine, so that one
program runs on any sink; a request that fails ends it.

* `Host`: what programs run on, and `Setting.host`, the host that a setting is;
* `Program.run`: the run of a program;
* `Program.events`: the requests of this run in the order in which they are
  made, each with the machine that it finds; `Program.writes`: the writes;
* `Program.Asks`: what a program may ask for, whatever the answers are;
* `Trace`: requests that lead from one machine to another, as those of a run do
  (`Program.trace_run`);
* `Trace.invariant`: what each request keeps, a run keeps;
* `Trace.sink_eq`: the sink of a run gets the writes, in order.
-/

namespace Gleaner

variable {σ α β : Type}

/-- What programs run on: a document, and what becomes of something that is
saved. A write may fail with any fault. -/
structure Host (σ : Type) where
  document : Document
  write : Saved → σ → Except Fault Unit × σ

/-- The state of a host after it was given something to save. -/
def Host.feed (e : Host σ) (state : σ) (saved : Saved) : σ :=
  (e.write saved state).2

/-- What a sink makes of something that is saved, as a run sees it. -/
def Sink.take (sink : Sink σ) (saved : Saved) (state : σ) : Except Fault Unit × σ :=
  match sink.write saved.save saved.content state with
  | (.ok _, state) => (.ok (), state)
  | (.error w, state) => (.error (.writeFailed w.path w.cause), state)

/-- The host that a setting is. -/
def Setting.host (e : Setting σ) : Host σ where
  document := e.document
  write := e.sink.take

/-- What a run asks of its machine. -/
inductive Request where
  | perform (op : Store.Operation)
  | write (saved : Saved)

/-- The answer to a request: a value, which is null for a write. -/
def Request.answer (e : Host σ) : Request → Run σ Value
  | perform op => Run.onStore (op.change e.document)
  | write saved =>
    Run.ofFunction fun m =>
      ((e.write saved m.sink).1.map fun _ => .null, ⟨m.store, e.feed m.sink saved⟩)

/-- A computation that asks for one thing after the other. -/
inductive Program (α : Type) where
  | done (r : Except Fault α)
  | ask (request : Request) (next : Value → Program α)

/-- A request that is made, and the machine that it finds. -/
structure Event (σ : Type) where
  request : Request
  before : Machine σ

/-- What a request comes to, and the machine that it leaves. -/
def Event.outcome (e : Host σ) (event : Event σ) : Except Fault Value × Machine σ :=
  (event.request.answer e).start event.before

/-- A write that is made, and the machine that it finds. -/
structure Write (σ : Type) where
  saved : Saved
  before : Machine σ

/-- What becomes of a write. -/
def Write.outcome (e : Host σ) (w : Write σ) : Except Fault Unit × σ :=
  e.write w.saved w.before.sink

/-- The write that an event is, if it is one. -/
def Event.write? (event : Event σ) : Option (Write σ) :=
  match event.request with
  | .write saved => some ⟨saved, event.before⟩
  | .perform _ => none

namespace Program

/-- One program after the other. -/
def bind : Program α → (α → Program β) → Program β
  | done (.ok a), k => k a
  | done (.error f), _ => done (.error f)
  | ask request next, k => ask request fun v => (next v).bind k

instance : Monad Program where
  pure a := done (.ok a)
  bind := Program.bind

/-- The program of an operation on the variables. -/
def perform (op : Store.Operation) : Program Value :=
  ask (.perform op) pure

/-- The program of a write. -/
def write (saved : Saved) : Program Unit :=
  ask (.write saved) fun _ => pure ()

/-- The run of a program. -/
def run (e : Host σ) : Program α → Run σ α
  | done r => Run.ofExcept r
  | ask request next => do
    let v ← request.answer e
    (next v).run e

/-- The requests that the run of a program makes from a machine on, in order. -/
def events (e : Host σ) : Program α → Machine σ → List (Event σ)
  | done _, _ => []
  | ask request next, m =>
    ⟨request, m⟩ ::
      match (request.answer e).start m with
      | (.ok v, m') => (next v).events e m'
      | (.error _, _) => []

/-- The writes that the run of a program makes from a machine on, in order. -/
def writes (e : Host σ) (p : Program α) (m : Machine σ) : List (Write σ) :=
  (p.events e m).filterMap Event.write?

/-! ## Runs of programs -/

variable {e : Host σ} {request : Request} {next : Value → Program α} {m m' : Machine σ}
  {v : Value} {f : Fault}

theorem run_pure (e : Host σ) (a : α) : (pure a : Program α).run e = pure a := rfl

theorem run_bind (e : Host σ) (p : Program α) (k : α → Program β) :
    (p >>= k).run e = p.run e >>= fun a => (k a).run e := by
  induction p with
  | done r =>
    cases r with
    | ok a => exact (pure_bind a fun a => (k a).run e).symm
    | error f => rfl
  | ask request next ih =>
    have hnext : (fun v => ((next v).bind k).run e) =
        fun v => (next v).run e >>= fun a => (k a).run e := funext ih
    change (request.answer e >>= fun v => ((next v).bind k).run e) = _
    rw [hnext]
    exact (bind_assoc _ _ _).symm

theorem run_perform (e : Host σ) (op : Store.Operation) :
    (perform op).run e = Run.onStore (op.change e.document) :=
  bind_pure _

theorem start_ask_of_ok (h : (request.answer e).start m = (.ok v, m')) :
    ((ask request next).run e).start m = ((next v).run e).start m' :=
  Run.start_bind_of_ok _ h

theorem start_ask_of_error (h : (request.answer e).start m = (.error f, m')) :
    ((ask request next).run e).start m = (.error f, m') :=
  Run.start_bind_of_error _ h

theorem events_ask_of_ok (h : (request.answer e).start m = (.ok v, m')) :
    (ask request next).events e m = ⟨request, m⟩ :: (next v).events e m' := by
  simp only [events, h]

theorem events_ask_of_error (h : (request.answer e).start m = (.error f, m')) :
    (ask request next).events e m = [⟨request, m⟩] := by
  simp only [events, h]

theorem map_done (k : α → β) (r : Except Fault α) : k <$> done r = done (r.map k) := by
  cases r <;> rfl

/-- What comes after a program and asks for nothing makes no requests. -/
theorem events_bind_done (e : Host σ) (p : Program α) (k : α → Except Fault β) (m : Machine σ) :
    (p >>= fun a => done (k a)).events e m = p.events e m := by
  induction p generalizing m with
  | done r => cases r <;> rfl
  | ask request next ih =>
    change (ask request fun v => next v >>= fun a => done (k a)).events e m = _
    rcases h : (request.answer e).start m with ⟨f | v, m'⟩
    · rw [events_ask_of_error h, events_ask_of_error h]
    · rw [events_ask_of_ok h, events_ask_of_ok h, ih]

theorem start_bind_done (e : Host σ) (p : Program α) (k : α → Except Fault β) (m : Machine σ) :
    ((p >>= fun a => done (k a)).run e).start m =
      (((p.run e).start m).1.bind k, ((p.run e).start m).2) := by
  rw [run_bind]
  rcases h : (p.run e).start m with ⟨f | a, m'⟩
  · exact Run.start_bind_of_error _ h
  · exact Run.start_bind_of_ok _ h

end Program

/-! ## Answers -/

theorem Run.start_tryStore_of_ok {g : Store → Except Fault (α × Store)} {m : Machine σ} {a : α}
    {s : Store} (h : g m.store = .ok (a, s)) :
    (tryStore g : Run σ α).start m = (.ok a, ⟨s, m.sink⟩) := by
  have hwhole := Store.Change.whole_of_ok h
  rw [tryStore, start_onStore, hwhole]

theorem Run.start_tryStore_of_error {g : Store → Except Fault (α × Store)} {m : Machine σ}
    {f : Fault} (h : g m.store = .error f) :
    (tryStore g : Run σ α).start m = (.error f, m) := by
  have hwhole := Store.Change.whole_of_error h
  rw [tryStore, start_onStore, hwhole]

namespace Request

variable {e : Host σ} {op : Store.Operation} {saved : Saved} {m : Machine σ}

theorem answer_perform (e : Host σ) (op : Store.Operation) :
    (perform op).answer e = Run.tryStore (·.perform e.document op) :=
  congrArg Run.onStore (Store.change_eq_whole e.document op)

theorem answer_perform_of_ok {v : Value} {s : Store}
    (h : m.store.perform e.document op = .ok (v, s)) :
    ((perform op).answer e).start m = (.ok v, ⟨s, m.sink⟩) := by
  rw [answer_perform]
  exact Run.start_tryStore_of_ok h

theorem answer_perform_of_error {f : Fault} (h : m.store.perform e.document op = .error f) :
    ((perform op).answer e).start m = (.error f, m) := by
  rw [answer_perform]
  exact Run.start_tryStore_of_error h

/-- An operation leaves the store after it, whether it succeeds or not. -/
theorem machine_answer_perform (e : Host σ) (op : Store.Operation) (m : Machine σ) :
    (((perform op).answer e).start m).2 = ⟨m.store.after e.document op, m.sink⟩ :=
  congrArg Prod.snd (Store.start_onStore_change e.document m.store op m.sink)

theorem answer_write_of_ok (h : (e.write saved m.sink).1 = .ok ()) :
    ((write saved).answer e).start m = (.ok .null, ⟨m.store, e.feed m.sink saved⟩) := by
  rw [answer, Run.start_ofFunction, h]
  rfl

theorem answer_write_of_error {f : Fault} (h : (e.write saved m.sink).1 = .error f) :
    ((write saved).answer e).start m = (.error f, ⟨m.store, e.feed m.sink saved⟩) := by
  rw [answer, Run.start_ofFunction, h]
  rfl

/-- A write changes the sink only. -/
theorem machine_answer_write (e : Host σ) (saved : Saved) (m : Machine σ) :
    (((write saved).answer e).start m).2 = ⟨m.store, e.feed m.sink saved⟩ := by
  rw [answer, Run.start_ofFunction]

end Request

namespace Program

variable {e : Host σ} {P : Request → Prop}

/-! ## What programs ask for -/

/-- Whether all that a program may ask for has a property, whatever the answers
are. -/
def Asks (P : Request → Prop) : Program α → Prop
  | done _ => True
  | ask request next => P request ∧ ∀ v, (next v).Asks P

theorem Asks.mono {Q : Request → Prop} (h : ∀ request, P request → Q request) :
    ∀ {p : Program α}, p.Asks P → p.Asks Q
  | done _, _ => trivial
  | ask request _, hp => ⟨h request hp.1, fun v => (hp.2 v).mono h⟩

theorem asks_done (r : Except Fault α) : (done r).Asks P := trivial

theorem asks_perform {op : Store.Operation} (h : P (.perform op)) : (perform op).Asks P :=
  ⟨h, fun _ => trivial⟩

theorem asks_write {saved : Saved} (h : P (.write saved)) : (write saved).Asks P :=
  ⟨h, fun _ => trivial⟩

theorem Asks.bind {p : Program α} {k : α → Program β} (hp : p.Asks P) (hk : ∀ a, (k a).Asks P) :
    (p >>= k).Asks P := by
  induction p with
  | done r =>
    cases r with
    | ok a => exact hk a
    | error f => trivial
  | ask request next ih => exact ⟨hp.1, fun v => ih v (hp.2 v)⟩

/-- A run makes no requests but those that its program may make. -/
theorem Asks.of_mem_events {p : Program α} (hp : p.Asks P) {m : Machine σ} {event : Event σ}
    (h : event ∈ p.events e m) : P event.request := by
  induction p generalizing m with
  | done r => cases h
  | ask request next ih =>
    rcases hanswer : (request.answer e).start m with ⟨f | v, m'⟩
    · rw [events_ask_of_error hanswer] at h
      cases List.mem_singleton.mp h
      exact hp.1
    · rw [events_ask_of_ok hanswer] at h
      rcases List.mem_cons.mp h with rfl | h
      · exact hp.1
      · exact ih v (hp.2 v) h

/-- The writes of a run are among its requests. -/
theorem mem_events_of_mem_writes {p : Program α} {m : Machine σ} {w : Write σ}
    (h : w ∈ p.writes e m) : ⟨.write w.saved, w.before⟩ ∈ p.events e m := by
  obtain ⟨⟨request, before⟩, hevent, hw⟩ := List.mem_filterMap.mp h
  cases request with
  | perform op => cases hw
  | write saved =>
    cases hw
    exact hevent

end Program

/-! ## Traces -/

/-- Requests that are made one after the other, from one machine to another: each
finds the machine that the one before it leaves. -/
inductive Trace (e : Host σ) : Machine σ → List (Event σ) → Machine σ → Prop where
  | nil {m : Machine σ} : Trace e m [] m
  | cons {request : Request} {m m' : Machine σ} {events : List (Event σ)} :
    Trace e (Event.outcome e ⟨request, m⟩).2 events m' → Trace e m (⟨request, m⟩ :: events) m'

/-- The requests of a run lead from the machine that it starts with to the one
that it leaves, whether it succeeds or fails. -/
theorem Program.trace_run (e : Host σ) (p : Program α) (m : Machine σ) :
    Trace e m (p.events e m) ((p.run e).start m).2 := by
  induction p generalizing m with
  | done r => exact .nil
  | ask request next ih =>
    have houtcome : (⟨request, m⟩ : Event σ).outcome e = (request.answer e).start m := rfl
    rcases h : (request.answer e).start m with ⟨f | v, m'⟩ <;> rw [h] at houtcome
    · rw [events_ask_of_error h, start_ask_of_error h]
      refine Trace.cons ?_
      rw [houtcome]
      exact .nil
    · rw [events_ask_of_ok h, start_ask_of_ok h]
      refine Trace.cons ?_
      rw [houtcome]
      exact ih v m'

namespace Trace

variable {e : Host σ} {events : List (Event σ)} {m m' : Machine σ}

/-- A property of machines that each request keeps holds of all machines on the
way, and at the end. -/
theorem invariant (h : Trace e m events m') {I : Machine σ → Prop}
    (hI : ∀ event ∈ events, I event.before → I (event.outcome e).2) (hm : I m) :
    (∀ event ∈ events, I event.before ∧ I (event.outcome e).2) ∧ I m' := by
  induction h with
  | nil => exact ⟨nofun, hm⟩
  | cons _ ih =>
    obtain ⟨hnow, hlater⟩ := List.forall_mem_cons.mp hI
    obtain ⟨hevents, hend⟩ := ih hlater (hnow hm)
    exact ⟨List.forall_mem_cons.mpr ⟨⟨hm, hnow hm⟩, hevents⟩, hend⟩

/-- The machine at the end is the first one, or one that a request leaves. -/
theorem eq_or_exists_outcome (h : Trace e m events m') :
    m' = m ∨ ∃ event ∈ events, m' = (event.outcome e).2 := by
  induction h with
  | nil => exact .inl rfl
  | cons _ ih =>
    rcases ih with he | ⟨event, hevent, he⟩
    · exact .inr ⟨_, List.mem_cons_self, he⟩
    · exact .inr ⟨event, List.mem_cons_of_mem _ hevent, he⟩

/-- The sink gets the writes, in order, and nothing else. -/
theorem sink_eq (h : Trace e m events m') :
    m'.sink = ((events.filterMap Event.write?).map (·.saved)).foldl e.feed m.sink := by
  induction h with
  | nil => rfl
  | @cons request m _ _ _ ih =>
    rw [ih, Event.outcome]
    cases request with
    | perform op =>
      rw [Request.machine_answer_perform]
      rfl
    | write saved =>
      rw [Request.machine_answer_write]
      rfl

end Trace

end Gleaner
