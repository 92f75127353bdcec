import Gleaner.Markup.Event
import Gleaner.Proofs.Flow.Program

/-!
# Lists as queues

A list that a flow changes only by additions at its end and by `$name.pop` is a
queue: what it held at first and what was added to it, in order, is what was
taken out of it, in order, and what it holds in the end. Each request keeps this
balance (`Event.balances`), and so does a run, whether it succeeds or fails
(`Trace.balances`).

* `Action.KeepsQueue`: the actions that such a flow is made of;
* `Flow.pushed`, `Flow.popped`: what a run adds to a list and takes out of it;
* `Flow.queue_conserved`: the balance of a flow, and when a `$name.pop` fails.
-/

namespace Gleaner

variable {σ α : Type} {e : Host σ} {q : String} {items : List Value}

/-- The contents of a variable that is a list. -/
def Store.Holds (s : Store) (q : String) (items : List Value) : Prop :=
  s.get? q = some ⟨.list, .list items⟩

/-! ## What leaves a queue a queue -/

/-- Whether an operation neither declares a variable anew nor takes elements out
of the middle of it. -/
def Store.Operation.KeepsQueue (q : String) : Operation → Prop
  | declare name .. | remove name _ => name ≠ q
  | _ => True

def Request.KeepsQueue (q : String) : Request → Prop
  | perform op => op.KeepsQueue q
  | write _ => True

/-- Whether an action changes a list only by an addition at its end and by the
`$name.pop` of its operands: it does not declare the variable, nor save a
hierarchy to it, nor take an element out of it by its value. -/
def Action.KeepsQueue (q : String) : Action → Prop
  | declare name .. => name ≠ q
  | tree query => query.saveTo ≠ some q
  | remove u => u.kind = .list → u.name ≠ q
  | _ => True

theorem Action.KeepsQueue.of_mayAsk (a : Action) (h : a.KeepsQueue q) (request : Request)
    (ha : a.MayAsk request) : request.KeepsQueue q := by
  cases ha with
  | declare => exact h
  | saveTo hsave =>
    intro he
    exact h (hsave.trans (congrArg some he))
  | remove hk => exact h hk
  | resolve | append | insert | set | removeKey | write => trivial

/-! ## What goes in and what comes out -/

/-- The value that a request adds to a list if it succeeds. -/
def Request.addition? (q : String) : Request → Option Value
  | perform (.append name v) => if name = q then some v else none
  | _ => none

/-- Whether a request takes the first element out of a list if it succeeds. -/
def Request.Pops (q : String) : Request → Prop
  | perform (.popFront name) | perform (.resolve (.pop name)) => name = q
  | _ => False

instance (q : String) : DecidablePred (Request.Pops q) := fun request => by
  unfold Request.Pops
  split <;> infer_instance

/-- The value that an event adds to a list. -/
def Event.pushed? (e : Host σ) (q : String) (event : Event σ) : Option Value :=
  match (event.outcome e).1 with
  | .ok _ => event.request.addition? q
  | .error _ => none

/-- The value that an event takes out of a list. -/
def Event.popped? (e : Host σ) (q : String) (event : Event σ) : Option Value :=
  match (event.outcome e).1 with
  | .ok v => if event.request.Pops q then some v else none
  | .error _ => none

/-- The values that the run of a flow adds to a list, in order. -/
def Flow.pushed (e : Setting σ) (f : Flow) (m : Machine σ) (q : String) : List Value :=
  (f.events e.host m).filterMap (Event.pushed? e.host q)

/-- The values that the run of a flow takes out of a list, in order. -/
def Flow.popped (e : Setting σ) (f : Flow) (m : Machine σ) (q : String) : List Value :=
  (f.events e.host m).filterMap (Event.popped? e.host q)

theorem Request.addition?_of_target_ne {op : Store.Operation} (h : op.target? ≠ some q) :
    (perform op).addition? q = none := by
  cases op with
  | append name v => exact if_neg fun he => h (congrArg some he)
  | _ => rfl

theorem Request.not_pops_of_target_ne {op : Store.Operation} (h : op.target? ≠ some q) :
    ¬(perform op).Pops q := by
  intro hpops
  cases op with
  | popFront name => exact h (congrArg some hpops)
  | resolve o =>
    cases o with
    | pop name => exact h (congrArg some hpops)
    | literal | var | path => exact hpops
  | _ => exact hpops

/-! ## One request -/

namespace Event

variable {event : Event σ} {op : Store.Operation} {m : Machine σ} {f : Fault} {v : Value}

theorem pushed?_of_ok (h : (event.outcome e).1 = .ok v) :
    event.pushed? e q = event.request.addition? q := by
  simp only [pushed?, h]

theorem popped?_of_ok (h : (event.outcome e).1 = .ok v) :
    event.popped? e q = if event.request.Pops q then some v else none := by
  simp only [popped?, h]

theorem pushed?_of_error (h : (event.outcome e).1 = .error f) : event.pushed? e q = none := by
  simp only [pushed?, h]

theorem popped?_of_error (h : (event.outcome e).1 = .error f) : event.popped? e q = none := by
  simp only [popped?, h]

/-- A request that has nothing to do with a list adds nothing to it. -/
theorem pushed?_of_addition (h : event.request.addition? q = none) : event.pushed? e q = none := by
  unfold pushed?
  split
  · exact h
  · rfl

/-- A request that has nothing to do with a list takes nothing out of it. -/
theorem popped?_of_not_pops (h : ¬event.request.Pops q) : event.popped? e q = none := by
  unfold popped?
  split
  · exact if_neg h
  · rfl

/-- What a list holds and what an event adds to it is what the event takes out of
it and what it holds then. -/
def Balances (e : Host σ) (q : String) (items : List Value) (event : Event σ) : Prop :=
  ∃ items', (event.outcome e).2.store.Holds q items' ∧
    items ++ (event.pushed? e q).toList = (event.popped? e q).toList ++ items'

theorem balances_of_error (h : m.store.perform e.document op = .error f)
    (hq : m.store.Holds q items) : Balances e q items ⟨.perform op, m⟩ := by
  have houtcome : (⟨.perform op, m⟩ : Event σ).outcome e = (.error f, m) :=
    Request.answer_perform_of_error h
  have hfails := congrArg Prod.fst houtcome
  rw [Balances, pushed?_of_error hfails, popped?_of_error hfails, houtcome]
  exact ⟨items, hq, List.append_nil _⟩

theorem perform_of_pops (h : (Request.perform op).Pops q) (d : Document) (s : Store) :
    s.perform d op = s.popFront q := by
  cases op with
  | popFront name => cases h; rfl
  | resolve o =>
    cases o with
    | pop name => cases h; rfl
    | literal | var | path => exact h.elim
  | _ => exact h.elim

theorem addition?_of_pops (h : (Request.perform op).Pops q) :
    (Request.perform op).addition? q = none := by
  cases op with
  | append => exact h.elim
  | _ => rfl

theorem balances_of_pops (h : (Request.perform op).Pops q) (hq : m.store.Holds q items) :
    Balances e q items ⟨.perform op, m⟩ := by
  have hperform := perform_of_pops h e.document m.store
  cases items with
  | nil => exact balances_of_error (hperform.trans (Store.popFront_nil hq)) hq
  | cons v rest =>
    have houtcome : (⟨.perform op, m⟩ : Event σ).outcome e = _ :=
      Request.answer_perform_of_ok (hperform.trans (Store.popFront_cons hq))
    rw [Balances, popped?_of_ok (congrArg Prod.fst houtcome), if_pos h,
      pushed?_of_addition (addition?_of_pops h), houtcome]
    exact ⟨rest, Store.get?_put_self .., List.append_nil _⟩

theorem balances_append (hq : m.store.Holds q items) (v : Value) :
    Balances e q items ⟨.perform (.append q v), m⟩ := by
  have houtcome : (⟨.perform (.append q v), m⟩ : Event σ).outcome e = _ :=
    Request.answer_perform_of_ok (Store.perform_append e.document hq v)
  rw [Balances, pushed?_of_ok (congrArg Prod.fst houtcome), popped?_of_not_pops id, houtcome]
  refine ⟨items ++ [v], Store.get?_put_self .., ?_⟩
  simp only [Request.addition?, if_true, Option.toList_some, Option.toList_none, List.nil_append]

/-- A request keeps the balance of a queue. -/
theorem balances (e : Host σ) (event : Event σ) (h : event.request.KeepsQueue q)
    (hq : event.before.store.Holds q items) : event.Balances e q items := by
  obtain ⟨request, m⟩ := event
  cases request with
  | write saved =>
    refine ⟨items, ?_, ?_⟩
    · rw [outcome, Request.machine_answer_write]
      exact hq
    · rw [pushed?_of_addition rfl, popped?_of_not_pops id]
      exact List.append_nil _
  | perform op =>
    by_cases ht : op.target? = some q
    · have hfails {kind : Kind} (hk : op.kind? = some kind) (hne : Kind.list ≠ kind) :=
        Store.perform_of_kind_ne e.document hq ht hk hne
      cases op with
      | declare | remove => exact (h (Option.some.inj ht)).elim
      | set | insert | removeKey =>
        -- The list is of another kind than these ask for.
        exact balances_of_error (hfails rfl (by decide)) hq
      | append name v =>
        cases ht
        exact balances_append hq v
      | popFront name => exact balances_of_pops (Option.some.inj ht) hq
      | resolve o =>
        cases o with
        | literal | var | path => cases ht
        | pop name => exact balances_of_pops (Option.some.inj ht) hq
    · rw [Balances, pushed?_of_addition (Request.addition?_of_target_ne ht),
        popped?_of_not_pops (Request.not_pops_of_target_ne ht), outcome,
        Request.machine_answer_perform]
      exact ⟨items, (Store.get?_after_of_ne e.document m.store ht).trans hq, List.append_nil _⟩

/-- Taking the first element out of a list fails exactly if there is none. -/
theorem error_iff_of_pops (h : (Request.perform op).Pops q) (hq : m.store.Holds q items)
    (f : Fault) :
    ((⟨.perform op, m⟩ : Event σ).outcome e).1 = .error f ↔ items = [] ∧ f = .exhausted q := by
  have houtcome : ((⟨.perform op, m⟩ : Event σ).outcome e).1 =
      (m.store.perform e.document op).map (·.1) :=
    congrArg Prod.fst (Store.start_onStore_change e.document m.store op m.sink)
  rw [houtcome, map_eq_error, perform_of_pops h, Store.popFront_eq_error_iff hq]

end Event

/-! ## Runs -/

namespace Trace

variable {events : List (Event σ)} {m m' : Machine σ}

/-- What a queue holds and what requests add to it is what they take out of it and
what it holds in the end. -/
theorem balances (h : Trace e m events m')
    (hevents : ∀ event ∈ events, event.request.KeepsQueue q) (hq : m.store.Holds q items) :
    ∃ final, m'.store.Holds q final ∧
      items ++ events.filterMap (Event.pushed? e q) =
        events.filterMap (Event.popped? e q) ++ final := by
  induction h generalizing items with
  | nil => exact ⟨items, hq, List.append_nil _⟩
  | @cons request m m' events _ ih =>
    obtain ⟨hrequest, hevents⟩ := List.forall_mem_cons.mp hevents
    obtain ⟨items', hq', hnow⟩ := Event.balances e ⟨request, m⟩ hrequest hq
    obtain ⟨final, hfinal, hlater⟩ := ih hevents hq'
    have hcons (g : Event σ → Option Value) :
        (⟨request, m⟩ :: events).filterMap g = (g ⟨request, m⟩).toList ++ events.filterMap g := by
      cases hg : g ⟨request, m⟩ <;> simp [hg]
    refine ⟨final, hfinal, ?_⟩
    rw [hcons, hcons, ← List.append_assoc, hnow, List.append_assoc, hlater, List.append_assoc]

/-- At each request the queue holds some list. -/
theorem holds_before (h : Trace e m events m')
    (hevents : ∀ event ∈ events, event.request.KeepsQueue q) (hq : m.store.Holds q items) :
    ∀ event ∈ events, ∃ items, event.before.store.Holds q items := by
  have hkeep (event : Event σ) (hevent : event ∈ events)
      (hbefore : ∃ items, event.before.store.Holds q items) :
      ∃ items, (event.outcome e).2.store.Holds q items := by
    obtain ⟨items, hq⟩ := hbefore
    obtain ⟨items', hq', -⟩ := event.balances e (hevents event hevent) hq
    exact ⟨items', hq'⟩
  obtain ⟨hall, -⟩ := h.invariant (I := fun m => ∃ items, m.store.Holds q items) hkeep ⟨items, hq⟩
  exact fun event hevent => (hall event hevent).1

end Trace

/-- If a flow changes a list only by additions at its end and by `$name.pop`, then
what the list held at first and what the run added to it is what the run took
out of it and what it holds in the end, whether the run succeeds or fails. What
it added and took out is read off its requests, which lead from the first machine
to the last. A request for the first element fails exactly if it finds the list
empty. -/
theorem Flow.queue_conserved (e : Setting σ) (f : Flow) (m : Machine σ) {q : String}
    {initial : List Value} (hq : m.store.get? q = some ⟨.list, .list initial⟩)
    (hf : f.All (Action.KeepsQueue q)) :
    Trace e.host m (f.events e.host m) ((f.run e).start m).2 ∧
    (∃ final, ((f.run e).start m).2.store.get? q = some ⟨.list, .list final⟩ ∧
      initial ++ f.pushed e m q = f.popped e m q ++ final) ∧
    ∀ event ∈ f.events e.host m, event.request.Pops q →
      ∃ items, event.before.store.get? q = some ⟨.list, .list items⟩ ∧
        ∀ fault, (event.outcome e.host).1 = .error fault ↔ items = [] ∧ fault = .exhausted q := by
  have htrace : Trace e.host m (f.events e.host m) ((f.run e).start m).2 := by
    rw [← Flow.run_program]
    exact Program.trace_run ..
  have hasks : (f.program e.document).Asks (Request.KeepsQueue q) :=
    f.asks_program Action.KeepsQueue.of_mayAsk hf
  have hevents : ∀ event ∈ f.events e.host m, event.request.KeepsQueue q :=
    fun _ => hasks.of_mem_events
  refine ⟨htrace, htrace.balances hevents hq, fun event hevent hpops => ?_⟩
  obtain ⟨items, hitems⟩ := htrace.holds_before hevents hq event hevent
  obtain ⟨request, before⟩ := event
  cases request with
  | write saved => exact hpops.elim
  | perform op => exact ⟨items, hitems, Event.error_iff_of_pops hpops hitems⟩

/-- A loop that adds each round to a list and takes two elements out of it. -/
def drainingFlow : Flow :=
  .step (.read (.var "rounds")) .atomic
    (.step (.add ⟨"queue", .list, none, none⟩) .loop
      (.step (.wrap (.pop "queue") (.pop "queue")) .atomic .nil .nil) .nil) .nil

/-- Two rounds, and a list that lacks one element for them. -/
def drainingStore : Store :=
  ⟨[("rounds", ⟨.list, .list [.text "1", .text "2"]⟩), ("queue", ⟨.list, .list [.text "a"]⟩)]⟩

/-- The second round finds nothing left for its second `$queue.pop`. What was
taken out until then is what was there and what both rounds added. -/
theorem Flow.queue_conserved_draining :
    drainingStore.get? "queue" = some ⟨.list, .list [.text "a"]⟩ ∧
      drainingFlow.All (Action.KeepsQueue "queue") ∧
      ((drainingFlow.run ⟨.ofEvents [], .listing⟩).start ⟨drainingStore, []⟩).1 =
        .error (.exhausted "queue") ∧
      drainingFlow.pushed ⟨.ofEvents [], .listing⟩ ⟨drainingStore, []⟩ "queue" =
        [.text "1", .text "2"] ∧
      drainingFlow.popped ⟨.ofEvents [], .listing⟩ ⟨drainingStore, []⟩ "queue" =
        [.text "a", .text "1", .text "2"] ∧
      ((drainingFlow.run ⟨.ofEvents [], .listing⟩).start ⟨drainingStore, []⟩).2.store.get? "queue" =
        some ⟨.list, .list []⟩ ∧
      ∀ event ∈ drainingFlow.events (Setting.host ⟨.ofEvents [], .listing⟩) ⟨drainingStore, []⟩,
        event.request.Pops "queue" →
        (event.outcome (Setting.host ⟨.ofEvents [], .listing⟩)).1 = .error (.exhausted "queue") →
        event.before.store.get? "queue" = some ⟨.list, .list []⟩ := by
  have hq : drainingStore.get? "queue" = some ⟨.list, .list [.text "a"]⟩ := by decide
  have hf : drainingFlow.All (Action.KeepsQueue "queue") :=
    ⟨trivial, ⟨trivial, ⟨trivial, trivial, trivial⟩, trivial⟩, trivial⟩
  have hpushed : drainingFlow.pushed ⟨.ofEvents [], .listing⟩ ⟨drainingStore, []⟩ "queue" =
      [.text "1", .text "2"] := by decide +kernel
  have hpopped : drainingFlow.popped ⟨.ofEvents [], .listing⟩ ⟨drainingStore, []⟩ "queue" =
      [.text "a", .text "1", .text "2"] := by decide +kernel
  obtain ⟨-, ⟨final, hfinal, hbalance⟩, hpop⟩ :=
    Flow.queue_conserved ⟨.ofEvents [], .listing⟩ drainingFlow ⟨drainingStore, []⟩ hq hf
  rw [hpushed, hpopped] at hbalance
  obtain rfl : final = [] := List.self_eq_append_right.mp hbalance
  refine ⟨hq, hf, by decide +kernel, hpushed, hpopped, hfinal, fun event hevent hpops hfails => ?_⟩
  obtain ⟨items, hitems, hiff⟩ := hpop event hevent hpops
  obtain ⟨rfl, -⟩ := (hiff _).mp hfails
  exact hitems

end Gleaner
