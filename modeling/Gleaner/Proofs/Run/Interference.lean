import Gleaner.Proofs.Run.Frame

/-!
# Variables that a flow does not mention

A flow cannot tell what a variable holds whose name does not stand in it. Two runs
from stores that agree on all other variables end alike: with the same value or
fault and the same writes, and with stores that again agree on all other
variables. The variable itself is after each run as it was before it.

* `Store.AgreesBut`: stores that agree on all variables but one;
* `Store.AgreesBut.perform`: an operation on another variable does not tell them
  apart;
* `Program.runsAlike`: neither does a run that asks for such operations only;
* `Flow.noninterference`: the statement for flows.
-/

namespace Gleaner

variable {σ α : Type}

/-! ## Operations -/

namespace Store

/-- Whether two stores agree on all variables, but perhaps for one. -/
def AgreesBut (s : Store) (x : String) (s' : Store) : Prop :=
  ∀ y, y ≠ x → s'.get? y = s.get? y

/-- Two operations that come to the same: both fail with one fault, or both give
one value and leave stores that agree but for a variable. -/
inductive AnswersAlike (x : String) :
    Except Fault (Value × Store) → Except Fault (Value × Store) → Prop where
  | error (f : Fault) : AnswersAlike x (.error f) (.error f)
  | ok {v : Value} {s s' : Store} : s.AgreesBut x s' → AnswersAlike x (.ok (v, s)) (.ok (v, s'))

namespace AnswersAlike

variable {x : String}

theorem bind {r r' : Except Fault α} {k k' : α → Except Fault (Value × Store)} (hr : r' = r)
    (h : ∀ a, AnswersAlike x (k a) (k' a)) : AnswersAlike x (r >>= k) (r' >>= k') := by
  subst hr
  cases r' with
  | error f => exact .error f
  | ok a => exact h a

theorem map_bind {r r' : Except Fault α} {k k' : α → Except Fault Store} (hr : r' = r)
    (h : ∀ a, AnswersAlike x ((k a).map (.null, ·)) ((k' a).map (.null, ·))) :
    AnswersAlike x ((r >>= k).map (.null, ·)) ((r' >>= k').map (.null, ·)) := by
  subst hr
  cases r' with
  | error f => exact .error f
  | ok a => exact h a

end AnswersAlike

namespace AgreesBut

variable {s s' : Store} {x name : String} (h : s.AgreesBut x s')

include h

theorem put (name : String) (u : Variable) : (s.put name u).AgreesBut x (s'.put name u) := by
  intro y hy
  by_cases he : y = name
  · subst he
    rw [get?_put_self, get?_put_self]
  · rw [get?_put_of_ne s u he, get?_put_of_ne s' u he]
    exact h y hy

theorem lookup (hname : name ≠ x) : s'.lookup name = s.lookup name := by
  unfold Store.lookup
  rw [h name hname]

theorem value (hname : name ≠ x) : s'.value name = s.value name := by
  unfold Store.value
  rw [h.lookup hname]

theorem valueOf (kind : Kind) (hname : name ≠ x) : s'.valueOf name kind = s.valueOf name kind := by
  unfold Store.valueOf
  rw [h.lookup hname]

theorem popFront (hname : name ≠ x) : AnswersAlike x (s.popFront name) (s'.popFront name) := by
  refine .bind (h.valueOf .list hname) fun v => ?_
  split
  · exact .ok (h.put name _)
  · exact .error _

/-- An operation on another variable gives the same on both stores. -/
theorem perform (d : Document) {op : Operation} (hop : op.name? ≠ some x) :
    AnswersAlike x (s.perform d op) (s'.perform d op) := by
  have hne {name : String} (he : op.name? = some name) : name ≠ x := fun hx => hop (hx ▸ he)
  cases op with
  | declare name kind given => exact .ok (h.put name _)
  | set name v => exact .map_bind (h.valueOf .scalar (hne rfl)) fun _ => .ok (h.put name _)
  | append name v =>
    refine .map_bind (h.valueOf .list (hne rfl)) fun w => ?_
    split
    · exact .ok (h.put name _)
    · exact .ok h
  | insert name key v =>
    refine .map_bind (h.valueOf .mapping (hne rfl)) fun w => ?_
    split
    · exact .ok (h.put name _)
    · exact .ok h
  | remove name v =>
    refine .map_bind (h.valueOf .list (hne rfl)) fun w => ?_
    split
    · split
      · exact .ok (h.put name _)
      · exact .error _
    · exact .ok h
  | removeKey name key =>
    refine .bind (h.valueOf .mapping (hne rfl)) fun w => ?_
    split
    · split
      · exact .ok (h.put name _)
      · exact .error _
    · exact .error _
  | popFront name => exact h.popFront (hne rfl)
  | resolve o =>
    cases o with
    | literal t => exact .ok h
    | var name => exact .bind (h.value (hne rfl)) fun v => .ok h
    | path name segments => exact .bind (h.value (hne rfl)) fun v => .bind rfl fun w => .ok h
    | pop name => exact h.popFront (hne rfl)

end AgreesBut

end Store

/-! ## Programs -/

namespace Program

/-- What the runs of a program from two machines share. -/
structure RunsAlike (p : Program α) (e : Host σ) (x : String) (m m' : Machine σ) : Prop where
  result : ((p.run e).start m').1 = ((p.run e).start m).1
  writes : (p.writes e m').map (·.saved) = (p.writes e m).map (·.saved)
  stores : ((p.run e).start m).2.store.AgreesBut x ((p.run e).start m').2.store

namespace RunsAlike

variable {e : Host σ} {x : String} {request : Request} {next : Value → Program α}
  {m m' n n' : Machine σ}

/-- Both runs end at a request that fails with one fault. -/
theorem ask_of_error {f : Fault} (h : (request.answer e).start m = (.error f, n))
    (h' : (request.answer e).start m' = (.error f, n')) (hn : n.store.AgreesBut x n'.store) :
    (ask request next).RunsAlike e x m m' := by
  refine ⟨?_, ?_, ?_⟩
  · rw [start_ask_of_error h, start_ask_of_error h']
  · unfold Program.writes
    rw [events_ask_of_error h, events_ask_of_error h']
    cases request <;> rfl
  · rw [start_ask_of_error h, start_ask_of_error h']
    exact hn

/-- Both runs go on with one answer to a request. -/
theorem ask_of_ok {v : Value} (h : (request.answer e).start m = (.ok v, n))
    (h' : (request.answer e).start m' = (.ok v, n')) (hnext : (next v).RunsAlike e x n n') :
    (ask request next).RunsAlike e x m m' := by
  refine ⟨?_, ?_, ?_⟩
  · rw [start_ask_of_ok h, start_ask_of_ok h']
    exact hnext.result
  · unfold Program.writes
    rw [events_ask_of_ok h, events_ask_of_ok h']
    cases request with
    | perform op => exact hnext.writes
    | write saved => exact congrArg (saved :: ·) hnext.writes
  · rw [start_ask_of_ok h, start_ask_of_ok h']
    exact hnext.stores

end RunsAlike

/-- A program that asks for nothing on a variable does not tell machines apart
whose stores agree on the others. -/
theorem runsAlike {x : String} {p : Program α}
    (hp : p.Asks fun request => ∀ op, request = .perform op → op.name? ≠ some x) (e : Host σ)
    {s s' : Store} (h : s.AgreesBut x s') (state : σ) :
    p.RunsAlike e x ⟨s, state⟩ ⟨s', state⟩ := by
  induction p generalizing s s' state with
  | done r => exact ⟨rfl, rfl, h⟩
  | ask request next ih =>
    cases request with
    | perform op =>
      have halike := h.perform e.document (hp.1 op rfl)
      generalize hs : s.perform e.document op = r, hs' : s'.perform e.document op = r' at halike
      cases halike with
      | error f =>
        exact .ask_of_error (Request.answer_perform_of_error hs)
          (Request.answer_perform_of_error hs') h
      | @ok v t t' ht =>
        exact .ask_of_ok (Request.answer_perform_of_ok hs) (Request.answer_perform_of_ok hs')
          (ih v (hp.2 v) ht state)
    | write saved =>
      -- What becomes of a write depends on the sink only, which is the same.
      rcases hw : (e.write saved state).1 with f | u
      · exact .ask_of_error (Request.answer_write_of_error hw) (Request.answer_write_of_error hw) h
      · exact .ask_of_ok (Request.answer_write_of_ok hw) (Request.answer_write_of_ok hw)
          (ih .null (hp.2 .null) h (e.feed state saved))

end Program

/-! ## Flows -/

namespace Flow

/-- What the runs of a flow on an input from two stores share that agree but for a
variable, and what becomes of that variable. -/
structure Ignores (f : Flow) (x : String) (e : Host σ) (input last : Value) (s s' : Store)
    (state : σ) : Prop where
  /-- The runs end with one value, or with one fault. -/
  result : ((f.runAllOn e input last).start ⟨s', state⟩).1 =
    ((f.runAllOn e input last).start ⟨s, state⟩).1
  /-- They save the same in the same order. -/
  writes : (f.writesOn e input last ⟨s', state⟩).map (·.saved) =
    (f.writesOn e input last ⟨s, state⟩).map (·.saved)
  /-- They leave the sink in one state. -/
  sink : ((f.runAllOn e input last).start ⟨s', state⟩).2.sink =
    ((f.runAllOn e input last).start ⟨s, state⟩).2.sink
  /-- The stores that they leave agree but for the variable. -/
  stores : ((f.runAllOn e input last).start ⟨s, state⟩).2.store.AgreesBut x
    ((f.runAllOn e input last).start ⟨s', state⟩).2.store
  /-- Each run leaves the variable as it finds it. -/
  kept : ((f.runAllOn e input last).start ⟨s, state⟩).2.store.get? x = s.get? x
  kept' : ((f.runAllOn e input last).start ⟨s', state⟩).2.store.get? x = s'.get? x

/-- A variable that a flow does not mention makes no difference to a run, whether
it succeeds or fails, and none is made to it. The sinks of settings are among those
that the statement is about. -/
theorem noninterference (f : Flow) (input last : Value) :
    (∀ {σ : Type} (e : Setting σ), f.runAllOn e.host input last = f.runAll e input last) ∧
      ∀ {σ : Type} (e : Host σ) (x : String) (s s' : Store) (state : σ),
        ¬f.Mentions x → s.AgreesBut x s' → f.Ignores x e input last s s' state := by
  refine ⟨fun e => runAllOn_host e input last f, fun e x s s' state hx hs => ?_⟩
  have halike := Program.runsAlike (asks_name_ne Action.MayAsk.mentions hx) e hs state
    (p := f.programOn e.document input last)
  have hkept : ¬f.MayChange x := mt Mentions.of_mayChange hx
  have hwrites : (f.writesOn e input last ⟨s', state⟩).map (·.saved) =
      (f.writesOn e input last ⟨s, state⟩).map (·.saved) := halike.writes
  refine ⟨halike.result, hwrites, ?_, halike.stores, get?_runAllOn hkept e input last ⟨s, state⟩,
    get?_runAllOn hkept e input last ⟨s', state⟩⟩
  rw [sink_runAllOn, sink_runAllOn, hwrites]

/-- Steps that save the page under a title, and then read a list that is not
there. -/
def titledFlow : Flow :=
  .step (.declare "title" .scalar (some (.literal "Home"))) .atomic
    (.step (.save ⟨"page", .json, false, none⟩) .atomic .nil .nil) <|
  .step (.wrap (.var "title") (.pop "queue")) .atomic .nil .nil

/-- One run finds a note that the other does not have. Both write the same and fail
alike, and the note is still there only in the one. -/
theorem noninterference_titled :
    ¬titledFlow.Mentions "note" ∧
      Store.empty.AgreesBut "note" (Store.empty.declare "note" .list none) ∧
      ∃ m m', (titledFlow.runAll ⟨.ofEvents [], .listing⟩ (.text "a") .null).start
          ⟨Store.empty, []⟩ = (.error (.undefinedVariable "queue"), m) ∧
        (titledFlow.runAll ⟨.ofEvents [], .listing⟩ (.text "a") .null).start
          ⟨Store.empty.declare "note" .list none, []⟩ =
            (.error (.undefinedVariable "queue"), m') ∧
        m.sink.length = 1 ∧ m'.sink = m.sink ∧
        m.store.get? "note" = none ∧ m'.store.get? "note" = some ⟨.list, .list []⟩ ∧
        m'.store.get? "title" = m.store.get? "title" := by
  have hnote : ¬titledFlow.Mentions "note" := by decide
  have hagrees : Store.empty.AgreesBut "note" (Store.empty.declare "note" .list none) :=
    fun y hy => Store.get?_put_of_ne .empty _ hy
  obtain ⟨hhost, hrun⟩ := noninterference titledFlow (.text "a") .null
  have hignores := hrun (Setting.host ⟨.ofEvents [], .listing⟩) "note" _ _ [] hnote hagrees
  have hresult := hignores.result
  have hsink := hignores.sink
  have hstores := hignores.stores "title" (by decide)
  have hkept := hignores.kept
  have hkept' := hignores.kept'
  rw [hhost] at hresult hsink hstores hkept hkept'
  have hfails : ((titledFlow.runAll ⟨.ofEvents [], .listing⟩ (.text "a") .null).start
      ⟨Store.empty, []⟩).1 = .error (.undefinedVariable "queue") := by decide +kernel
  refine ⟨hnote, hagrees, _, _, Prod.ext hfails rfl, Prod.ext (hresult.trans hfails) rfl, ?_,
    hsink, hkept, hkept', hstores⟩
  decide +kernel

end Flow

end Gleaner
