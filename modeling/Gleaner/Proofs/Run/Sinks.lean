import Gleaner.Markup.Event
import Gleaner.Proofs.Flow.Program

/-!
# Runs on different sinks

What a run does depends on its sink in one way only: a write that fails ends the
run. Next to a host that never fails, any other host of the same document gets
the same writes in the same order, up to the first that it fails. If there is
none, the two runs end alike (`Program.Completes`); otherwise the run ends there,
with the fault of the write and the variables that the other run has at that
point (`Program.StopsAt`).

* `Flow.runOn`: the run of a flow on a host, whose writes may fail with any fault;
* `Program.completes_or_stopsAt`: the two ways for a run to end;
* `Flow.sink_independent`: the statement for flows.
-/

namespace Gleaner

variable {σ τ α : Type}

/-- Whether no write fails, whatever is saved. -/
def Host.NeverFails (e : Host σ) : Prop :=
  ∀ saved state, (e.write saved state).1 = .ok ()

namespace Write

/-- What a write shows of a run apart from its sink: what is saved, and the
variables at that point. -/
def call (w : Write σ) : Saved × Store :=
  (w.saved, w.before.store)

def Succeeds (e : Host σ) (w : Write σ) : Prop :=
  (w.outcome e).1 = .ok ()

theorem map_saved_eq (writes : List (Write σ)) :
    writes.map (·.saved) = (writes.map call).map Prod.fst := by
  rw [List.map_map]
  rfl

end Write

namespace Program

/-! ## The writes of a program -/

section

variable {e : Host σ} {op : Store.Operation} {saved : Saved} {next : Value → Program α}
  {m : Machine σ} {f : Fault} {v : Value} {s : Store}

theorem writes_perform_of_ok (h : m.store.perform e.document op = .ok (v, s)) :
    (ask (.perform op) next).writes e m = (next v).writes e ⟨s, m.sink⟩ := by
  rw [writes, events_ask_of_ok (Request.answer_perform_of_ok h)]
  rfl

theorem writes_perform_of_error (h : m.store.perform e.document op = .error f) :
    (ask (.perform op) next).writes e m = [] := by
  rw [writes, events_ask_of_error (Request.answer_perform_of_error h)]
  rfl

theorem writes_write_of_ok (h : (e.write saved m.sink).1 = .ok ()) :
    (ask (.write saved) next).writes e m =
      ⟨saved, m⟩ :: (next .null).writes e ⟨m.store, e.feed m.sink saved⟩ := by
  rw [writes, events_ask_of_ok (Request.answer_write_of_ok h)]
  rfl

theorem writes_write_of_error (h : (e.write saved m.sink).1 = .error f) :
    (ask (.write saved) next).writes e m = [⟨saved, m⟩] := by
  rw [writes, events_ask_of_error (Request.answer_write_of_error h)]
  rfl

/-- If each write that succeeds adds one thing to a list that the host keeps, then
a run all of whose writes succeed adds one thing for each of them. -/
theorem kept_run {β : Type} (kept : σ → List β) (g : Saved → β)
    (hkept : ∀ saved state, (e.write saved state).1 = .ok () →
      kept (e.feed state saved) = kept state ++ [g saved])
    {p : Program α} {m : Machine σ} (hp : ∀ w ∈ p.writes e m, w.Succeeds e) :
    kept ((p.run e).start m).2.sink = kept m.sink ++ ((p.writes e m).map (·.saved)).map g := by
  induction p generalizing m with
  | done r => exact (List.append_nil _).symm
  | ask request next ih =>
    cases request with
    | perform op =>
      rcases h : m.store.perform e.document op with f | ⟨v, s⟩
      · rw [start_ask_of_error (Request.answer_perform_of_error h), writes_perform_of_error h]
        exact (List.append_nil _).symm
      · rw [writes_perform_of_ok h] at hp ⊢
        rw [start_ask_of_ok (Request.answer_perform_of_ok h)]
        exact ih v hp
    | write saved =>
      rcases h : (e.write saved m.sink).1 with f | u
      · rw [writes_write_of_error h] at hp
        have hok : (e.write saved m.sink).1 = .ok () := hp _ (List.mem_singleton.mpr rfl)
        rw [hok] at h
        cases h
      · rw [writes_write_of_ok h] at hp ⊢
        rw [start_ask_of_ok (Request.answer_write_of_ok h),
          ih .null fun w hw => hp w (List.mem_cons_of_mem _ hw), hkept saved m.sink h]
        simp

end

/-! ## Two hosts -/

variable {A : Host σ} {B : Host τ} {p : Program α} {m : Machine σ} {m' : Machine τ}

/-- The run on the second host does all that the run on the first does. -/
structure Completes (p : Program α) (A : Host σ) (B : Host τ) (m : Machine σ) (m' : Machine τ) :
    Prop where
  succeeds : ∀ w ∈ p.writes B m', w.Succeeds B
  calls : (p.writes B m').map Write.call = (p.writes A m).map Write.call
  result : ((p.run B).start m').1 = ((p.run A).start m).1
  store : ((p.run B).start m').2.store = ((p.run A).start m).2.store

/-- The run on the second host ends at a write that fails. -/
structure StopsAt (p : Program α) (A : Host σ) (B : Host τ) (m : Machine σ) (m' : Machine τ)
    (done : List (Write τ)) (w : Write τ) (f : Fault) : Prop where
  writes : p.writes B m' = done ++ [w]
  succeeds : ∀ w ∈ done, w.Succeeds B
  fails : (w.outcome B).1 = .error f
  calls : (done ++ [w]).map Write.call <+: (p.writes A m).map Write.call
  result : ((p.run B).start m').1 = .error f
  store : ((p.run B).start m').2.store = w.before.store

/-- Two runs end as they go on after some writes that show the same. -/
theorem completes_or_stopsAt_of_rest {q : Program α} {n : Machine σ} {n' : Machine τ}
    (first : List (Write σ)) (first' : List (Write τ))
    (hwrites : p.writes A m = first ++ q.writes A n)
    (hwrites' : p.writes B m' = first' ++ q.writes B n')
    (hcalls : first'.map Write.call = first.map Write.call) (hfirst : ∀ w ∈ first', w.Succeeds B)
    (hrun : (p.run A).start m = (q.run A).start n)
    (hrun' : (p.run B).start m' = (q.run B).start n')
    (h : q.Completes A B n n' ∨ ∃ done w f, q.StopsAt A B n n' done w f) :
    p.Completes A B m m' ∨ ∃ done w f, p.StopsAt A B m m' done w f := by
  have hsplit : (p.writes A m).map Write.call =
      first'.map Write.call ++ (q.writes A n).map Write.call := by
    rw [hwrites, List.map_append, hcalls]
  obtain hc | ⟨done, w, f, hs⟩ := h
  · refine .inl ⟨?_, ?_, ?_, ?_⟩
    · rw [hwrites']
      exact List.forall_mem_append.mpr ⟨hfirst, hc.succeeds⟩
    · rw [hsplit, hwrites', List.map_append, hc.calls]
    · rw [hrun', hrun, hc.result]
    · rw [hrun', hrun, hc.store]
  · refine .inr ⟨first' ++ done, w, f, ?_, ?_, hs.fails, ?_, ?_, ?_⟩
    · rw [hwrites', hs.writes, List.append_assoc]
    · exact List.forall_mem_append.mpr ⟨hfirst, hs.succeeds⟩
    · rw [hsplit, List.append_assoc, List.map_append]
      exact (List.prefix_append_right_inj _).mpr hs.calls
    · rw [hrun', hs.result]
    · rw [hrun', hs.store]

/-- Runs from the same variables on end alike, or one ends at a write that
fails. -/
theorem completes_or_stopsAt (hd : B.document = A.document) (hA : A.NeverFails) (p : Program α)
    (m : Machine σ) (m' : Machine τ) (hm : m'.store = m.store) :
    p.Completes A B m m' ∨ ∃ done w f, p.StopsAt A B m m' done w f := by
  induction p generalizing m m' with
  | done r => exact .inl ⟨nofun, rfl, rfl, hm⟩
  | ask request next ih =>
    cases request with
    | perform op =>
      -- The answer of an operation depends on the variables and the document only.
      have hsame : m'.store.perform B.document op = m.store.perform A.document op := by rw [hm, hd]
      rcases h : m.store.perform A.document op with f | ⟨v, s⟩
      · have h' := hsame.trans h
        refine .inl ⟨?_, ?_, ?_, ?_⟩
        · rw [writes_perform_of_error h']
          exact nofun
        · rw [writes_perform_of_error h', writes_perform_of_error h]
          rfl
        · rw [start_ask_of_error (Request.answer_perform_of_error h'),
            start_ask_of_error (Request.answer_perform_of_error h)]
        · rwa [start_ask_of_error (Request.answer_perform_of_error h'),
            start_ask_of_error (Request.answer_perform_of_error h)]
      · have h' := hsame.trans h
        exact completes_or_stopsAt_of_rest [] [] (writes_perform_of_ok h) (writes_perform_of_ok h')
          rfl (List.forall_mem_nil _) (start_ask_of_ok (Request.answer_perform_of_ok h))
          (start_ask_of_ok (Request.answer_perform_of_ok h')) (ih v _ _ rfl)
    | write saved =>
      have h := hA saved m.sink
      have hcall : Write.call ⟨saved, m'⟩ = Write.call ⟨saved, m⟩ := congrArg (saved, ·) hm
      rcases h' : (B.write saved m'.sink).1 with f | u
      · refine .inr ⟨[], ⟨saved, m'⟩, f, writes_write_of_error h', nofun, h', ?_, ?_, ?_⟩
        · rw [writes_write_of_ok h]
          exact ⟨_, congrArg (· :: _) hcall⟩
        · rw [start_ask_of_error (Request.answer_write_of_error h')]
        · rw [start_ask_of_error (Request.answer_write_of_error h')]
      · exact completes_or_stopsAt_of_rest [⟨saved, m⟩] [⟨saved, m'⟩] (writes_write_of_ok h)
          (writes_write_of_ok h') (congrArg ([·]) hcall) (List.forall_mem_singleton.mpr h')
          (start_ask_of_ok (Request.answer_write_of_ok h))
          (start_ask_of_ok (Request.answer_write_of_ok h')) (ih .null _ _ hm)

end Program

/-! ## Flows -/

/-- The run of a flow on a host. -/
def Flow.runOn (e : Host σ) (f : Flow) : Run σ Value :=
  (f.program e.document).run e

/-- What the run of a flow on a host shares with its run on a host that never
fails. -/
structure Flow.Follows (f : Flow) (A : Host σ) (B : Host τ) (m : Machine σ) (m' : Machine τ) :
    Prop where
  /-- The host is given the writes of the run, one after the other. -/
  received : ((f.runOn B).start m').2.sink =
    ((f.writes B m').map (·.saved)).foldl B.feed m'.sink
  /-- These are the first writes of the other run. -/
  calls : (f.writes B m').map (·.saved) <+: (f.writes A m).map (·.saved)
  /-- If none of them fails, the runs have the same writes and end alike. -/
  completes : (∀ w ∈ f.writes B m', w.Succeeds B) →
    (f.writes B m').map (·.saved) = (f.writes A m).map (·.saved) ∧
    ((f.runOn B).start m').1 = ((f.runOn A).start m).1 ∧
    ((f.runOn B).start m').2.store = ((f.runOn A).start m).2.store
  /-- A write that fails is the last one, and the run ends with its fault and the
  variables that the other run has at the same write. -/
  stops : ∀ k w fault, (f.writes B m')[k]? = some w → (w.outcome B).1 = .error fault →
    (f.writes B m').length = k + 1 ∧ ((f.runOn B).start m').1 = .error fault ∧
    ∃ w', (f.writes A m)[k]? = some w' ∧ w'.saved = w.saved ∧
      ((f.runOn B).start m').2.store = w'.before.store

namespace Program

variable {A : Host σ} {B : Host τ} {p : Program α} {m : Machine σ} {m' : Machine τ}

theorem Completes.map_saved (h : p.Completes A B m m') :
    (p.writes B m').map (·.saved) = (p.writes A m).map (·.saved) := by
  rw [Write.map_saved_eq, Write.map_saved_eq, h.calls]

theorem Completes.not_fails (h : p.Completes A B m m') {k : Nat} {w : Write τ} {f : Fault}
    (hw : (p.writes B m')[k]? = some w) : (w.outcome B).1 ≠ .error f := by
  have hok : (w.outcome B).1 = .ok () := h.succeeds w (List.mem_of_getElem? hw)
  rw [hok]
  exact nofun

namespace StopsAt

variable {done : List (Write τ)} {w : Write τ} {f : Fault} (h : p.StopsAt A B m m' done w f)

include h

theorem map_saved : (p.writes B m').map (·.saved) <+: (p.writes A m).map (·.saved) := by
  rw [Write.map_saved_eq, Write.map_saved_eq, h.writes]
  exact h.calls.map Prod.fst

/-- The write that fails is the last one. -/
theorem eq_of_fails {k : Nat} {w' : Write τ} {f' : Fault} (hw : (p.writes B m')[k]? = some w')
    (hf : (w'.outcome B).1 = .error f') : k = done.length ∧ w' = w ∧ f' = f := by
  rw [h.writes] at hw
  obtain hlt | rfl | hgt := Nat.lt_trichotomy k done.length
  · rw [List.getElem?_append_left hlt] at hw
    have hok : (w'.outcome B).1 = .ok () := h.succeeds w' (List.mem_of_getElem? hw)
    rw [hok] at hf
    cases hf
  · rw [List.getElem?_concat_length] at hw
    cases hw
    exact ⟨rfl, rfl, Except.error.inj (hf.symm.trans h.fails)⟩
  · have hlength : (done ++ [w]).length ≤ k := by
      rw [List.length_append]
      exact hgt
    rw [List.getElem?_eq_none hlength] at hw
    cases hw

theorem not_succeeds : ¬∀ w ∈ p.writes B m', w.Succeeds B := by
  intro hall
  have hok : (w.outcome B).1 = .ok () := hall w (by simp [h.writes])
  have hfails := h.fails
  rw [hok] at hfails
  cases hfails

/-- The other run has a write at the same place, with the same variables. -/
theorem exists_write : ∃ w', (p.writes A m)[done.length]? = some w' ∧ w'.call = w.call := by
  obtain ⟨later, hlater⟩ := h.calls
  have hcall : ((p.writes A m).map Write.call)[done.length]? = some w.call := by
    rw [← hlater]
    simp
  rw [List.getElem?_map] at hcall
  exact Option.map_eq_some_iff.mp hcall

end StopsAt

end Program

namespace Flow

/-- The run on the host of a setting is the run in the setting. -/
theorem runOn_host (e : Setting σ) (f : Flow) : f.runOn e.host = f.run e :=
  run_program e f

theorem follows (f : Flow) {A : Host σ} {B : Host τ} (s : Store) (a : σ) (b : τ)
    (hd : B.document = A.document) (hA : A.NeverFails) : f.Follows A B ⟨s, a⟩ ⟨s, b⟩ := by
  obtain ⟨d, A⟩ := A
  obtain ⟨d', B⟩ := B
  cases hd
  have hreceived := ((f.program d).trace_run ⟨d, B⟩ ⟨s, b⟩).sink_eq
  obtain hc | ⟨done, w, fault, hs⟩ := Program.completes_or_stopsAt (A := ⟨d, A⟩)
    (B := ⟨d, B⟩) rfl hA (f.program d) ⟨s, a⟩ ⟨s, b⟩ rfl
  · refine ⟨hreceived, ?_, fun _ => ⟨hc.map_saved, hc.result, hc.store⟩, fun k w fault hw hf => ?_⟩
    · exact ⟨[], (List.append_nil _).trans hc.map_saved⟩
    · exact (hc.not_fails hw hf).elim
  · refine ⟨hreceived, hs.map_saved, fun hall => ?_, fun k w' fault' hw hf => ?_⟩
    · exact (hs.not_succeeds hall).elim
    · obtain ⟨rfl, rfl, rfl⟩ := hs.eq_of_fails hw hf
      obtain ⟨w₁, hw₁, hcall⟩ := hs.exists_write
      refine ⟨?_, hs.result, w₁, hw₁, congrArg Prod.fst hcall, ?_⟩
      · exact (congrArg List.length hs.writes).trans List.length_append
      · exact hs.store.trans (congrArg Prod.snd hcall).symm

/-- What a run does depends on its sink only in that it ends at the first write
that fails, next to a sink that never fails. The sinks of settings are among
those that the statement is about. -/
theorem sink_independent (f : Flow) :
    (∀ {σ : Type} (e : Setting σ), f.runOn e.host = f.run e) ∧
      ∀ {σ τ : Type} (A : Host σ) (B : Host τ) (s : Store) (a : σ) (b : τ),
        B.document = A.document → A.NeverFails → f.Follows A B ⟨s, a⟩ ⟨s, b⟩ :=
  ⟨fun e => runOn_host e f, fun _ _ s a b hd hA => f.follows s a b hd hA⟩

/-- A host that counts what it is given, and fails on what it is given second. -/
def fullHost : Host Nat where
  document := .ofEvents []
  write _ count :=
    (if count = 1 then .error (.writeFailed "out" "disk full") else .ok (), count + 1)

/-- Steps that set a variable before and after each of two saves. -/
def savingFlow : Flow :=
  .step (.declare "stage" .scalar none) .atomic .nil <|
    .step (.save ⟨"first", .json, false, none⟩) .atomic .nil <|
      .step (.add ⟨"stage", .scalar, none, some (.literal "saved")⟩) .atomic .nil <|
        .step (.save ⟨"second", .json, false, none⟩) .atomic .nil <|
          .step (.add ⟨"stage", .scalar, none, some (.literal "over")⟩) .atomic .nil .nil

/-- The run on the host that fails ends at the second save: the variable is as
the other run has it there, and not as it has it in the end. -/
theorem sink_independent_saving :
    fullHost.document = (Setting.host ⟨.ofEvents [], .listing⟩).document ∧
      (Setting.host ⟨.ofEvents [], .listing⟩).NeverFails ∧
      ((savingFlow.run ⟨.ofEvents [], .listing⟩).start ⟨.empty, []⟩).2.store.get? "stage" =
        some ⟨.scalar, .text "over"⟩ ∧
      (savingFlow.writes fullHost ⟨.empty, 0⟩).length = 2 ∧
      ((savingFlow.runOn fullHost).start ⟨.empty, 0⟩).1 =
        .error (.writeFailed "out" "disk full") ∧
      ∃ w, (savingFlow.writes (Setting.host ⟨.ofEvents [], .listing⟩) ⟨.empty, []⟩)[1]? = some w ∧
        w.before.store.get? "stage" = some ⟨.scalar, .text "saved"⟩ ∧
        ((savingFlow.runOn fullHost).start ⟨.empty, 0⟩).2.store = w.before.store := by
  have hnever : (Setting.host ⟨.ofEvents [], .listing⟩).NeverFails := fun _ _ => rfl
  have hfollows : savingFlow.Follows (Setting.host ⟨.ofEvents [], .listing⟩) fullHost ⟨.empty, []⟩
      ⟨.empty, 0⟩ := (sink_independent savingFlow).2 _ fullHost .empty [] 0 rfl hnever
  obtain ⟨w, hw, hfails⟩ : ∃ w, (savingFlow.writes fullHost ⟨.empty, 0⟩)[1]? = some w ∧
      (w.outcome fullHost).1 = .error (.writeFailed "out" "disk full") :=
    ⟨_, rfl, by decide +kernel⟩
  obtain ⟨hlength, hresult, w', hw', -, hstore⟩ := hfollows.stops 1 w _ hw hfails
  refine ⟨rfl, hnever, by decide +kernel, hlength, hresult, w', hw', ?_, hstore⟩
  rw [← hstore]
  decide +kernel

end Flow

end Gleaner
