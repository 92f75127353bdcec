import Gleaner.Proofs.Run.Flow

/-!
# The calls of a run

A run goes through states that its result does not show. `Flow.Makes` says which
calls the run of a flow makes: actions that are applied to an input, from a
machine on, at any depth and in any turn of a loop.

* `Flow.Calls`: the calls of the steps below a step, and `Flow.Makes`;
* `Flow.Calls.contract`, `Call.contract`: what a call finds and leaves, by a
  closed contract;
* `Flow.start_run_congr`: a run is determined by the outcomes of its calls.
-/

namespace Gleaner

open Run

variable {σ : Type}

/-- An action about to be applied: its input and the machine before it. -/
structure Call (σ : Type) where
  action : Action
  input : Value
  machine : Machine σ

/-- What an action that is applied comes to. -/
def Call.outcome (e : Setting σ) (call : Call σ) : Except Fault Value × Machine σ :=
  (call.action.apply e call.input).start call.machine

/-- Whether a loop over some values from a machine on comes to run its body for
a value from a machine on. -/
inductive Run.Enters (body : Value → Run σ Value) :
    List Value → Machine σ → Value → Machine σ → Prop where
  | here {v : Value} {vs : List Value} {m : Machine σ} : Enters body (v :: vs) m v m
  | later {v w u : Value} {vs : List Value} {m m' m'' : Machine σ} :
    (body v).start m = (.ok w, m') → Enters body vs m' u m'' → Enters body (v :: vs) m u m''

namespace Flow

/-- Whether the steps of a flow, below a step with a result and from a machine
on, come to make a call. -/
inductive Calls (e : Setting σ) : Flow → Value → Machine σ → Call σ → Prop where
  | self {action : Action} {mode : Mode} {below rest : Flow} {above input : Value}
      {inputs : List Value} {m m' : Machine σ} : mode.inputs? above = some inputs →
    Enters (runStep e action below) inputs m input m' →
      Calls e (.step action mode below rest) above m ⟨action, input, m'⟩
  | inner {action : Action} {mode : Mode} {below rest : Flow} {above input v : Value}
      {inputs : List Value} {m m' m'' : Machine σ} {call : Call σ} :
    mode.inputs? above = some inputs → Enters (runStep e action below) inputs m input m' →
    (action.apply e input).start m' = (.ok v, m'') → Calls e below v m'' call →
      Calls e (.step action mode below rest) above m call
  | after {action : Action} {mode : Mode} {below rest : Flow} {above last : Value}
      {m m' : Machine σ} {call : Call σ} :
    (mode.spread action.name above (runStep e action below)).start m = (.ok last, m') →
    Calls e rest above m' call → Calls e (.step action mode below rest) above m call

/-- Whether the run of a flow from a machine on comes to make a call. -/
def Makes (e : Setting σ) (f : Flow) (m : Machine σ) (call : Call σ) : Prop :=
  Calls e f.atTop (.node Document.root) m call

end Flow

namespace Run

variable {c : Contract} {Q : Value → Prop}

theorem Enters.contract {body : Value → Run σ Value} {vs : List Value} {v : Value}
    {m m' : Machine σ} (h : Enters body vs m v m') (hbody : ∀ w ∈ vs, Keeps c Q (body w))
    (hm : c.store m.store) : v ∈ vs ∧ c.store m'.store := by
  induction h with
  | here => exact ⟨List.mem_cons_self, hm⟩
  | later hv _ ih =>
    have hs := ((hbody _ List.mem_cons_self).of_ok hm hv).1
    obtain ⟨hmem, hs'⟩ := ih (fun w hw => hbody w (List.mem_cons_of_mem _ hw)) hs
    exact ⟨List.mem_cons_of_mem _ hmem, hs'⟩

end Run

namespace Flow

variable {c : Contract} {e : Setting σ}

/-- A call finds its input and the variables as a closed contract asks for. -/
theorem Calls.contract (hc : c.Closed e.document) {f : Flow} {above : Value} {m : Machine σ}
    {call : Call σ} (h : f.Calls e above m call)
    (hf : f.All c.Allows) (habove : c.value above) (hm : c.store m.store) :
    c.Allows call.action ∧ c.value call.input ∧ c.store call.machine.store := by
  have hstep : ∀ {action below}, c.Allows action → below.All c.Allows → ∀ v, c.value v →
      Keeps c c.value (runStep e action below v) := fun ha hb v =>
    keeps_runStep hc ha fun w hw => keeps_runBelow hc hb hw hw
  induction h with
  | self hinputs henters =>
    obtain ⟨haction, hbelow, -⟩ := hf
    have hin := fun w => hc.value_of_mem_inputs habove hinputs (w := w)
    obtain ⟨hmem, hs⟩ := henters.contract (fun w hw => hstep haction hbelow w (hin w hw)) hm
    exact ⟨haction, hin _ hmem, hs⟩
  | inner hinputs henters hv _ ih =>
    obtain ⟨haction, hbelow, -⟩ := hf
    have hin := fun w => hc.value_of_mem_inputs habove hinputs (w := w)
    obtain ⟨hmem, hs⟩ := henters.contract (fun w hw => hstep haction hbelow w (hin w hw)) hm
    -- The steps below start from what the action leaves and gives.
    obtain ⟨hs', hval⟩ := (Action.keeps_apply hc haction (hin _ hmem)).of_ok hs hv
    exact ih hbelow hval hs'
  | after hlast _ ih =>
    obtain ⟨haction, hbelow, hrest⟩ := hf
    have hs := ((hc.keeps_spread habove (hstep haction hbelow) _ _).of_ok hm hlast).1
    exact ih hrest habove hs

end Flow

/-- A call leaves the variables as a closed contract asks for, and its result is
as asked for. -/
theorem Call.contract {c : Contract} {e : Setting σ} (hc : c.Closed e.document) {call : Call σ}
    (h : c.Allows call.action ∧ c.value call.input ∧ c.store call.machine.store) :
    c.store (call.outcome e).2.store ∧ Ends c.value c.fault (call.outcome e).1 :=
  Action.keeps_apply hc h.1 h.2.1 call.machine h.2.2

/-! ## A run is determined by its calls -/

/-- Two loops do the same if their bodies do wherever the first one runs its
body. -/
theorem Run.start_each_congr {body body' : Value → Run σ Value} :
    ∀ {vs : List Value} {last : Value} {m : Machine σ},
      (∀ v m', Enters body vs m v m' → (body' v).start m' = (body v).start m') →
        (each body' last vs).start m = (each body last vs).start m
  | [], _, _, _ => rfl
  | v :: _, _, m, h => start_bind_congr (h v m .here) fun _ _ hv =>
    start_each_congr fun u m'' hu => h u m'' (.later hv hu)

namespace Flow

variable {e e' : Setting σ}

/-- Below a step, a flow does the same in two settings if the calls that it makes
in the first one have the same outcomes in both. -/
theorem start_runBelow_congr :
    ∀ {f : Flow} {above last : Value} {m : Machine σ},
      (∀ call, f.Calls e above m call → call.outcome e' = call.outcome e) →
        (f.runBelow e' above last).start m = (f.runBelow e above last).start m
  | nil, _, _, _, _ => rfl
  | step action mode below rest, above, _, m, h => by
    refine start_bind_congr ?_ fun w m' hw => ?_
    · cases hi : mode.inputs? above with
      | none =>
        rw [Mode.spread_of_none hi, Mode.spread_of_none hi]
      | some inputs =>
        rw [Mode.spread_of_some hi, Mode.spread_of_some hi]
        refine start_each_congr fun v m' hv => ?_
        refine start_bind_congr (h _ (.self hi hv)) fun w m'' hw => ?_
        exact start_runBelow_congr fun call hcall => h call (.inner hi hv hw hcall)
    · exact start_runBelow_congr fun call hcall => h call (.after hw hcall)

/-- A run is the same in two settings if the calls that it makes in the first one
have the same outcomes in both. -/
theorem start_run_congr {f : Flow} {m : Machine σ}
    (h : ∀ call, f.Makes e m call → call.outcome e' = call.outcome e) :
    (f.run e').start m = (f.run e).start m := by
  unfold run
  rw [runAll_eq_runBelow, runAll_eq_runBelow]
  exact start_runBelow_congr h

end Flow

end Gleaner
