import Gleaner.Proofs.Run.Action
import Gleaner.Run.Flow

/-!
# Runs of flows keep closed contracts

What all actions keep, loops and whole runs keep: by induction on the flow, for
the steps below a step (`Flow.keeps_runBelow`) and for the flow as a whole
(`Flow.keeps_run`). The flow must have no action that the contract does not
allow (`Flow.All`).
-/

namespace Gleaner

open Run

variable {σ : Type}

/-! ## Loops -/

namespace Mode

/-- The values that a mode runs a body for, if it can take a value apart. -/
def inputs? (mode : Mode) (v : Value) : Option (List Value) :=
  match mode with
  | atomic | recursive => some [v]
  | loop => v.elements?
  | branches =>
    match v with
    | .hierarchy t => some (t.branches.map .branch)
    | _ => none

variable {mode : Mode} {v : Value}

/-- A mode runs a body for its inputs, one after the other. -/
theorem spread_of_some {vs : List Value} (h : mode.inputs? v = some vs) (name : String)
    (body : Value → Run σ Value) : mode.spread name v body = each body .null vs := by
  cases mode with
  | atomic | recursive =>
    cases h
    exact (bind_pure (body v)).symm
  | loop =>
    dsimp only [inputs?] at h
    dsimp only [spread]
    rw [h]
  | branches =>
    dsimp only [inputs?] at h
    split at h <;> cases h
    exact along_eq_each body .null _

/-- The fault of a value that a mode cannot take apart. -/
def mismatch (mode : Mode) (name : String) (v : Value) : Fault :=
  match mode with
  | branches => .typeMismatch ("tree-dfs into " ++ Fault.inQuotes name) "hierarchy tree" v.typeName
  | _ => .typeMismatch ("loop into " ++ Fault.inQuotes name) "node collection or list" v.typeName

theorem mayCause_mismatch (s : Store) (mode : Mode) (name : String) (v : Value) :
    s.MayCause (mode.mismatch name v) := by
  cases mode <;> exact ⟨rfl, nofun⟩

/-- A mode that cannot take a value apart fails, whatever the body is. -/
theorem spread_of_none (h : mode.inputs? v = none) (name : String) (body : Value → Run σ Value) :
    mode.spread name v body = throw (mode.mismatch name v) := by
  cases mode with
  | atomic | recursive => cases h
  | loop =>
    dsimp only [inputs?] at h
    dsimp only [spread]
    rw [h]
    rfl
  | branches =>
    dsimp only [inputs?] at h
    split at h
    · cases h
    · rename_i hv
      dsimp only [spread]
      split
      · exact (hv _ rfl).elim
      · rfl

end Mode

namespace Contract.Closed

variable {c : Contract} {d : Document}

theorem value_of_mem_inputs (hc : c.Closed d) {mode : Mode} {v w : Value} {vs : List Value}
    (hv : c.value v) (h : mode.inputs? v = some vs) (hw : w ∈ vs) : c.value w := by
  cases mode with
  | atomic | recursive =>
    cases h
    exact List.mem_singleton.mp hw ▸ hv
  | loop => exact hc.elements hv h hw
  | branches =>
    dsimp only [Mode.inputs?] at h
    split at h <;> cases h
    obtain ⟨b, hb, rfl⟩ := List.mem_map.mp hw
    exact hc.branch hv hb

theorem keeps_spread (hc : c.Closed d) {v : Value} {body : Value → Run σ Value} (hv : c.value v)
    (hbody : ∀ w, c.value w → Keeps c c.value (body w)) (mode : Mode) (name : String) :
    Keeps c c.value (mode.spread name v body) := by
  cases hi : mode.inputs? v with
  | some vs =>
    rw [Mode.spread_of_some hi]
    exact .each (fun w hw => hbody w (hc.value_of_mem_inputs hv hi hw)) hc.null
  | none =>
    rw [Mode.spread_of_none hi]
    exact .throw fun s hs => hc.fault hs (mode.mayCause_mismatch s name v)

end Contract.Closed

/-! ## Flows -/

namespace Flow

/-- Whether all actions of a flow have a property. -/
def All (p : Action → Prop) : Flow → Prop
  | nil => True
  | step action _ below rest => p action ∧ below.All p ∧ rest.All p

/-- Whether no action of a flow lacks a key that it needs. -/
abbrev IsComplete (f : Flow) : Prop :=
  f.All Action.IsComplete

theorem All.imp {p q : Action → Prop} (h : ∀ a, p a → q a) : ∀ {f : Flow}, f.All p → f.All q
  | nil, _ => trivial
  | step _ _ _ _, ⟨ha, hbelow, hrest⟩ => ⟨h _ ha, hbelow.imp h, hrest.imp h⟩

theorem all_of_forall {p : Action → Prop} (h : ∀ a, p a) : ∀ f : Flow, f.All p
  | nil => trivial
  | step _ _ below rest => ⟨h _, all_of_forall h below, all_of_forall h rest⟩

/-- The flow whose top-level steps run once each. -/
def atTop : Flow → Flow
  | nil => nil
  | step action _ below rest => step action .atomic below rest.atTop

theorem All.atTop {p : Action → Prop} : ∀ {f : Flow}, f.All p → f.atTop.All p
  | nil, _ => trivial
  | step _ _ _ _, ⟨ha, hbelow, hrest⟩ => ⟨ha, hbelow, hrest.atTop⟩

/-- The top-level steps of a flow run as steps below do, whatever their modes. -/
theorem runAll_eq_runBelow (e : Setting σ) (input : Value) :
    ∀ (f : Flow) (last : Value), f.runAll e input last = f.atTop.runBelow e input last
  | nil, _ => rfl
  | step action _ below rest, _ =>
    congrArg (runStep e action below input >>= ·)
      (funext fun last => runAll_eq_runBelow e input rest last)

variable {c : Contract} {e : Setting σ}

theorem keeps_runStep (hc : c.Closed e.document) {action : Action} {below : Flow} {v : Value}
    (haction : c.Allows action)
    (hbelow : ∀ w, c.value w → Keeps c c.value (below.runBelow e w w)) (hv : c.value v) :
    Keeps c c.value (runStep e action below v) :=
  (Action.keeps_apply hc haction hv).bind hbelow

theorem keeps_runBelow (hc : c.Closed e.document) :
    ∀ {f : Flow} {above last : Value}, f.All c.Allows →
      c.value above → c.value last → Keeps c c.value (f.runBelow e above last)
  | nil, _, _, _, _, hlast => .pure hlast
  | step action mode below rest, _, _, ⟨haction, hbelow, hrest⟩, habove, _ => by
    have hbody : ∀ v, c.value v → Keeps c c.value (runStep e action below v) := fun v =>
      keeps_runStep hc haction fun w hw => keeps_runBelow hc hbelow hw hw
    exact (hc.keeps_spread habove hbody mode action.name).bind fun w hw =>
      keeps_runBelow hc hrest habove hw

/-- The run of a flow keeps a closed contract that allows the root as a value. -/
theorem keeps_run (hc : c.Closed e.document) {f : Flow}
    (hf : f.All c.Allows)
    (hroot : c.value (.node Document.root)) : Keeps c c.value (f.run e) := by
  unfold run
  rw [runAll_eq_runBelow]
  exact keeps_runBelow hc hf.atTop hroot hc.null

end Flow

end Gleaner
