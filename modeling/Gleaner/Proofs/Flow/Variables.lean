import Gleaner.Proofs.Flow.Program

/-!
# The variables of a flow

Which variables a flow is about can be read off its text. It mentions the targets
of its actions and the names that their operands refer to; what it may change are
the targets, and the lists that `$name.pop` takes elements from. What a run asks
of the variables keeps to both.

* `Flow.actions`: the actions of a flow, each with those below it;
* `Flow.Mentions`, `Flow.MayChange`: the names in a flow;
* `Flow.runAllOn`: the run of the top-level steps on an input, on any host;
* `Action.MayAsk.mentions`, `Action.MayAsk.mayChange`: what an action asks for is
  about names that it has.
-/

namespace Gleaner

/-! ## Names in actions and flows -/

namespace Action

/-- The variable that an action names as the one to declare or to change. -/
def target? : Action → Option String
  | declare name .. => some name
  | tree q => q.saveTo
  | add u | remove u => some u.name
  | find _ | table _ | branch _ | get _ | slice .. | wrap .. | save _ | read _ | pass => none

/-- Whether a name stands in an action, as its target or in an operand. -/
def Mentions (a : Action) (x : String) : Prop :=
  a.target? = some x ∨ ∃ o ∈ a.operands, o.name? = some x

/-- Whether an action has a variable as its target, or takes elements out of it. -/
def MayChange (a : Action) (x : String) : Prop :=
  a.target? = some x ∨ .pop x ∈ a.operands

instance (a : Action) (x : String) : Decidable (a.Mentions x) :=
  inferInstanceAs (Decidable (_ ∨ _))

instance (a : Action) (x : String) : Decidable (a.MayChange x) :=
  inferInstanceAs (Decidable (_ ∨ _))

variable {a : Action} {op : Store.Operation} {x : String}

/-- An operation that an action asks for is about a name in the action. -/
theorem MayAsk.mentions (h : a.MayAsk (.perform op)) (hx : op.name? = some x) : a.Mentions x := by
  cases h with
  | resolve ho => exact .inr ⟨_, ho, hx⟩
  | saveTo hq => exact .inl (hq.trans hx)
  | declare | append | insert | set | remove | removeKey => exact .inl hx

/-- An operation that an action asks for changes no variable but its target and
those that it takes elements out of. -/
theorem MayAsk.mayChange (h : a.MayAsk (.perform op)) (hx : op.target? = some x) :
    a.MayChange x := by
  cases h with
  | @resolve _ o ho =>
    cases o with
    | literal | var | path => cases hx
    | pop name =>
      cases hx
      exact .inr ho
  | saveTo hq => exact .inl (hq.trans hx)
  | declare | append | insert | set | remove | removeKey => exact .inl hx

end Action

namespace Flow

/-- The actions of a flow, each followed by those below it. -/
def actions : Flow → List Action
  | nil => []
  | step action _ below rest => action :: (below.actions ++ rest.actions)

theorem all_iff {p : Action → Prop} : ∀ {f : Flow}, f.All p ↔ ∀ a ∈ f.actions, p a
  | nil => ⟨fun _ => List.forall_mem_nil p, fun _ => trivial⟩
  | step action mode below rest => by
    rw [actions, List.forall_mem_cons, List.forall_mem_append]
    exact and_congr_right fun _ => and_congr all_iff all_iff

/-- Whether a name stands in a flow. -/
def Mentions (f : Flow) (x : String) : Prop :=
  ∃ a ∈ f.actions, a.Mentions x

/-- Whether a variable is the target of an action of a flow, or one takes elements
out of it. -/
def MayChange (f : Flow) (x : String) : Prop :=
  ∃ a ∈ f.actions, a.MayChange x

instance (f : Flow) (x : String) : Decidable (f.Mentions x) :=
  inferInstanceAs (Decidable (∃ a ∈ f.actions, a.Mentions x))

instance (f : Flow) (x : String) : Decidable (f.MayChange x) :=
  inferInstanceAs (Decidable (∃ a ∈ f.actions, a.MayChange x))

theorem Mentions.of_mayChange {f : Flow} {x : String} (h : f.MayChange x) : f.Mentions x := by
  obtain ⟨a, ha, hx⟩ := h
  exact ⟨a, ha, hx.imp_right fun ho => ⟨_, ho, rfl⟩⟩

/-! ## Runs on an input -/

variable {σ : Type}

/-- The program of the top-level steps of a flow on an input. -/
def programOn (d : Document) (input last : Value) (f : Flow) : Program Value :=
  f.atTop.programBelow d input last

/-- The run of the top-level steps of a flow on an input, on a host. -/
def runAllOn (e : Host σ) (input last : Value) (f : Flow) : Run σ Value :=
  (f.programOn e.document input last).run e

/-- On the host of a setting this is the run in the setting. -/
theorem runAllOn_host (e : Setting σ) (input last : Value) (f : Flow) :
    f.runAllOn e.host input last = f.runAll e input last := by
  rw [runAll_eq_runBelow, ← run_programBelow]
  rfl

/-- The writes that the run of a flow on an input makes, in order. -/
def writesOn (e : Host σ) (input last : Value) (f : Flow) (m : Machine σ) : List (Write σ) :=
  (f.programOn e.document input last).writes e m

/-- A flow on an input asks for nothing but what its actions may ask for. -/
theorem asks_programOn {P : Request → Prop} {f : Flow} {d : Document} {input last : Value}
    (h : ∀ a ∈ f.actions, ∀ request, a.MayAsk request → P request) :
    (f.programOn d input last).Asks P := by
  have hall : f.All (· ∈ f.actions) := all_iff.mpr fun _ ha => ha
  exact asks_programBelow h hall.atTop

/-- What a flow asks for has no name that none of its actions has, whichever of the
names of an operation is meant. -/
theorem asks_name_ne {nameOf : Store.Operation → Option String} {Has : Action → Prop} {f : Flow}
    {d : Document} {input last : Value} {x : String}
    (h : ∀ {a : Action} {op : Store.Operation}, a.MayAsk (.perform op) → nameOf op = some x → Has a)
    (hx : ¬∃ a ∈ f.actions, Has a) :
    (f.programOn d input last).Asks fun request =>
      ∀ op, request = .perform op → nameOf op ≠ some x := by
  refine asks_programOn fun a ha request hrequest op he hname => ?_
  subst he
  exact hx ⟨a, ha, h hrequest hname⟩

end Flow

end Gleaner
