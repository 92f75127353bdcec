import Gleaner.Hierarchy.Branch
import Gleaner.Proofs.Hierarchy.Preorder
import Gleaner.Proofs.Run.Outcome

/-!
# Contracts of runs

A contract says what is to hold of the variables, of the values and of the
faults of a run. A computation keeps it if it leaves the variables as asked for
whenever it finds them so, whether it succeeds or fails, and ends with a value
of some property or with an allowed fault (`Run.Keeps`). Keeping is closed under
everything that runs are made of, such as sequences (`Run.Keeps.bind`) and loops
(`Run.Keeps.each`).

`Contract.Closed` lists what a contract must allow so that all actions keep it:
`Action.keeps_apply`. An action is complete if it has the key that a change of a
mapping needs; only an incomplete action ends a run with a fault that lies in
the definition of the flow.
-/

namespace Gleaner

variable {σ α β : Type}

/-- What is asked of the variables of a run, of the values in it, and of the fault
that may end it. -/
structure Contract where
  store : Store → Prop
  value : Value → Prop
  fault : Fault → Prop

namespace Run

/-! ## Runs from a machine on -/

theorem start_ofFunction (g : Machine σ → Except Fault α × Machine σ) (m : Machine σ) :
    (ofFunction g).start m = g m := rfl

theorem start_onStore (g : Store → Except Fault α × Store) (m : Machine σ) :
    (onStore g : Run σ α).start m = ((g m.store).1, ⟨(g m.store).2, m.sink⟩) := rfl

theorem start_bind_of_ok {r : Run σ α} {m m' : Machine σ} {a : α} (k : α → Run σ β)
    (h : r.start m = (.ok a, m')) : (r >>= k).start m = (k a).start m' := by
  change (ExceptT.bindCont k (r.start m).1 |>.run (r.start m).2) = _
  rw [h]
  rfl

theorem start_bind_of_error {r : Run σ α} {m m' : Machine σ} {f : Fault} (k : α → Run σ β)
    (h : r.start m = (.error f, m')) : (r >>= k).start m = (.error f, m') := by
  change (ExceptT.bindCont k (r.start m).1 |>.run (r.start m).2) = _
  rw [h]
  rfl

/-- Two sequences do the same from a machine on if their first steps do, and what
comes after these. -/
theorem start_bind_congr {r r' : Run σ α} {k k' : α → Run σ β} {m : Machine σ}
    (hr : r'.start m = r.start m)
    (hk : ∀ a m', r.start m = (.ok a, m') → (k' a).start m' = (k a).start m') :
    (r' >>= k').start m = (r >>= k).start m := by
  rcases h : r.start m with ⟨f | a, m'⟩ <;> rw [h] at hr
  · rw [start_bind_of_error k h, start_bind_of_error k' hr]
  · rw [start_bind_of_ok k h, start_bind_of_ok k' hr]
    exact hk a m' h

/-! ## Keeping a contract -/

/-- Whether a computation that finds the variables as a contract asks for leaves
them so, and ends with a value of a property or with an allowed fault. -/
def Keeps (c : Contract) (Q : α → Prop) (r : Run σ α) : Prop :=
  ∀ m, c.store m.store → c.store (r.start m).2.store ∧ Ends Q c.fault (r.start m).1

variable {c : Contract} {P Q : α → Prop} {R : β → Prop}

namespace Keeps

theorem pure {a : α} (h : Q a) : Keeps c Q (pure a : Run σ α) := fun _ hm => ⟨hm, h⟩

theorem of_ok {r : Run σ α} {m m' : Machine σ} {a : α} (hr : Keeps c Q r) (hm : c.store m.store)
    (h : r.start m = (.ok a, m')) : c.store m'.store ∧ Q a := by
  have hk := hr m hm
  rwa [h] at hk

theorem throw {f : Fault} (h : ∀ s, c.store s → c.fault f) : Keeps c Q (throw f : Run σ α) :=
  fun m hm => ⟨hm, h m.store hm⟩

theorem bind {r : Run σ α} {k : α → Run σ β} (hr : Keeps c P r) (hk : ∀ a, P a → Keeps c R (k a)) :
    Keeps c R (r >>= k) := by
  intro m hm
  obtain ⟨hs, ho⟩ := hr m hm
  rcases h : r.start m with ⟨a | f, m'⟩ <;> rw [h] at hs ho
  · rw [start_bind_of_error k h]
    exact ⟨hs, ho⟩
  · rw [start_bind_of_ok k h]
    exact hk _ ho m' hs

theorem map {r : Run σ α} {g : α → β} (hr : Keeps c P r) (hg : ∀ a, P a → R (g a)) :
    Keeps c R (g <$> r) :=
  hr.bind (k := fun a => Pure.pure (g a)) fun a ha => .pure (hg a ha)

theorem ofExcept {r : Except Fault α} (h : ∀ s, c.store s → Ends Q c.fault r) :
    Keeps c Q (ofExcept r : Run σ α) := fun m hm => ⟨hm, h m.store hm⟩

theorem onStore {g : Store → Except Fault α × Store}
    (h : ∀ s, c.store s → c.store (g s).2 ∧ Ends Q c.fault (g s).1) :
    Keeps c Q (onStore g : Run σ α) := fun m hm => h m.store hm

theorem tryStore {g : Store → Except Fault (α × Store)}
    (h : ∀ s, c.store s → Ends (fun r => Q r.1 ∧ c.store r.2) c.fault (g s)) :
    Keeps c Q (tryStore g : Run σ α) := by
  refine .onStore fun s hs => ?_
  have hg := h s hs
  cases he : g s with
  | ok r =>
    rw [Store.Change.whole_of_ok he]
    rw [he] at hg
    exact hg.symm
  | error f =>
    rw [Store.Change.whole_of_error he]
    rw [he] at hg
    exact ⟨hs, hg⟩

theorem update {g : Store → Except Fault Store}
    (h : ∀ s, c.store s → Ends c.store c.fault (g s)) :
    Keeps c (fun _ => True) (update g : Run σ Unit) :=
  tryStore fun s hs => (h s hs).map fun _ hs' => ⟨trivial, hs'⟩

theorem write {sink : Sink σ} (save : Save) (content : Content)
    (h : ∀ path cause s, c.store s → c.fault (.writeFailed path cause)) :
    Keeps c (fun _ => True) (write sink save content : Run σ Unit) := by
  intro m hm
  refine ⟨hm, ?_⟩
  unfold Run.write
  rw [start_ofFunction]
  dsimp only
  split
  · trivial
  · exact h _ _ m.store hm

/-- A loop keeps what its body keeps. -/
theorem each {Q : Value → Prop} {body : Value → Run σ Value} :
    ∀ {vs : List Value} {last : Value}, (∀ v ∈ vs, Keeps c Q (body v)) → Q last →
      Keeps c Q (each body last vs)
  | [], _, _, hlast => .pure hlast
  | v :: _, _, hbody, _ =>
    (hbody v List.mem_cons_self).bind fun _ hw =>
      each (fun v hv => hbody v (List.mem_cons_of_mem _ hv)) hw

end Keeps

end Run

/-! ## Contracts that actions keep -/

/-- Whether a contract allows whatever actions and loops are made of: the values
that they give, the faults that the variables may cause, and the operations on
variables. Of the nodes in a new value no more is known than that they are
elements. -/
structure Contract.Closed (c : Contract) (d : Document) : Prop where
  null : c.value .null
  text : ∀ s, c.value (.text s)
  table : ∀ t, c.value (.table t)
  node : ∀ i, d.isElement i → c.value (.node i)
  nodes : ∀ is : List NodeId, (∀ i ∈ is, d.isElement i) → c.value (.nodes is)
  hierarchy : ∀ t : Hierarchy, (∀ i ∈ t.nodes, d.isElement i) → c.value (.hierarchy t)
  elements : ∀ {v vs w}, c.value v → v.elements? = some vs → w ∈ vs → c.value w
  branch : ∀ {t b}, c.value (.hierarchy t) → b ∈ t.branches → c.value (.branch b)
  fault : ∀ {s f}, c.store s → s.MayCause f → c.fault f
  resolve : ∀ {s o v s'}, c.store s → s.resolve d o = .ok (v, s') → c.value v ∧ c.store s'
  declare : ∀ {s} name kind {given}, c.store s → (∀ v, given = some v → c.value v) →
    c.value (kind.start given) ∧ c.store (s.declare name kind given)
  set : ∀ {s name v s'}, c.store s → c.value v → s.set name v = .ok s' → c.store s'
  append : ∀ {s name v s'}, c.store s → c.value v → s.append name v = .ok s' → c.store s'
  insert : ∀ {s name key v s'}, c.store s → c.value v → s.insert name key v = .ok s' → c.store s'
  remove : ∀ {s name v s'}, c.store s → s.remove name v = .ok s' → c.store s'
  removeKey : ∀ {s name key v s'}, c.store s → s.removeKey name key = .ok (v, s') → c.store s'

/-- Whether an action has the key that a change of a mapping needs. -/
def Action.IsComplete : Action → Prop
  | add u | remove u => u.kind = .mapping → u.key.isSome
  | _ => True

/-- Whether a contract allows the runs of an action: the action is complete, or
all faults in the definition of a flow are allowed. -/
def Contract.Allows (c : Contract) (a : Action) : Prop :=
  a.IsComplete ∨ ∀ f : Fault, f.isDefinitionFault = true → c.fault f

namespace Contract.Closed

open Run

variable {c : Contract} {d : Document}

/-- A closed contract allows the faults of the steps of a run. -/
theorem ends (hc : c.Closed d) {s : Store} (hs : c.store s) {P Q : α → Prop} {r : Except Fault α}
    (h : Ends P s.MayCause r) (hQ : ∀ a, r = .ok a → Q a) : Ends Q c.fault r :=
  h.mono (fun a ha _ => hQ a ha) fun _ => hc.fault hs

theorem keeps_ofExcept (hc : c.Closed d) {r : Except Fault α} (h : ∀ s, StepOutcome s r) :
    Keeps c (fun _ => True) (Run.ofExcept r : Run σ α) :=
  .ofExcept fun s hs => hc.ends hs (h s) fun _ _ => trivial

theorem keeps_update (hc : c.Closed d) {g : Store → Except Fault Store}
    (h : ∀ s, StepOutcome s (g s)) (hg : ∀ s s', c.store s → g s = .ok s' → c.store s') :
    Keeps c (fun _ => True) (Run.update g : Run σ Unit) :=
  .update fun s hs => hc.ends hs (h s) fun s' => hg s s' hs

theorem keeps_resolve (hc : c.Closed d) (o : Operand) :
    Keeps c c.value (Run.resolve d o : Run σ Value) := by
  rw [Run.resolve_eq]
  exact .tryStore fun s hs => hc.ends hs (s.stepOutcome_resolve d o) fun _ => hc.resolve hs

theorem keeps_declare (hc : c.Closed d) (name : String) (kind : Kind) {given : Option Value}
    (h : ∀ v, given = some v → c.value v) :
    Keeps c c.value (Run.declare name kind given : Run σ Value) :=
  .onStore fun _ hs => (hc.declare name kind hs h).symm

theorem store_resolve (hc : c.Closed d) {s : Store} (hs : c.store s) (column : Column) :
    c.store (column.resolve d s).2 := by
  change c.store (Store.Change.resolve d column.source s).2
  rw [Store.Change.resolve_eq]
  exact Store.Change.snd_whole hs fun v s' h => (hc.resolve hs h).2

theorem store_branchValue (hc : c.Closed d) {s : Store} (hs : c.store s) (branch : List NodeId)
    (column : Column) : c.store (Table.branchValue d s branch column).2 := by
  unfold Table.branchValue
  split
  · exact hs
  · exact hc.store_resolve hs column

/-- Resolving columns keeps the variables as asked for, also when one fails, and a
column that fails does so on the variables as the columns before have left them. -/
theorem ends_resolveAll (hc : c.Closed d) :
    ∀ {s : Store} (columns : List Column), c.store s →
      c.store (Column.resolveAll d s columns).2 ∧
        Ends (fun _ => True) c.fault (Column.resolveAll d s columns).1
  | _, [], hs => ⟨hs, trivial⟩
  | s, column :: rest, hs => by
    have hfault := column.stepOutcome_resolve d s
    have hstore := hc.store_resolve hs column
    unfold Column.resolveAll
    split
    · rename_i f s' hf
      rw [hf] at hfault hstore
      exact ⟨hstore, hc.fault hs hfault⟩
    · rename_i text s' htext
      rw [htext] at hstore
      obtain ⟨hs'', hends⟩ := ends_resolveAll hc rest hstore
      exact ⟨hs'', hends.map fun _ _ => trivial⟩

theorem ends_branchValues (hc : c.Closed d) (branch : List NodeId) :
    ∀ {s : Store} (columns : List Column), c.store s →
      c.store (Table.branchValues d s branch columns).2 ∧
        Ends (fun _ => True) c.fault (Table.branchValues d s branch columns).1
  | _, [], hs => ⟨hs, trivial⟩
  | s, column :: rest, hs => by
    have hfault := Table.stepOutcome_branchValue d s branch column
    have hstore := hc.store_branchValue hs branch column
    unfold Table.branchValues
    split
    · rename_i f s' hf
      rw [hf] at hfault hstore
      exact ⟨hstore, hc.fault hs hfault⟩
    · rename_i text s' htext
      rw [htext] at hstore
      obtain ⟨hs'', hends⟩ := ends_branchValues hc branch rest hstore
      exact ⟨hs'', hends.map fun _ _ => trivial⟩

theorem keeps_resolveAll (hc : c.Closed d) (columns : List Column) :
    Keeps c (fun _ => True)
      (Run.onStore fun s => Column.resolveAll d s columns : Run σ (List (String × String))) :=
  .onStore fun _ hs => hc.ends_resolveAll columns hs

theorem keeps_ofBranch (hc : c.Closed d) (branch : List NodeId) (tableIndex : Option Nat)
    (columns : List Column) :
    Keeps c (fun _ => True)
      (Run.onStore fun s => Table.ofBranch d s branch tableIndex columns : Run σ Table) :=
  .onStore fun s hs => by
    obtain ⟨hs', hends⟩ := hc.ends_branchValues branch columns hs
    refine ⟨hs', hends.bind fun constants _ => ?_⟩
    exact hc.ends hs (Table.stepOutcome_ofBranchWith d branch tableIndex constants)
      fun _ _ => trivial

end Contract.Closed

end Gleaner
