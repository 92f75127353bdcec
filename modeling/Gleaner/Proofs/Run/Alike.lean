import Gleaner.Proofs.Run.Agreement

/-!
# What an action asks of its document

An action whose input and whose variables mention elements only asks the
document about elements only: it does the same on each document that agrees with
its own. `Run.Alike` says so of two computations and goes through sequences
(`Alike.bind`), up to whole actions (`Action.alike_apply`).
-/

namespace Gleaner

variable {d d' : Document}

namespace Run

variable {σ α β : Type} {c : Contract} {P : α → Prop}

/-- Whether two computations do the same from all machines whose variables are
as a contract asks for. -/
def Alike (c : Contract) (r r' : Run σ α) : Prop :=
  ∀ m, c.store m.store → r'.start m = r.start m

namespace Alike

theorem of_eq {r r' : Run σ α} (h : r' = r) : Alike c r r' := fun m _ => congrArg (·.start m) h

theorem bind {r r' : Run σ α} {k k' : α → Run σ β} (hr : Alike c r r') (hp : Keeps c P r)
    (hk : ∀ a, P a → Alike c (k a) (k' a)) : Alike c (r >>= k) (r' >>= k') := by
  intro m hm
  refine start_bind_congr (hr m hm) fun a m' h => ?_
  obtain ⟨hm', ha⟩ := hp.of_ok hm h
  exact hk a ha m' hm'

theorem onStore {g g' : Store → Except Fault α × Store} (h : ∀ s, c.store s → g' s = g s) :
    Alike c (onStore g : Run σ α) (onStore g') := by
  intro m hm
  unfold Run.onStore
  rw [start_ofFunction, start_ofFunction, h m.store hm]

theorem tryStore {g g' : Store → Except Fault (α × Store)} (h : ∀ s, c.store s → g' s = g s) :
    Alike c (tryStore g : Run σ α) (tryStore g') := by
  refine .onStore fun s hs => ?_
  rw [Store.Change.whole, Store.Change.whole, h s hs]

end Alike

end Run

/-! ## Actions -/

namespace Action

open Run Contract

variable {σ : Type} {input : Value}

theorem keeps_nodeInput (hin : input.Within d) (a : Action) :
    Keeps (within d) (fun i => d.isElement i)
      (Run.ofExcept (a.nodeInput input) : Run σ NodeId) := by
  refine .ofExcept fun _ _ => ?_
  unfold nodeInput
  split
  · exact Value.within_node.mp hin
  · trivial

theorem keeps_tableInput (hin : input.Within d) :
    Keeps (within d) (fun is => ∀ i ∈ is, d.isElement i)
      (Run.ofExcept (tableInput input) : Run σ (List NodeId)) := by
  refine .ofExcept fun _ _ => ?_
  unfold tableInput
  split
  · exact List.forall_mem_singleton.mpr (Value.within_node.mp hin)
  · exact Value.within_nodes.mp hin
  · trivial

theorem keeps_branchInput (hin : input.Within d) :
    Keeps (within d) (fun is => ∀ i ∈ is, d.isElement i)
      (Run.ofExcept (branchInput input) : Run σ (List NodeId)) := by
  refine .ofExcept fun _ _ => ?_
  unfold branchInput
  split
  · exact Value.within_branch.mp hin
  · exact Value.within_nodes.mp hin
  · trivial

theorem contentOf_eq (h : d.Agrees d') (hin : input.Within d) (kind : FileKind) :
    contentOf d' kind input = contentOf d kind input := by
  unfold contentOf
  split
  · rfl
  · rfl
  · rw [Value.toJson_eq h hin]

theorem partOf_eq (h : d.Agrees d') {i : NodeId} (hi : d.isElement i) (part : String) :
    partOf d' i part = partOf d i part := by
  rw [partOf, partOf, h.text hi, h.attributes part hi]

theorem alike_resolve (h : d.Agrees d') (o : Operand) :
    Alike (within d) (Run.resolve d o : Run σ Value) (Run.resolve d' o) := by
  rw [Run.resolve_eq, Run.resolve_eq]
  exact .tryStore fun _ hs => Store.resolve_eq h hs o

theorem alike_cellOf (h : d.Agrees d') (o : Operand) :
    Alike (within d) (cellOf d o : Run σ String) (cellOf d' o) :=
  (alike_resolve h o).bind ((closed_within d).keeps_resolve o) fun _ hv =>
    .of_eq (congrArg pure (Value.cell_eq h hv))

theorem alike_valueOr (h : d.Agrees d') (o : Option Operand) :
    Alike (within d) (valueOr d input o : Run σ Value) (valueOr d' input o) := by
  cases o with
  | none => exact .of_eq rfl
  | some o => exact alike_resolve h o

theorem alike_keyOf (h : d.Agrees d') (a : Action) (u : Update) :
    Alike (within d) (a.keyOf d u : Run σ String) (a.keyOf d' u) := by
  unfold keyOf
  split
  · exact alike_cellOf h _
  · exact .of_eq rfl

theorem alike_addTo (h : d.Agrees d') (hin : input.Within d) (a : Action) (u : Update) :
    Alike (within d) (a.addTo d input u : Run σ Unit) (a.addTo d' input u) := by
  have hvalue : Keeps (within d) (within d).value (valueOr d input u.value : Run σ Value) :=
    keeps_valueOr (closed_within d) hin u.value
  unfold addTo
  split
  · exact (alike_valueOr h u.value).bind hvalue fun _ _ => .of_eq rfl
  · exact (alike_keyOf h a u).bind (keeps_keyOf (closed_within d) a (.inr fun _ _ => trivial))
      fun _ _ => (alike_valueOr h u.value).bind hvalue fun _ _ => .of_eq rfl
  · exact (alike_valueOr h u.value).bind hvalue fun _ _ => .of_eq rfl

theorem alike_removeFrom (h : d.Agrees d') (hin : input.Within d) (a : Action) (u : Update) :
    Alike (within d) (a.removeFrom d input u : Run σ Unit) (a.removeFrom d' input u) := by
  unfold removeFrom
  split
  · exact (alike_valueOr h u.value).bind (keeps_valueOr (closed_within d) hin u.value)
      fun _ _ => .of_eq rfl
  · exact (alike_keyOf h a u).bind (keeps_keyOf (closed_within d) a (.inr fun _ _ => trivial))
      fun _ _ => .of_eq rfl
  · exact .of_eq rfl

/-- An action does the same on documents that agree, if its input and the
variables mention elements only. -/
theorem alike_apply (h : d.Agrees d') (sink : Sink σ) (hin : input.Within d) (a : Action) :
    Alike (within d) (a.apply ⟨d, sink⟩ input) (a.apply ⟨d', sink⟩ input) := by
  have hc := closed_within d
  cases a with
  | find q =>
    exact (Alike.of_eq rfl).bind (keeps_nodeInput hin _) fun scope hscope =>
      .of_eq (congrArg Run.ofExcept (q.result_eq h hscope))
  | table q =>
    refine (Alike.of_eq rfl).bind (keeps_tableInput hin) fun is his => ?_
    refine (Alike.onStore fun s hs => Column.resolveAll_eq h hs).bind
      (hc.keeps_resolveAll q.columns) fun constants _ => .of_eq ?_
    dsimp only
    rw [Table.ofNodes_eq h his]
  | tree q =>
    refine (Alike.of_eq rfl).bind (keeps_nodeInput hin _) fun root hroot => .of_eq ?_
    dsimp only
    rw [Hierarchy.build_eq h hroot]
  | branch q =>
    refine (Alike.of_eq rfl).bind (keeps_branchInput hin) fun is his => ?_
    exact (Alike.onStore fun s hs => Table.ofBranch_eq h his hs q.tableIndex q.columns).bind
      (hc.keeps_ofBranch is q.tableIndex q.columns) fun _ _ => .of_eq rfl
  | get part =>
    exact (Alike.of_eq rfl).bind (keeps_nodeInput hin _) fun i hi =>
      .of_eq (congrArg pure (partOf_eq h hi part))
  | slice | pass => exact .of_eq rfl
  | wrap before after =>
    exact (Alike.of_eq rfl).bind (hc.keeps_ofExcept fun _ => stepOutcome_textInput _ input) fun s _ =>
      (alike_cellOf h before).bind (keeps_cellOf hc before) fun _ _ =>
        (alike_cellOf h after).bind (keeps_cellOf hc after) fun _ _ => .of_eq rfl
  | declare name kind value =>
    cases kind with
    | scalar =>
      cases value with
      | some o =>
        have hgiven : Keeps (within d) (fun _ => True)
            (some <$> Run.resolve d o : Run σ (Option Value)) :=
          (hc.keeps_resolve o).map fun _ _ => trivial
        have halike : Alike (within d) (some <$> Run.resolve d o : Run σ (Option Value))
            (some <$> Run.resolve d' o) :=
          (alike_resolve h o).bind (hc.keeps_resolve o) fun _ _ => .of_eq rfl
        exact halike.bind hgiven fun _ _ => .of_eq rfl
      | none => exact .of_eq rfl
    | list | mapping => exact .of_eq rfl
  | save s =>
    refine .of_eq ?_
    dsimp only [apply]
    rw [contentOf_eq h hin]
  | add u =>
    exact (alike_addTo h hin _ u).bind (keeps_addTo hc hin _ (.inr fun _ _ => trivial))
      fun _ _ => .of_eq rfl
  | remove u =>
    exact (alike_removeFrom h hin _ u).bind (keeps_removeFrom hc hin _ (.inr fun _ _ => trivial))
      fun _ _ => .of_eq rfl
  | read o => exact alike_resolve h o

end Action

end Gleaner
