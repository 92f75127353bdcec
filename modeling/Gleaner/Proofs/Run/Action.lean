import Gleaner.Proofs.Run.Contract

/-!
# Actions keep closed contracts

An action keeps each contract that allows what actions are made of
(`Action.keeps_apply`), with one proviso: an action that lacks the key for a
change of a mapping ends a run with a fault that lies in the definition of the
flow, so it must be complete or the contract must allow all faults.

The nodes in the values that actions make are elements, whatever their input is:
`NodeQuery.isElement_of_mem_nodes` and `Hierarchy.isElement_of_mem_build`.
-/

namespace Gleaner

variable {σ : Type}

/-! ## The nodes that actions find -/

theorem NodeQuery.isElement_of_mem_nodes {q : NodeQuery} {d : Document} {scope i : NodeId}
    (h : i ∈ q.nodes d scope) : d.isElement i :=
  Document.isElement_of_mem_findAll (List.mem_filter.mp h).1

theorem Hierarchy.isElement_of_mem_build {d : Document} {root : NodeId} {start stop : Option Marker}
    {levels : Levels} {t : Hierarchy} (h : build d root start stop levels = .ok t) :
    ∀ i ∈ t.nodes, d.isElement i := by
  obtain ⟨nodes, hslice, rfl⟩ := build_eq_ok.mp h
  have hnodes : (ofNodes levels.leafLevel (levels.levelIn? d) nodes).nodes =
      nodes.filter fun i => (levels.levelIn? d i).isSome :=
    nodes_ofNodes fun _ _ _ hl => Levels.le_leafLevel hl
  intro i hi
  rw [hnodes] at hi
  exact Document.isElement_of_mem_following
    ((Document.slice_sublist hslice).subset (List.mem_filter.mp hi).1)

namespace Contract.Closed

variable {c : Contract} {d : Document} (hc : c.Closed d)

include hc

theorem value_result {q : NodeQuery} {scope : NodeId} {v : Value} (h : q.result d scope = .ok v) :
    c.value v := by
  have hq : ∀ i ∈ q.nodes d scope, d.isElement i := fun i => q.isElement_of_mem_nodes
  unfold NodeQuery.result at h
  dsimp only at h
  split at h
  · cases h
    exact hc.nodes _ hq
  · split at h
    · rename_i i rest hfound
      cases h
      exact hc.node i (hq i (hfound ▸ List.mem_cons_self))
    · cases h

theorem value_partOf (i : NodeId) (part : String) : c.value (Action.partOf d i part) := by
  unfold Action.partOf
  split
  · exact hc.text _
  · cases d.attribute? i part with
    | none => exact hc.null
    | some s => exact hc.text s

end Contract.Closed

namespace Action

open Run

variable {c : Contract} {e : Setting σ} {d : Document} {input : Value}

/-! ## Steps of actions -/

theorem keeps_cellOf (hc : c.Closed d) (o : Operand) :
    Keeps c (fun _ => True) (cellOf d o : Run σ String) :=
  (hc.keeps_resolve o).bind fun _ _ => .pure trivial

theorem keeps_valueOr (hc : c.Closed d) (hin : c.value input) (o : Option Operand) :
    Keeps c c.value (valueOr d input o : Run σ Value) := by
  cases o with
  | none => exact .pure hin
  | some o => exact hc.keeps_resolve o

theorem keeps_keyOf (hc : c.Closed d) (a : Action) {u : Update}
    (h : u.key.isSome ∨ ∀ f : Fault, f.isDefinitionFault = true → c.fault f) :
    Keeps c (fun _ => True) (a.keyOf d u : Run σ String) := by
  unfold keyOf
  split
  · exact keeps_cellOf hc _
  · rename_i hkey
    rw [hkey] at h
    exact .throw fun _ _ => h.resolve_left Bool.false_ne_true _ rfl

theorem keeps_addTo (hc : c.Closed d) (hin : c.value input) (a : Action) {u : Update}
    (h : (u.kind = .mapping → u.key.isSome) ∨
      ∀ f : Fault, f.isDefinitionFault = true → c.fault f) :
    Keeps c (fun _ => True) (a.addTo d input u : Run σ Unit) := by
  unfold addTo
  simp only [onStore_append, onStore_insert, onStore_set]
  split
  · exact (keeps_valueOr hc hin _).bind fun v hv =>
      hc.keeps_update (fun s => s.stepOutcome_append u.name v) fun _ _ hs => hc.append hs hv
  · rename_i hkind
    exact (keeps_keyOf hc a (h.imp_left fun h => h hkind)).bind fun key _ =>
      (keeps_valueOr hc hin _).bind fun v hv =>
        hc.keeps_update (fun s => s.stepOutcome_insert u.name key v) fun _ _ hs => hc.insert hs hv
  · exact (keeps_valueOr hc hin _).bind fun v hv =>
      hc.keeps_update (fun s => s.stepOutcome_set u.name v) fun _ _ hs => hc.set hs hv

theorem keeps_removeFrom (hc : c.Closed d) (hin : c.value input) (a : Action) {u : Update}
    (h : (u.kind = .mapping → u.key.isSome) ∨
      ∀ f : Fault, f.isDefinitionFault = true → c.fault f) :
    Keeps c (fun _ => True) (a.removeFrom d input u : Run σ Unit) := by
  unfold removeFrom
  simp only [onStore_remove, onStore_removeKey]
  split
  · exact (keeps_valueOr hc hin _).bind fun v _ =>
      hc.keeps_update (fun s => s.stepOutcome_remove u.name v) fun _ _ hs => hc.remove hs
  · rename_i hkind
    refine (keeps_keyOf hc a (h.imp_left fun h => h hkind)).bind fun key _ => ?_
    refine hc.keeps_update (fun s => (s.stepOutcome_removeKey u.name key).map fun _ _ => trivial)
      fun s s' hs h => ?_
    obtain ⟨⟨v, s''⟩, hr, rfl⟩ := map_eq_ok.mp h
    exact hc.removeKey hs hr
  · exact .throw fun s hs => hc.fault hs ⟨rfl, nofun⟩

/-! ## Actions -/

/-- An action keeps a closed contract that allows it. -/
theorem keeps_apply (hc : c.Closed e.document) {a : Action} (h : c.Allows a)
    (hin : c.value input) : Keeps c c.value (a.apply e input) := by
  cases a with
  | find q =>
    exact (hc.keeps_ofExcept fun _ => stepOutcome_nodeInput _ input).bind fun scope _ =>
      .ofExcept fun _ hs =>
        hc.ends hs (q.stepOutcome_result e.document scope) fun _ => hc.value_result
  | table q =>
    refine (hc.keeps_ofExcept fun _ => stepOutcome_tableInput input).bind fun nodes _ => ?_
    exact (hc.keeps_resolveAll q.columns).bind fun constants _ =>
      (hc.keeps_ofExcept fun _ => Table.stepOutcome_ofNodes ..).bind fun t _ => .pure (hc.table t)
  | tree q =>
    refine (hc.keeps_ofExcept fun _ => stepOutcome_nodeInput _ input).bind fun root _ => ?_
    have hbuild : Keeps c (fun t => c.value (.hierarchy t))
        (Run.ofExcept (Hierarchy.build e.document root q.start q.stop q.levels) : Run σ _) :=
      .ofExcept fun _ hs => hc.ends hs (Hierarchy.stepOutcome_build ..) fun t ht =>
        hc.hierarchy t (Hierarchy.isElement_of_mem_build ht)
    refine hbuild.bind fun t ht => ?_
    split
    · exact hc.keeps_declare _ .scalar fun v hv => Option.some.inj hv ▸ ht
    · exact .pure ht
  | branch q =>
    refine (hc.keeps_ofExcept fun _ => stepOutcome_branchInput input).bind fun nodes _ => ?_
    exact (hc.keeps_ofBranch nodes q.tableIndex q.columns).map fun t _ => hc.table t
  | get part =>
    exact (hc.keeps_ofExcept fun _ => stepOutcome_nodeInput _ input).bind fun i _ =>
      .pure (hc.value_partOf i part)
  | slice start stop =>
    exact (hc.keeps_ofExcept fun _ => stepOutcome_textInput _ input).bind fun s _ => .pure (hc.text _)
  | wrap before after =>
    exact (hc.keeps_ofExcept fun _ => stepOutcome_textInput _ input).bind fun s _ =>
      (keeps_cellOf hc before).bind fun _ _ => (keeps_cellOf hc after).bind fun _ _ =>
        .pure (hc.text _)
  | declare name kind value =>
    have hnone : Keeps c (fun given => ∀ v, given = some v → c.value v)
        (pure none : Run σ (Option Value)) := .pure nofun
    cases kind with
    | scalar =>
      cases value with
      | some o =>
        exact ((hc.keeps_resolve o).map fun v hv w hw => Option.some.inj hw ▸ hv).bind
          fun given h => hc.keeps_declare name .scalar h
      | none => exact hnone.bind fun given h => hc.keeps_declare name .scalar h
    | list => exact hnone.bind fun given h => hc.keeps_declare name .list h
    | mapping => exact hnone.bind fun given h => hc.keeps_declare name .mapping h
  | save s =>
    exact (hc.keeps_ofExcept fun _ => stepOutcome_contentOf input e.document s.kind).bind fun content _ =>
      (Keeps.write s content fun _ _ _ hs => hc.fault hs ⟨rfl, nofun⟩).bind fun _ _ => .pure hin
  | add u => exact (keeps_addTo hc hin _ h).bind fun _ _ => .pure hin
  | remove u => exact (keeps_removeFrom hc hin _ h).bind fun _ _ => .pure hin
  | read o => exact hc.keeps_resolve o
  | pass => exact .pure hin

end Action

end Gleaner
