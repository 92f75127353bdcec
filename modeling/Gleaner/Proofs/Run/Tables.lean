import Gleaner.Proofs.Flow.Program
import Gleaner.Proofs.Table.BranchColumn
import Gleaner.Proofs.Table.Projection

/-!
# Tables of a collection

The tables at some nodes are projected into one: it has the header of the first projection
and the rows of all, one table after the other. The fixed columns are resolved before that,
once for all tables, so that what a column takes out of a list does not depend on the nodes.

* `Resolves`: columns that are resolved one after the other, with
  `Program.resolves_columns`: it is what an action asks for;
* `Table.ofNodes_eq_ok_iff`, `Table.Missing`: the projection of a collection, and its fault;
* `Table.ofNodes_append_eq_ok_iff`: a collection in two parts;
* `Action.Collects`, `Action.table_collects`: the whole statement.
-/

namespace Gleaner

open Program

variable {σ : Type}

/-! ## Columns -/

/-- Columns that are resolved one after the other from a machine on, up to the first fault:
the requests that this makes, what it comes to, and the machine that it leaves. -/
inductive Resolves (e : Host σ) : Machine σ → List Column → List (Event σ) →
    Except Fault (List (String × String)) → Machine σ → Prop where
  | nil {m : Machine σ} : Resolves e m [] [] (.ok []) m
  | fault {m m' : Machine σ} {c : Column} {rest : List Column} {f : Fault} :
    ((Request.perform (.resolve c.source)).answer e).start m = (.error f, m') →
    Resolves e m (c :: rest) [⟨.perform (.resolve c.source), m⟩] (.error f) m'
  | column {m m' m'' : Machine σ} {c : Column} {rest : List Column} {v : Value}
    {events : List (Event σ)} {r : Except Fault (List (String × String))} :
    ((Request.perform (.resolve c.source)).answer e).start m = (.ok v, m') →
    Resolves e m' rest events r m'' →
    Resolves e m (c :: rest) (⟨.perform (.resolve c.source), m⟩ :: events)
      (r.map ((c.name, v.cell e.document) :: ·)) m''

/-- The program of some columns resolves each of them once. -/
theorem Program.resolves_columns (e : Setting σ) : ∀ (cs : List Column) (m : Machine σ),
    let p := columns (fun c => cell e.document c.source) cs
    Resolves e.host m cs (p.events e.host m) ((p.run e.host).start m).1
      ((p.run e.host).start m).2
  | [], _ => .nil
  | c :: rest, m => by
    have hask : columns (fun c => cell e.document c.source) (c :: rest) =
        ask (.perform (.resolve c.source)) fun v =>
          columns (fun c => cell e.document c.source) rest >>= fun found =>
            done (.ok ((c.name, v.cell e.document) :: found)) := rfl
    dsimp only
    rw [hask]
    -- A column is one request. What is behind the other columns asks for nothing.
    rcases h : ((Request.perform (.resolve c.source)).answer e.host).start m with ⟨f | v, m'⟩
    · rw [events_ask_of_error h, start_ask_of_error h]
      exact .fault h
    · rw [events_ask_of_ok h, start_ask_of_ok h, events_bind_done, start_bind_done]
      exact .column h (resolves_columns e rest m')

namespace Table

variable {d : Document} {nodes xs ys : List NodeId} {filter : Filter}
  {constants : List (String × String)} {enforce : Option Nat} {t w : Table} {f : Fault}

/-! ## The tables at some nodes -/

theorem foldl_append : ∀ (others : List Table) (first : Table),
    others.foldl append first = ⟨first.header, (first :: others).flatMap (·.rows)⟩
  | [], first => by simp
  | t :: others, first => by
    rw [List.foldl_cons, foldl_append others]
    simp [append]

theorem ofNodes_eq_ok_iff : ofNodes d nodes filter constants enforce = .ok t ↔
    ∃ first others, List.Forall₂ (project d · filter constants enforce = .ok ·) nodes
        (first :: others) ∧
      t = ⟨first.header, (first :: others).flatMap (·.rows)⟩ := by
  unfold ofNodes
  rw [bind_eq_ok]
  constructor
  · rintro ⟨tables, htables, h⟩
    cases tables with
    | nil => cases h
    | cons first others =>
      cases h
      exact ⟨first, others, mapM_eq_ok_iff.mp htables, foldl_append others first⟩
  · rintro ⟨first, others, htables, rfl⟩
    exact ⟨_, mapM_eq_ok_iff.mpr htables, congrArg Except.ok (foldl_append others first)⟩

/-- Whether a fault is the one for want of a table: there are no nodes, or the first one
without a table at or below it has the type in the fault. -/
inductive Missing (d : Document) (filter : Filter) : List NodeId → Fault → Prop where
  | empty : Missing d filter [] (.notTabular "empty node collection")
  | node {before after : List NodeId} {i : NodeId} : (∀ k ∈ before, ∃ j, d.IsTable k filter j) →
    (∀ j, ¬d.IsTable i filter j) →
    Missing d filter (before ++ i :: after) (.notTabular (d.nodeType i))

theorem Missing.exists_not_isTable (h : Missing d filter nodes f) :
    (nodes = [] ∨ ∃ i ∈ nodes, ∀ j, ¬d.IsTable i filter j) ∧ ∃ type, f = .notTabular type := by
  cases h with
  | empty => exact ⟨.inl rfl, _, rfl⟩
  | node _ hnone => exact ⟨.inr ⟨_, by simp, hnone⟩, _, rfl⟩

theorem missing_of_ofNodes_eq_error (hd : d.IsMade)
    (h : ofNodes d nodes filter constants enforce = .error f) : Missing d filter nodes f := by
  unfold ofNodes at h
  obtain h | ⟨tables, htables, h⟩ := bind_eq_error.mp h
  · obtain ⟨before, i, after, rfl, hbefore, hi⟩ := mapM_eq_error_iff.mp h
    obtain ⟨hnone, rfl⟩ := ((projects_of_isMade hd ..).error_iff ..).mp hi
    exact .node (fun k hk => (exists_isTable_iff hd ..).mpr (hbefore k hk)) hnone
  · have hall := mapM_eq_ok_iff.mp htables
    cases tables with
    | nil =>
      cases h
      rw [List.forall₂_nil_right_iff.mp hall]
      exact .empty
    | cons first others => cases h

/-- A collection that is projected has nodes, and a table at or below each of them. -/
theorem exists_isTable_of_ofNodes_eq_ok (hd : d.IsMade)
    (h : ofNodes d nodes filter constants enforce = .ok t) :
    nodes ≠ [] ∧ ∀ i ∈ nodes, ∃ j, d.IsTable i filter j := by
  obtain ⟨first, others, hall, -⟩ := ofNodes_eq_ok_iff.mp h
  have hsome : ∀ i ∈ nodes, ∃ t, project d i filter constants enforce = .ok t :=
    exists_mapM_eq_ok_iff.mp ⟨_, mapM_eq_ok_iff.mpr hall⟩
  refine ⟨?_, fun i hi => (exists_isTable_iff hd ..).mpr (hsome i hi)⟩
  rintro rfl
  cases hall

theorem constants_of_forall₂ {tables : List Table}
    (hall : List.Forall₂ (project d · filter constants enforce = .ok ·) nodes tables) :
    ∀ t ∈ tables,
      constants.map (·.1) <+: t.header ∧ ∀ row ∈ t.rows, constants.map (·.2) <+: row :=
  ((List.forall₂_and_left ..).mp ((List.Forall₂.flip hall).imp fun _ _ ht =>
    ⟨constants_of_project ht, ht⟩)).1

/-- The rows for a collection in two parts are those for the first part and then those for the
second. -/
theorem ofNodes_append_eq_ok_iff (hx : xs ≠ []) (hy : ys ≠ []) :
    ofNodes d (xs ++ ys) filter constants enforce = .ok w ↔
      ∃ t u, ofNodes d xs filter constants enforce = .ok t ∧
        ofNodes d ys filter constants enforce = .ok u ∧ w = t.append u := by
  simp only [ofNodes_eq_ok_iff]
  constructor
  · rintro ⟨first, others, hall, rfl⟩
    have hparts := mapM_eq_ok_iff.mpr hall
    rw [List.mapM_append] at hparts
    -- Neither part is empty, so each of them has a header of its own.
    obtain ⟨ts, hts, hparts⟩ := bind_eq_ok.mp hparts
    obtain ⟨us, hus, hparts⟩ := bind_eq_ok.mp hparts
    have hall₁ := mapM_eq_ok_iff.mp hts
    have hall₂ := mapM_eq_ok_iff.mp hus
    cases ts with
    | nil => exact absurd (List.forall₂_nil_right_iff.mp hall₁) hx
    | cons t ts =>
      cases us with
      | nil => exact absurd (List.forall₂_nil_right_iff.mp hall₂) hy
      | cons u us =>
        cases hparts
        exact ⟨_, _, ⟨_, ts, hall₁, rfl⟩, ⟨u, us, hall₂, rfl⟩, by simp [append]⟩
  · rintro ⟨_, _, ⟨t, ts, hts, rfl⟩, ⟨u, us, hus, rfl⟩, rfl⟩
    exact ⟨t, ts ++ u :: us, List.rel_append hts hus, by simp [append]⟩

end Table

namespace Action

variable {e : Setting σ} {q : TableQuery} {m : Machine σ} {d : Document} {input : Value}
  {nodes xs ys : List NodeId} {constants : List (String × String)}

/-! ## The action -/

/-- What the projection of the tables at some nodes comes to, with the constants in front. -/
structure Merges (d : Document) (q : TableQuery) (constants : List (String × String))
    (nodes : List NodeId) (outcome : Except Fault Value) : Prop where
  notTabular_iff : (∃ type, outcome = .error (.notTabular type)) ↔
    nodes = [] ∨ ∃ i ∈ nodes, ∀ j, ¬d.IsTable i q.filter j
  fault : ∀ f, outcome = .error f → Table.Missing d q.filter nodes f
  merged : ∀ v, outcome = .ok v → ∃ first others,
    List.Forall₂ (Table.project d · q.filter constants q.enforce = .ok ·) nodes
      (first :: others) ∧
    v = .table ⟨first.header, (first :: others).flatMap (·.rows)⟩ ∧
    constants.map (·.1) <+: first.header ∧
    ∀ row ∈ (first :: others).flatMap (·.rows), constants.map (·.2) <+: row

theorem merges_ofNodes (hd : d.IsMade) (q : TableQuery) (constants : List (String × String))
    (nodes : List NodeId) : Merges d q constants nodes
      ((Table.ofNodes d nodes q.filter constants q.enforce).map Value.table) := by
  have hmissing (f : Fault)
      (h : (Table.ofNodes d nodes q.filter constants q.enforce).map Value.table = .error f) :
      Table.Missing d q.filter nodes f :=
    Table.missing_of_ofNodes_eq_error hd (map_eq_error.mp h)
  refine ⟨⟨?_, fun hnone => ?_⟩, hmissing, ?_⟩
  · rintro ⟨type, h⟩
    exact (hmissing _ h).exists_not_isTable.1
  · cases h : Table.ofNodes d nodes q.filter constants q.enforce with
    | error f =>
      obtain ⟨type, rfl⟩ := (hmissing f (map_eq_error.mpr h)).exists_not_isTable.2
      exact ⟨type, rfl⟩
    | ok t =>
      obtain ⟨hne, hall⟩ := Table.exists_isTable_of_ofNodes_eq_ok hd h
      obtain hnil | ⟨i, hi, hnone⟩ := hnone
      · exact absurd hnil hne
      · obtain ⟨j, hj⟩ := hall i hi
        exact absurd hj (hnone j)
  · intro v hv
    obtain ⟨t, ht, rfl⟩ := map_eq_ok.mp hv
    obtain ⟨first, others, hall, rfl⟩ := Table.ofNodes_eq_ok_iff.mp ht
    have hconstants := Table.constants_of_forall₂ hall
    refine ⟨first, others, hall, rfl, (hconstants first List.mem_cons_self).1,
      fun row hrow => ?_⟩
    obtain ⟨t, ht, hrow⟩ := List.mem_flatMap.mp hrow
    exact (hconstants t ht).2 row hrow

/-- Whether an input is a node or a collection of nodes. -/
def AreNodes (input : Value) (nodes : List NodeId) : Prop :=
  input = .nodes nodes ∨ ∃ i, input = .node i ∧ nodes = [i]

theorem program_table (d : Document) (q : TableQuery) (h : AreNodes input nodes) :
    (table q).program d input = (columns (fun c => cell d c.source) q.columns >>= fun constants =>
      done ((Table.ofNodes d nodes q.filter constants q.enforce).map .table)) := by
  have hinput : tableInput input = .ok nodes := by
    obtain rfl | ⟨i, rfl, rfl⟩ := h <;> rfl
  simp only [program, hinput, map_done]
  rfl

theorem start_table (e : Setting σ) (q : TableQuery) (h : AreNodes input nodes)
    (m : Machine σ) : ((table q).apply e input).start m =
      let p := columns (fun c => cell e.document c.source) q.columns
      (((p.run e.host).start m).1.bind fun constants =>
          (Table.ofNodes e.document nodes q.filter constants q.enforce).map .table,
        ((p.run e.host).start m).2) := by
  rw [← run_program, program_table _ q h, start_bind_done]

/-- What the projection of the tables at some nodes does, from a machine on. -/
structure Collects (e : Setting σ) (q : TableQuery) (m : Machine σ) : Prop where
  /-- Whatever the nodes are, the columns are resolved once, and then nothing else is asked for.
  A fault in this is the outcome, also if there is no table. -/
  resolves : ∃ events r m', Resolves e.host m q.columns events r m' ∧
    ∀ input nodes, AreNodes input nodes →
      ((table q).program e.document input).events e.host m = events ∧
      ∃ outcome, ((table q).apply e input).start m = (outcome, m') ∧
        (∀ f, r = .error f → outcome = .error f) ∧
        ∀ constants, r = .ok constants → Merges e.document q constants nodes outcome
  append : ∀ xs ys w m', xs ≠ [] → ys ≠ [] →
    (((table q).apply e (.nodes (xs ++ ys))).start m = (.ok (.table w), m') ↔
      ∃ t u, ((table q).apply e (.nodes xs)).start m = (.ok (.table t), m') ∧
        ((table q).apply e (.nodes ys)).start m = (.ok (.table u), m') ∧ w = t.append u)

/-- Tables of collections are projected with columns that are resolved once, and fail for want
of a table only. -/
theorem table_collects (hd : e.document.IsMade) (q : TableQuery) (m : Machine σ) :
    Collects e q m where
  resolves := by
    refine ⟨_, _, _, resolves_columns e q.columns m, fun input nodes h => ⟨?_, ?_⟩⟩
    · rw [program_table _ q h, events_bind_done]
    · refine ⟨_, start_table e q h m, fun f hf => ?_, fun constants hr => ?_⟩
      · rw [hf]
        rfl
      · rw [hr]
        exact merges_ofNodes hd q constants nodes
  append xs ys w m' hx hy := by
    have hmap {r : Except Fault Table} {t : Table} :
        r.map Value.table = .ok (.table t) ↔ r = .ok t := by
      rw [map_eq_ok]
      simp
    simp only [start_table e q (.inl rfl) m, Prod.mk.injEq]
    cases ((columns (fun c => cell e.document c.source) q.columns).run e.host |>.start m).1 with
    | error f => simp [Except.bind]
    | ok constants =>
      simp only [Except.bind, hmap, Table.ofNodes_append_eq_ok_iff hx hy]
      constructor
      · rintro ⟨⟨t, u, ht, hu, rfl⟩, hm⟩
        exact ⟨t, u, ⟨ht, hm⟩, ⟨hu, hm⟩, rfl⟩
      · rintro ⟨t, u, ⟨ht, hm⟩, ⟨hu, -⟩, rfl⟩
        exact ⟨⟨t, u, ht, hu, rfl⟩, hm⟩

/-- The operations for a page with two tables, the second one in a `div`. -/
def offerOperations : List Builder.Operation :=
  [.openElement "table" [], .openElement "tr" [], .element "th" [] "Size", .close,
    .openElement "tr" [], .element "td" [] "small", .closeTag "table", .openElement "div" [],
    .openElement "table" [], .openElement "tr" [], .element "th" [] "Volume", .close,
    .openElement "tr" [], .element "td" [] "disk"]

/-- A column that takes its value out of a list. -/
def unitQuery : TableQuery :=
  ⟨.any, [⟨"unit", .pop "units"⟩], none⟩

/-- A machine with some units in this list. -/
def unitMachine (units : List Value) : Machine (List Saved) :=
  ⟨⟨[("units", ⟨.list, .list units⟩)]⟩, []⟩

/-- One unit is taken out of the list, and both rows have it, below the header of the first
table. Without a node one is taken out too. -/
theorem table_collects_offers :
    (Builder.build offerOperations).IsMade ∧
      ((table unitQuery).apply ⟨Builder.build offerOperations, .listing⟩ (.nodes [1, 8])).start
          (unitMachine [.text "EUR", .text "USD"]) =
        (.ok (.table ⟨["unit", "Size"], [["EUR", "small"], ["EUR", "disk"]]⟩),
          unitMachine [.text "USD"]) ∧
      ((table unitQuery).apply ⟨Builder.build offerOperations, .listing⟩ (.nodes [])).start
          (unitMachine [.text "EUR", .text "USD"]) =
        (.error (.notTabular "empty node collection"), unitMachine [.text "USD"]) := by
  have hmade : (Builder.build offerOperations).IsMade := .inl ⟨offerOperations, rfl⟩
  have hcollects := table_collects (e := ⟨Builder.build offerOperations, Sink.listing⟩) hmade
    unitQuery (unitMachine [.text "EUR", .text "USD"])
  refine ⟨hmade, ?_, by rfl⟩
  exact (hcollects.append [1] [8] _ _ nofun nofun).mpr
    ⟨⟨["unit", "Size"], [["EUR", "small"]]⟩, ⟨["unit", "Volume"], [["EUR", "disk"]]⟩,
      by rfl, by rfl, rfl⟩

end Action

end Gleaner
