import Gleaner.Proofs.Document.Queries
import Gleaner.Proofs.Markup.Loading
import Gleaner.Table.Projection

/-!
# Rows of a projected table

The table that is projected is the first one at or below a node that passes the filter. The
header of its projection belongs to its first `tr`, and each row to one of the others: fixed
cells in front, then one cell for each element directly below the `tr`. Asking for a number
of data cells takes rows out and changes nothing else. A row is kept for one number only, so
the rows for all numbers make up the rows of the projection.

* `Document.IsTable`, `Document.IsFirstTable`: the table that is projected, with
  `Document.Tiled.tableAt_eq_ok_iff` and `Document.Tiled.tableAt_eq_error_iff`;
* `Document.AreRows`: the rows of its markup;
* `Table.IsRow`, `Table.IsAligned`: the cells of a row, and of a whole table;
* `Table.keeping`: the rows with a number of data cells, with `Table.perm_flatMap_keeping`;
* `Table.projects_of_isMade`: all of it, for any document that is made.
-/

namespace Gleaner

namespace Document

variable {d : Document} {source scope i : NodeId} {type : String} {filter : Filter}

/-! ## The table at or below a node -/

/-- Whether a node is a table that passes a filter, at or below another node. -/
structure IsTable (d : Document) (source : NodeId) (filter : Filter) (i : NodeId) : Prop where
  within : d.IsWithin i source
  isMatch : d.isMatch i "table" filter

/-- Whether a node is the first such table in document order. -/
structure IsFirstTable (d : Document) (source : NodeId) (filter : Filter) (i : NodeId) : Prop
    extends d.IsTable source filter i where
  le : ∀ j, d.IsTable source filter j → i ≤ j

theorem IsFirstTable.unique {j : NodeId} (hi : d.IsFirstTable source filter i)
    (hj : d.IsFirstTable source filter j) : i = j :=
  Nat.le_antisymm (hi.le j hj.toIsTable) (hj.le i hi.toIsTable)

/-- What has the type of an element is an element. -/
theorem isElement_of_isMatch (htype : ∀ other ∈ ["", "#text"], ¬Text.sameName other type)
    (h : d.isMatch i type filter) : d.isElement i := by
  have hname : Text.sameName (d.nodeType i) type := (Bool.and_eq_true_iff.mp h).1
  unfold nodeType at hname
  unfold isElement
  cases hn : d.node? i with
  | none =>
    rw [hn] at hname
    exact absurd hname (htype "" (by simp))
  | some n =>
    rw [hn] at hname
    obtain ⟨content, children, stop⟩ := n
    cases content with
    | element type attributes => rfl
    | text s => exact absurd hname (htype "#text" (by simp))

theorem pairwise_findAll (d : Document) (scope : NodeId) (type : String) (filter : Filter) :
    (d.findAll scope type filter).Pairwise (· < ·) :=
  List.Pairwise.filter _ List.pairwise_lt_range'

/-- The first of some numbers in order is the least of them. -/
theorem head?_eq_some_iff_of_pairwise {is : List Nat} (h : is.Pairwise (· < ·)) :
    is.head? = some i ↔ i ∈ is ∧ ∀ j ∈ is, i ≤ j := by
  cases is with
  | nil => simp
  | cons k is =>
    have hk : ∀ j ∈ k :: is, k ≤ j := List.forall_mem_cons.mpr
      ⟨Nat.le_refl k, fun j hj => Nat.le_of_lt ((List.pairwise_cons.mp h).1 j hj)⟩
    rw [List.head?_cons, Option.some_inj]
    constructor
    · rintro rfl
      exact ⟨List.mem_cons_self, hk⟩
    · rintro ⟨hi, hle⟩
      exact Nat.le_antisymm (hk i hi) (hle k List.mem_cons_self)

namespace Tiled

variable (h : d.Tiled)

include h

theorem mem_findAll_iff (htype : ∀ other ∈ ["", "#text"], ¬Text.sameName other type) :
    i ∈ d.findAll scope type filter ↔ d.IsBelow i scope ∧ d.isMatch i type filter := by
  rw [findAll, List.mem_filter, mem_places, Bool.and_eq_true, h.isBelow_iff]
  exact and_congr_right fun _ => and_iff_right_of_imp (isElement_of_isMatch htype)

theorem mem_findAll_table_iff :
    i ∈ d.findAll scope "table" filter ↔ d.IsBelow i scope ∧ d.isMatch i "table" filter :=
  h.mem_findAll_iff (by decide)

/-- The tables at or below a node that is none itself are those that are found below it. -/
theorem isTable_iff_mem_findAll (hsource : ¬d.isMatch source "table" filter) :
    d.IsTable source filter i ↔ i ∈ d.findAll source "table" filter := by
  rw [h.mem_findAll_table_iff]
  constructor
  · rintro ⟨hwithin, hmatch⟩
    rcases Relation.reflTransGen_iff_eq_or_transGen.mp hwithin with rfl | hbelow
    · exact absurd hmatch hsource
    · exact ⟨hbelow, hmatch⟩
  · exact fun ⟨hbelow, hmatch⟩ => ⟨hbelow.to_reflTransGen, hmatch⟩

/-- A table is the first one at or below itself. -/
theorem isFirstTable_self (hsource : d.isMatch source "table" filter) :
    d.IsFirstTable source filter source where
  within := .refl
  isMatch := hsource
  le _ hj := (h.bounds_of_isWithin hj.within).1

theorem isFirstTable_iff_findOne (hsource : ¬d.isMatch source "table" filter) :
    d.IsFirstTable source filter i ↔ d.findOne source "table" filter = some i := by
  rw [findOne, head?_eq_some_iff_of_pairwise (d.pairwise_findAll ..)]
  constructor
  · exact fun hi => ⟨(h.isTable_iff_mem_findAll hsource).mp hi.toIsTable, fun j hj =>
      hi.le j ((h.isTable_iff_mem_findAll hsource).mpr hj)⟩
  · exact fun ⟨hi, hle⟩ => ⟨(h.isTable_iff_mem_findAll hsource).mpr hi, fun j hj =>
      hle j ((h.isTable_iff_mem_findAll hsource).mp hj)⟩

theorem tableAt_eq_ok_iff : d.tableAt source filter = .ok i ↔ d.IsFirstTable source filter i := by
  unfold tableAt
  split
  · -- The node itself is a table, and no node below it comes before it.
    rename_i hsource
    constructor
    · intro hi
      cases hi
      exact h.isFirstTable_self hsource
    · exact fun hi => congrArg _ ((h.isFirstTable_self hsource).unique hi)
  · rename_i hsource
    rw [h.isFirstTable_iff_findOne hsource]
    split <;> simp_all

theorem tableAt_eq_error_iff {f : Fault} : d.tableAt source filter = .error f ↔
    (∀ i, ¬d.IsTable source filter i) ∧ f = .notTabular (d.nodeType source) := by
  unfold tableAt
  split
  · rename_i hsource
    exact iff_of_false nofun fun ⟨hnone, _⟩ => hnone source ⟨.refl, hsource⟩
  · rename_i hsource
    have hnone : d.findOne source "table" filter = none ↔ ∀ i, ¬d.IsTable source filter i := by
      rw [findOne, List.head?_eq_none_iff, List.eq_nil_iff_forall_not_mem]
      exact forall_congr' fun i => not_congr (h.isTable_iff_mem_findAll hsource).symm
    rw [← hnone]
    split
    · simp_all
    · rename_i hfound
      exact ⟨fun hf => ⟨hfound, (Except.error.inj hf).symm⟩, fun hf => congrArg _ hf.2.symm⟩

end Tiled

/-- Whether some nodes are the rows of a table in its markup: all `tr` below it in document
order, those of tables inside it too. -/
structure AreRows (d : Document) (table : NodeId) (trs : List NodeId) : Prop where
  sorted : trs.Pairwise (· < ·)
  mem_iff : ∀ i, i ∈ trs ↔ d.IsBelow i table ∧ Text.sameName (d.nodeType i) "tr"

theorem Tiled.areRows_findAll (h : d.Tiled) (table : NodeId) :
    d.AreRows table (d.findAll table "tr" .any) where
  sorted := d.pairwise_findAll ..
  mem_iff i := by
    rw [h.mem_findAll_iff (by decide), isMatch, Filter.accepts_any, Bool.and_true]

end Document

namespace Table

variable {d : Document} {source i tr first : NodeId} {filter : Filter} {trs rest : List NodeId}
  {constants : List (String × String)} {values : List String} {cell : NodeId → String}
  {enforce : Option Nat} {n : Nat} {t : Table}

/-! ## Cells -/

/-- Whether a row has the cells of a `tr`: fixed values in front, and behind them a cell for
each element directly below the `tr`. -/
structure IsRow (d : Document) (values : List String) (cell : NodeId → String) (tr : NodeId)
    (row : List String) : Prop where
  length : row.length = values.length + (d.children tr).length
  value : ∀ j < values.length, row[j]? = values[j]?
  cell : ∀ k, row[values.length + k]? = (d.children tr)[k]?.map cell

theorem isRow_append (d : Document) (values : List String) (cell : NodeId → String)
    (tr : NodeId) : IsRow d values cell tr (values ++ (d.children tr).map cell) where
  length := by rw [List.length_append, List.length_map]
  value j hj := List.getElem?_append_left hj
  cell k := by
    rw [List.getElem?_append_right (Nat.le_add_right _ k), Nat.add_sub_cancel_left,
      List.getElem?_map]

/-- Whether a table has the cells of some `tr`: those of the first one in its header, and
those of each of the others in a row of its own. Without any, the header has nothing but the
names of the constants. -/
structure IsAligned (d : Document) (constants : List (String × String)) (trs : List NodeId)
    (t : Table) : Prop where
  nil : trs = [] → t.header = constants.map (·.1)
  header : ∀ tr ∈ trs.head?,
    IsRow d (constants.map (·.1)) (fun i => headerCell (d.text i)) tr t.header
  rows : List.Forall₂ (IsRow d (constants.map (·.2)) (Hierarchy.label d)) trs.tail t.rows

/-! ## Numbers of data cells -/

/-- A table whose rows belong to the `tr` behind the first one, with only the rows that have
a number of data cells. -/
def keeping (d : Document) (n : Nat) (trs : List NodeId) (t : Table) : Table :=
  ⟨t.header, ((trs.tail.zip t.rows).filter fun p => dataCellCount d p.1 = n).map (·.2)⟩

/-- Values with a key below a bound are those with each key below it. -/
theorem perm_flatMap_filter {α : Type} (key : α → Nat) (xs : List α) : ∀ bound,
    (xs.filter fun x => key x < bound).Perm
      ((List.range bound).flatMap fun n => xs.filter fun x => key x = n)
  | 0 => by simp
  | bound + 1 => by
    rw [List.range_succ, List.flatMap_append, List.flatMap_singleton]
    -- What is below the next bound is below this one, or has it as its key.
    refine (List.filter_append_perm (key · < bound) _).symm.trans (.append ?_ ?_)
    · rw [List.filter_filter]
      refine .trans (.of_eq (List.filter_congr fun x _ => ?_)) (perm_flatMap_filter key xs bound)
      rw [Bool.eq_iff_iff, Bool.and_eq_true, decide_eq_true_iff, decide_eq_true_iff]
      omega
    · rw [List.filter_filter]
      refine .of_eq (List.filter_congr fun x _ => ?_)
      rw [Bool.eq_iff_iff, Bool.and_eq_true, Bool.not_eq_true', decide_eq_false_iff_not,
        decide_eq_true_iff, decide_eq_true_iff]
      omega

/-- The rows for all numbers of data cells make up the rows of a table. -/
theorem perm_flatMap_keeping {bound : Nat} (hlength : t.rows.length = trs.tail.length)
    (hbound : ∀ tr ∈ trs.tail, dataCellCount d tr < bound) :
    t.rows.Perm ((List.range bound).flatMap fun n => (t.keeping d n trs).rows) := by
  have hall : (trs.tail.zip t.rows).filter (fun p => dataCellCount d p.1 < bound) =
      trs.tail.zip t.rows :=
    List.filter_eq_self.mpr fun p hp => decide_eq_true (hbound p.1 (List.of_mem_zip hp).1)
  have hrows : (trs.tail.zip t.rows).map (·.2) = t.rows := List.map_snd_zip hlength.le
  have hperm := (perm_flatMap_filter (fun p => dataCellCount d p.1) (trs.tail.zip t.rows)
    bound).map (·.2)
  rwa [hall, hrows, List.map_flatMap] at hperm

/-! ## Projections -/

/-- The projection of some `tr`. -/
def ofRows (d : Document) (constants : List (String × String)) (enforce : Option Nat) :
    List NodeId → Table
  | [] => .ofHeader (constants.map (·.1))
  | first :: rest => ⟨constants.map (·.1) ++ headerCells d first,
      (rest.filter (isKept d enforce)).map fun tr => constants.map (·.2) ++ dataCells d tr⟩

theorem project_eq_map (d : Document) (source : NodeId) (filter : Filter)
    (constants : List (String × String)) (enforce : Option Nat) :
    project d source filter constants enforce =
      (d.tableAt source filter).map fun i =>
        ofRows d constants enforce (d.findAll i "tr" .any) := by
  unfold project
  cases d.tableAt source filter with
  | error f => rfl
  | ok i =>
    change _ = Except.ok (ofRows d constants enforce (d.findAll i "tr" .any))
    dsimp only [bind, Except.bind]
    split
    · rename_i hrows
      rw [hrows]
      rfl
    · rename_i hrows
      rw [hrows]
      rfl

theorem filter_isKept_none (d : Document) (trs : List NodeId) :
    trs.filter (isKept d none) = trs :=
  List.filter_eq_self.mpr fun _ _ => rfl

theorem isAligned_ofRows (d : Document) (constants : List (String × String)) :
    ∀ trs, (ofRows d constants none trs).IsAligned d constants trs
  | [] => ⟨fun _ => rfl, nofun, .nil⟩
  | first :: rest => by
    refine ⟨nofun, fun tr htr => ?_, ?_⟩
    · cases htr
      exact isRow_append ..
    · rw [ofRows, filter_isKept_none, List.tail_cons, List.forall₂_map_right_iff,
        List.forall₂_same]
      exact fun tr _ => isRow_append ..

/-- Asking for a number of data cells takes rows out and nothing else. -/
theorem ofRows_some (d : Document) (constants : List (String × String)) (n : Nat) :
    ∀ trs, ofRows d constants (some n) trs = (ofRows d constants none trs).keeping d n trs
  | [] => rfl
  | first :: rest => by
    have hzip (row : NodeId → List String) :
        rest.zip (rest.map row) = rest.map fun tr => (tr, row tr) := by
      have h : (rest.map id).zip (rest.map row) = _ := List.zip_map'
      rwa [List.map_id] at h
    rw [ofRows, ofRows, keeping, filter_isKept_none, List.tail_cons, hzip, List.filter_map,
      List.map_map]
    rfl

/-- What the projection of the table at or below a node comes to. -/
structure Projects (d : Document) (source : NodeId) (filter : Filter)
    (constants : List (String × String)) : Prop where
  error_iff : ∀ enforce f, project d source filter constants enforce = .error f ↔
    (∀ i, ¬d.IsTable source filter i) ∧ f = .notTabular (d.nodeType source)
  /-- The first table is projected, whatever number of data cells is asked for. -/
  first : (∃ i, d.IsTable source filter i) → ∃ i trs t, d.IsFirstTable source filter i ∧
    d.AreRows i trs ∧ t.IsAligned d constants trs ∧
    project d source filter constants none = .ok t ∧
    (∀ n, project d source filter constants (some n) = .ok (t.keeping d n trs)) ∧
    ∀ bound, (∀ tr ∈ trs.tail, dataCellCount d tr < bound) →
      t.rows.Perm ((List.range bound).flatMap fun n => (t.keeping d n trs).rows)

/-- Projections fail for want of a table only, and else have its rows. -/
theorem projects_of_isMade (h : d.IsMade) (source : NodeId) (filter : Filter)
    (constants : List (String × String)) : Projects d source filter constants where
  error_iff enforce f := by
    rw [project_eq_map, ← h.tiled.tableAt_eq_error_iff]
    cases d.tableAt source filter <;> simp [Except.map]
  first := by
    rintro ⟨j, hj⟩
    cases htable : d.tableAt source filter with
    | error f => exact absurd hj ((h.tiled.tableAt_eq_error_iff.mp htable).1 j)
    | ok i =>
      have hproject (enforce : Option Nat) : project d source filter constants enforce =
          .ok (ofRows d constants enforce (d.findAll i "tr" .any)) := by
        rw [project_eq_map, htable]
        rfl
      have haligned := isAligned_ofRows d constants (d.findAll i "tr" .any)
      refine ⟨i, _, _, h.tiled.tableAt_eq_ok_iff.mp htable, h.tiled.areRows_findAll i,
        haligned, hproject none, fun n => ?_, fun bound hbound => ?_⟩
      · rw [hproject, ofRows_some]
      · exact perm_flatMap_keeping haligned.rows.length_eq.symm hbound

/-- The operations for a page with a table of prices. Its second row starts with a `th`, and
its last one has another table in it, with a row of its own. -/
def priceOperations : List Builder.Operation :=
  [.openElement "table" [], .openElement "tr" [], .element "th" [] "Size",
    .element "th" [] "Unit price", .close, .openElement "tr" [], .element "th" [] "small",
    .element "td" [] "1", .close, .openElement "tr" [], .element "td" [] "large",
    .openElement "td" [], .openElement "table" [], .openElement "tr" [], .element "td" [] "2"]

/-- The row of the inner table is one of the outer table, and a `th` is shown but not
counted. -/
theorem projects_prices :
    (Builder.build priceOperations).IsMade ∧
      Projects (Builder.build priceOperations) Document.root .any [("unit", "EUR")] ∧
      project (Builder.build priceOperations) Document.root .any [("unit", "EUR")] none =
        .ok ⟨["unit", "Size", "Unit_price"],
          [["EUR", "small", "1"], ["EUR", "large", "2"], ["EUR", "2"]]⟩ ∧
      project (Builder.build priceOperations) Document.root .any [("unit", "EUR")] (some 1) =
        .ok ⟨["unit", "Size", "Unit_price"], [["EUR", "small", "1"], ["EUR", "2"]]⟩ :=
  have hmade : (Builder.build priceOperations).IsMade := .inl ⟨priceOperations, rfl⟩
  ⟨hmade, projects_of_isMade hmade Document.root .any [("unit", "EUR")], by decide +kernel,
    by decide +kernel⟩

/-- Projections that succeed are those at or above a table. -/
theorem exists_isTable_iff (h : d.IsMade) (source : NodeId) (filter : Filter)
    (constants : List (String × String)) (enforce : Option Nat) :
    (∃ i, d.IsTable source filter i) ↔
      ∃ t, project d source filter constants enforce = .ok t := by
  have herror := (projects_of_isMade h source filter constants).error_iff enforce
  cases hproject : project d source filter constants enforce with
  | ok t =>
    refine iff_of_true ?_ ⟨t, rfl⟩
    by_contra hnone
    cases hproject.symm.trans ((herror _).mpr ⟨not_exists.mp hnone, rfl⟩)
  | error f => exact iff_of_false (not_exists.mpr ((herror f).mp hproject).1) nofun

end Table

end Gleaner
