import Gleaner.Document.Builder
import Gleaner.Proofs.Fault.Results
import Gleaner.Proofs.Hierarchy.Owners

/-!
# The order of a built hierarchy

A hierarchy that is built from the elements between two markers holds those of
them that have a level, each once and in document order. On each of its levels
the leaves come first and in one list, and the levels of all nodes are where
they belong.

* `Document.slice_sublist`, `Document.pairwise_slice`: the elements between two
  markers are in document order;
* `Hierarchy.Arranges`: what is true of a hierarchy built from some nodes, with
  `Hierarchy.build_eq_ok` and `Hierarchy.arranges_build`;
* `Hierarchy.entries`, `Hierarchy.subtrees`, `Hierarchy.Orderly`: the entries of
  one level, the hierarchies inside a hierarchy and the shape of each of them;
* `Hierarchy.build_inOrder`: the whole statement.
-/

namespace Gleaner

/-! ## Slices -/

namespace Document

theorem pairwise_following (d : Document) (i : NodeId) : (d.following i).Pairwise (· < ·) :=
  List.Pairwise.filter _ List.pairwise_lt_range'

theorem slice_sublist {d : Document} {root : NodeId} {start stop : Option Marker}
    {nodes : List NodeId} (h : d.slice root start stop = .ok nodes) :
    nodes.Sublist (d.following root) := by
  have cut : ∀ i j, (((d.following root).drop i).take (j - i)).Sublist (d.following root) :=
    fun i j => (List.take_sublist _ _).trans (List.drop_sublist _ _)
  unfold slice at h
  cases start <;> cases stop <;>
  · obtain ⟨i, -, h⟩ := bind_eq_ok.mp h
    obtain ⟨j, -, h⟩ := bind_eq_ok.mp h
    cases h
    exact cut i j

theorem pairwise_slice {d : Document} {root : NodeId} {start stop : Option Marker}
    {nodes : List NodeId} (h : d.slice root start stop = .ok nodes) : nodes.Pairwise (· < ·) :=
  (d.pairwise_following root).sublist (slice_sublist h)

end Document

/-! ## Levels -/

namespace Levels

/-- The level of a node of a document. -/
def levelIn? (levels : Levels) (d : Document) (i : NodeId) : Option Nat :=
  levels.levelOf? (d.nodeType i)

theorem le_leafLevel_of_mem {levels : Levels} {e : String × Nat} (h : e ∈ levels.entries) :
    e.2 ≤ levels.leafLevel := by
  have hm : e.2 ∈ levels.entries.map (·.2) := List.mem_map_of_mem h
  rw [leafLevel, List.foldl_max_eq_max (List.ne_nil_of_mem hm)]
  exact Nat.le_trans (List.le_max_of_mem hm) (Nat.le_max_right _ _)

theorem exists_entry_of_levelOf? {levels : Levels} {type : String} {l : Nat}
    (h : levels.levelOf? type = some l) : ∃ e ∈ levels.entries, e.2 = l := by
  obtain ⟨e, he, hl⟩ := Option.map_eq_some_iff.mp h
  exact ⟨e, List.mem_of_find?_eq_some he, hl⟩

/-- No level is higher than that of the leaves. -/
theorem le_leafLevel {levels : Levels} {type : String} {l : Nat}
    (h : levels.levelOf? type = some l) : l ≤ levels.leafLevel := by
  obtain ⟨e, he, rfl⟩ := exists_entry_of_levelOf? h
  exact le_leafLevel_of_mem he

/-- If there are any levels, the one of the leaves is among them. -/
theorem exists_entry_leafLevel {levels : Levels} {e : String × Nat} (h : e ∈ levels.entries) :
    ∃ e ∈ levels.entries, e.2 = levels.leafLevel := by
  have hne : levels.entries.map (·.2) ≠ [] := List.ne_nil_of_mem (List.mem_map_of_mem h)
  rw [leafLevel, List.foldl_max_eq_max hne, Nat.zero_max]
  exact List.mem_map.mp (List.max_mem hne)

end Levels

namespace Hierarchy

/-! ## Building -/

theorem build_eq_ok {d : Document} {root : NodeId} {start stop : Option Marker} {levels : Levels}
    {t : Hierarchy} :
    build d root start stop levels = .ok t ↔
      ∃ nodes, d.slice root start stop = .ok nodes ∧
        ofNodes levels.leafLevel (levels.levelIn? d) nodes = t := by
  rw [build, bind_eq_ok]
  exact exists_congr fun _ => and_congr_right fun _ => ⟨Except.ok.inj, congrArg Except.ok⟩

/-- The level of a node as a number, which is only of use for nodes that have
one. -/
def rankOf (level : NodeId → Option Nat) (n : NodeId) : Nat :=
  (level n).getD 0

theorem level_eq_rankOf {level : NodeId → Option Nat} {n : NodeId} (h : (level n).isSome) :
    level n = some (rankOf level n) := by
  rw [rankOf, ← Option.get_eq_getD (h := h), Option.some_get]

/-- What is true of a hierarchy built from some nodes. -/
structure Arranges (level : NodeId → Option Nat) (leafLevel : Nat) (nodes : List NodeId)
    (t : Hierarchy) : Prop where
  sorted : nodes.Pairwise (· < ·)
  nodes_eq : t.nodes = nodes.filter fun n => (level n).isSome
  graded : t.Graded (rankOf level) leafLevel

theorem arranges_build {d : Document} {root : NodeId} {start stop : Option Marker} {levels : Levels}
    {t : Hierarchy} (h : build d root start stop levels = .ok t) :
    ∃ nodes, d.slice root start stop = .ok nodes ∧
      t.Arranges (levels.levelIn? d) levels.leafLevel nodes := by
  obtain ⟨nodes, hs, rfl⟩ := build_eq_ok.mp h
  have hle : ∀ n ∈ nodes, ∀ l, levels.levelIn? d n = some l → l ≤ levels.leafLevel :=
    fun _ _ _ hl => Levels.le_leafLevel hl
  exact ⟨nodes, hs, d.pairwise_slice hs, nodes_ofNodes hle, graded_ofNodes hle⟩

namespace Arranges

variable {level : NodeId → Option Nat} {leafLevel : Nat} {nodes : List NodeId} {t : Hierarchy}

theorem pairwise_nodes (h : t.Arranges level leafLevel nodes) : t.nodes.Pairwise (· < ·) := by
  rw [h.nodes_eq]
  exact h.sorted.filter _

theorem mem_nodes_iff (h : t.Arranges level leafLevel nodes) {n : NodeId} :
    n ∈ t.nodes ↔ n ∈ nodes ∧ (level n).isSome := by
  rw [h.nodes_eq, List.mem_filter]

theorem level_eq (h : t.Arranges level leafLevel nodes) {n : NodeId} (hn : n ∈ t.nodes) :
    level n = some (rankOf level n) :=
  level_eq_rankOf (h.mem_nodes_iff.mp hn).2

end Arranges

/-! ## Entries and subtrees -/

/-- An entry of a hierarchy. -/
inductive Entry where
  | leaves (nodes : List NodeId)
  | node (key : NodeId) (below : Hierarchy)
  deriving DecidableEq, Repr

/-- The nodes of an entry that are on its level. -/
def Entry.tops : Entry → List NodeId
  | leaves ns => ns
  | node key _ => [key]

/-- The ranks that the nodes of an entry on its level have in a graded
hierarchy. -/
def Entry.Graded (rank : NodeId → Nat) (leafRank : Nat) : Entry → Prop
  | leaves ns => ns ≠ [] ∧ ∀ n ∈ ns, rank n = leafRank
  | node key _ => rank key < leafRank

/-- The entries of the top level. -/
def entries : Hierarchy → List Entry
  | empty => []
  | leaves ns rest => .leaves ns :: rest.entries
  | node key below rest => .node key below :: rest.entries

/-- The hierarchies below all keys, however deep. -/
def inner : Hierarchy → List Hierarchy
  | empty => []
  | leaves _ rest => rest.inner
  | node _ below rest => below :: (below.inner ++ rest.inner)

/-- A hierarchy and all hierarchies inside it. -/
def subtrees (t : Hierarchy) : List Hierarchy :=
  t :: t.inner

/-- The shape of one level: no list of leaves but at the front, where it is not
empty, and all nodes with the levels of their places. -/
structure Orderly (level : NodeId → Option Nat) (leafLevel : Nat) (t : Hierarchy) : Prop where
  leaves_first : ∀ i ns, t.entries[i]? = some (.leaves ns) → i = 0
  leaves_ne_nil : ∀ ns, .leaves ns ∈ t.entries → ns ≠ []
  level_leaf : ∀ ns, .leaves ns ∈ t.entries → ∀ n ∈ ns, level n = some leafLevel
  level_key : ∀ key below, .node key below ∈ t.entries → ∃ l < leafLevel, level key = some l

variable {rank : NodeId → Nat} {leafRank : Nat}

theorem Graded.inner {t : Hierarchy} (h : t.Graded rank leafRank) :
    ∀ s ∈ t.inner, s.Graded rank leafRank := by
  induction t with
  | empty => nofun
  | leaves ns rest ih => exact ih h.2.2.2
  | node key below rest ihb ihr =>
    intro s hs
    rw [Hierarchy.inner, List.mem_cons, List.mem_append] at hs
    rcases hs with rfl | hs | hs
    · exact h.2.2.2.1
    · exact ihb h.2.2.2.1 s hs
    · exact ihr h.2.2.2.2 s hs

theorem nodes_subset_of_mem_inner {t : Hierarchy} : ∀ s ∈ t.inner, s.nodes ⊆ t.nodes := by
  induction t with
  | empty => nofun
  | leaves ns rest ih =>
    exact fun s hs => List.Subset.trans (ih s hs) (List.subset_append_right _ _)
  | node key below rest ihb ihr =>
    have hb : below.nodes ⊆ (node key below rest).nodes :=
      fun n hn => List.mem_cons_of_mem _ (List.mem_append_left _ hn)
    have hr : rest.nodes ⊆ (node key below rest).nodes :=
      fun n hn => List.mem_cons_of_mem _ (List.mem_append_right _ hn)
    intro s hs
    rw [inner, List.mem_cons, List.mem_append] at hs
    rcases hs with rfl | hs | hs
    · exact hb
    · exact List.Subset.trans (ihb s hs) hb
    · exact List.Subset.trans (ihr s hs) hr

theorem tops_eq_flatMap_entries (t : Hierarchy) : t.tops = t.entries.flatMap Entry.tops := by
  induction t with
  | empty => rfl
  | leaves ns rest ih => rw [tops, entries, List.flatMap_cons, ih, Entry.tops]
  | node key below rest _ ih =>
    rw [tops, entries, List.flatMap_cons, ih, Entry.tops, List.singleton_append]

theorem mem_nodes_of_mem_entries {t : Hierarchy} {e : Entry} {n : NodeId} (he : e ∈ t.entries)
    (hn : n ∈ e.tops) : n ∈ t.nodes := by
  apply mem_nodes_of_mem_tops
  rw [tops_eq_flatMap_entries]
  exact List.mem_flatMap.mpr ⟨e, he, hn⟩

theorem not_leaves_mem_entries {ns : List NodeId} :
    ∀ {t : Hierarchy}, t.hasLeaves = false → .leaves ns ∉ t.entries
  | empty, _ => nofun
  | node _ _ rest, h => by
    rw [entries, List.mem_cons, not_or]
    exact ⟨nofun, not_leaves_mem_entries (t := rest) h⟩

theorem Graded.leaves_first {t : Hierarchy} (h : t.Graded rank leafRank) {i : Nat}
    {ns : List NodeId} (hi : t.entries[i]? = some (.leaves ns)) : i = 0 := by
  match t, i, h with
  | _, 0, _ => rfl
  | leaves _ rest, i + 1, ⟨_, _, hl, _⟩ =>
    exact absurd (List.mem_of_getElem? (l := rest.entries) hi) (not_leaves_mem_entries hl)
  | node key _ rest, i + 1, ⟨hk, _, hle, _, hr⟩ =>
    exact absurd (List.mem_of_getElem? (l := rest.entries) hi)
      (not_leaves_mem_entries (hr.hasLeaves_eq_false hk hle))

theorem Graded.entry {t : Hierarchy} (h : t.Graded rank leafRank) :
    ∀ e ∈ t.entries, e.Graded rank leafRank := by
  induction t with
  | empty => nofun
  | leaves ns rest ih =>
    intro e he
    rcases List.mem_cons.mp he with rfl | he
    · exact ⟨h.1, h.2.1⟩
    · exact ih h.2.2.2 e he
  | node key below rest _ ih =>
    intro e he
    rcases List.mem_cons.mp he with rfl | he
    · exact h.1
    · exact ih h.2.2.2.2 e he

theorem Arranges.orderly {level : NodeId → Option Nat} {leafLevel : Nat} {nodes : List NodeId}
    {t : Hierarchy} (h : t.Arranges level leafLevel nodes) :
    ∀ s ∈ t.subtrees, s.Orderly level leafLevel := by
  intro s hs
  have hg : s.Graded (rankOf level) leafLevel ∧ s.nodes ⊆ t.nodes := by
    rcases List.mem_cons.mp hs with rfl | hs
    · exact ⟨h.graded, List.Subset.refl _⟩
    · exact ⟨h.graded.inner s hs, nodes_subset_of_mem_inner s hs⟩
  obtain ⟨hg, hsub⟩ := hg
  refine ⟨fun _ _ => hg.leaves_first, fun ns hm => (hg.entry _ hm).1, fun ns hm n hn => ?_,
    fun key below hm => ⟨_, hg.entry _ hm, ?_⟩⟩
  · rw [h.level_eq (hsub (mem_nodes_of_mem_entries hm hn)), (hg.entry _ hm).2 n hn]
  · exact h.level_eq (hsub (mem_nodes_of_mem_entries hm List.mem_cons_self))

/-! ## The statement -/

/-- Building neither loses, doubles nor reorders a node, and each level of the
hierarchy is in shape. -/
theorem build_inOrder {d : Document} {root : NodeId} {start stop : Option Marker} {levels : Levels}
    {t : Hierarchy} (h : build d root start stop levels = .ok t) :
    ∃ slice, d.slice root start stop = .ok slice ∧
      t.nodes = (slice.filter fun n => (levels.levelIn? d n).isSome) ∧
      t.nodes.Pairwise (· < ·) ∧
      ∀ s ∈ t.subtrees, s.Orderly (levels.levelIn? d) levels.leafLevel := by
  obtain ⟨slice, hs, ha⟩ := arranges_build h
  exact ⟨slice, hs, ha.nodes_eq, ha.pairwise_nodes, ha.orderly⟩

/-- A page whose headings start deep, jump a level and repeat one, with an
empty section at the end. -/
def outlinePage : Document :=
  (["title", "h3", "div", "p", "h2", "h2", "div", "div", "h3", "div", "h2", "footer", "div"].foldl
    (fun b type => b.element type [] "") Builder.empty).finish

/-- The levels of the headings of the page. -/
def outlineLevels : Levels :=
  .ofPath "h2.h3.div"

/-- The hierarchy of the page from its first heading to its footer. -/
def outline : Hierarchy :=
  node 2 (leaves [3] empty) (node 5 empty
    (node 6 (leaves [7, 8] (node 9 (leaves [10] empty) empty)) (node 11 empty empty)))

theorem build_outlinePage :
    build outlinePage Document.root (some ⟨"H3", .any⟩) (some ⟨"footer", .any⟩) outlineLevels =
      .ok outline := by
  decide +kernel

theorem outline_inOrder :
    ∃ slice, outlinePage.slice Document.root (some ⟨"H3", .any⟩) (some ⟨"footer", .any⟩) = .ok slice ∧
      outline.nodes = (slice.filter fun n => (outlineLevels.levelIn? outlinePage n).isSome) ∧
      outline.nodes.Pairwise (· < ·) ∧
      ∀ s ∈ outline.subtrees,
        s.Orderly (outlineLevels.levelIn? outlinePage) outlineLevels.leafLevel :=
  build_inOrder build_outlinePage

end Hierarchy

end Gleaner
