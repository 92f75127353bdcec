import Gleaner.Hierarchy.Build

/-!
# Graded hierarchies

A hierarchy is graded by a rank of its nodes when it is arranged by them: the
leaves of each level stand in one list before all keys and have the rank of
leaves, the nodes below a key have a greater rank than the key, and the keys of
one level do not rise. This is what building keeps, and everything that is said
about built hierarchies follows from it by following the entries.

* `Hierarchy.tops`, `Hierarchy.links`, `Hierarchy.leafNodes`: the nodes of the
  top level, each node with the one right above it, and the leaves;
* `Hierarchy.Graded`: the arrangement, entry by entry;
* `Graded.addNode`, `Fits.addLeaf`: adding an entry keeps it;
* `Graded.leafNodes_eq_filter`: the leaves are the nodes of the leaf level.
-/

namespace Gleaner.Hierarchy

/-- The nodes of the top level, in the order of the entries. -/
def tops : Hierarchy → List NodeId
  | empty => []
  | leaves ns rest => ns ++ rest.tops
  | node key _ rest => key :: rest.tops

/-- Each node that stands right below another one, behind that one. -/
def links : Hierarchy → List (NodeId × NodeId)
  | empty => []
  | leaves _ rest => rest.links
  | node key below rest => below.tops.map (key, ·) ++ (below.links ++ rest.links)

/-- The members of all lists of leaves. -/
def leafNodes : Hierarchy → List NodeId
  | empty => []
  | leaves ns rest => ns ++ rest.leafNodes
  | node _ below rest => below.leafNodes ++ rest.leafNodes

/-- Whether the nodes are arranged by their ranks, of which that of the leaves
is the greatest. -/
def Graded (rank : NodeId → Nat) (leafRank : Nat) : Hierarchy → Prop
  | empty => True
  | leaves ns rest =>
    ns ≠ [] ∧ (∀ n ∈ ns, rank n = leafRank) ∧ rest.hasLeaves = false ∧ rest.Graded rank leafRank
  | node key below rest =>
    rank key < leafRank ∧ (∀ n ∈ below.nodes, rank key < rank n) ∧
      (∀ n ∈ rest.tops, rank n ≤ rank key) ∧
      below.Graded rank leafRank ∧ rest.Graded rank leafRank

/-- Whether a hierarchy is graded and a node of a rank may be added to it. -/
def Fits (rank : NodeId → Nat) (leafRank bound : Nat) (t : Hierarchy) : Prop :=
  t.Graded rank leafRank ∧ ∀ n ∈ t.tops, bound ≤ rank n

variable {rank : NodeId → Nat} {leafRank : Nat}

/-! ## Nodes -/

theorem mem_nodes_of_mem_tops {n : NodeId} : ∀ {t : Hierarchy}, n ∈ t.tops → n ∈ t.nodes
  | leaves _ _, h => by
    rw [tops, List.mem_append] at h
    exact List.mem_append.mpr (h.imp_right mem_nodes_of_mem_tops)
  | node _ _ _, h => by
    rw [tops, List.mem_cons] at h
    rw [nodes, List.mem_cons, List.mem_append]
    exact h.imp_right fun h => .inr (mem_nodes_of_mem_tops h)

@[simp] theorem nodes_addNode (key : NodeId) (below : Hierarchy) :
    ∀ t : Hierarchy, (t.addNode key below).nodes = t.nodes ++ key :: below.nodes
  | empty => by simp [addNode, nodes]
  | leaves ns rest => by
    rw [addNode, nodes, nodes_addNode key below rest, nodes, List.append_assoc]
  | node k b rest => by
    rw [addNode, nodes, nodes_addNode key below rest, nodes, List.cons_append, List.append_assoc]

@[simp] theorem tops_addNode (key : NodeId) (below : Hierarchy) :
    ∀ t : Hierarchy, (t.addNode key below).tops = t.tops ++ [key]
  | empty => rfl
  | leaves ns rest => by rw [addNode, tops, tops_addNode key below rest, tops, List.append_assoc]
  | node k b rest => by rw [addNode, tops, tops_addNode key below rest, tops, List.cons_append]

@[simp] theorem hasLeaves_addNode (key : NodeId) (below : Hierarchy) :
    ∀ t : Hierarchy, (t.addNode key below).hasLeaves = t.hasLeaves
  | empty => rfl
  | leaves _ _ => rfl
  | node _ _ rest => hasLeaves_addNode key below rest

/-! ## Adding entries -/

theorem Graded.addNode {key : NodeId} {below : Hierarchy} (hk : rank key < leafRank)
    (hb : ∀ n ∈ below.nodes, rank key < rank n) (hg : below.Graded rank leafRank) :
    ∀ {t : Hierarchy}, t.Fits rank leafRank (rank key) → (t.addNode key below).Graded rank leafRank
  | empty, _ => ⟨hk, hb, (nofun), hg, trivial⟩
  | leaves ns rest, ⟨⟨hne, hn, hl, hr⟩, ht⟩ => by
    refine ⟨hne, hn, ?_, Graded.addNode hk hb hg ⟨hr, fun n h => ht n (List.mem_append_right _ h)⟩⟩
    rw [hasLeaves_addNode, hl]
  | node k b rest, ⟨⟨hlt, hbelow, hle, hgb, hr⟩, ht⟩ => by
    refine ⟨hlt, hbelow, fun n h => ?_, hgb,
      Graded.addNode hk hb hg ⟨hr, fun n h => ht n (List.mem_cons_of_mem _ h)⟩⟩
    rw [tops_addNode, List.mem_append, List.mem_singleton] at h
    rcases h with h | rfl
    · exact hle n h
    · exact ht k List.mem_cons_self

theorem Fits.mono {t : Hierarchy} {a b : Nat} (h : t.Fits rank leafRank b) (hab : a ≤ b) :
    t.Fits rank leafRank a :=
  ⟨h.1, fun n hn => Nat.le_trans hab (h.2 n hn)⟩

theorem Fits.addNode {key : NodeId} {below t : Hierarchy} (hk : rank key < leafRank)
    (hb : ∀ n ∈ below.nodes, rank key < rank n) (hg : below.Graded rank leafRank)
    (ht : t.Fits rank leafRank (rank key)) : (t.addNode key below).Fits rank leafRank (rank key) := by
  refine ⟨Graded.addNode hk hb hg ht, fun n h => ?_⟩
  rw [tops_addNode, List.mem_append, List.mem_singleton] at h
  rcases h with h | rfl
  · exact ht.2 n h
  · exact Nat.le_refl _

/-- Where a leaf may be added, there is nothing but leaves. -/
theorem Fits.eq_empty_or_leaves {t : Hierarchy} (h : t.Fits rank leafRank leafRank) :
    t = empty ∨ ∃ ns, ns ≠ [] ∧ (∀ n ∈ ns, rank n = leafRank) ∧ t = leaves ns empty := by
  match t, h with
  | empty, _ => exact .inl rfl
  | leaves ns empty, ⟨⟨hne, hn, _⟩, _⟩ => exact .inr ⟨ns, hne, hn, rfl⟩
  | leaves _ (leaves _ _), ⟨⟨_, _, hl, _⟩, _⟩ => cases hl
  | leaves _ (node k _ _), ⟨⟨_, _, _, hk, _⟩, ht⟩ =>
    have := ht k (List.mem_append_right _ List.mem_cons_self)
    omega
  | node k _ _, ⟨⟨hk, _⟩, ht⟩ =>
    have := ht k List.mem_cons_self
    omega

/-- A leaf that is added stands behind all other nodes. -/
theorem Fits.nodes_addLeaf {t : Hierarchy} (h : t.Fits rank leafRank leafRank) (leaf : NodeId) :
    (t.addLeaf leaf).nodes = t.nodes ++ [leaf] := by
  rcases h.eq_empty_or_leaves with rfl | ⟨ns, -, -, rfl⟩
  · rfl
  · simp [addLeaf, hasLeaves, appendLeaf, nodes]

theorem Fits.addLeaf {t : Hierarchy} (h : t.Fits rank leafRank leafRank) {leaf : NodeId}
    (hl : rank leaf = leafRank) : (t.addLeaf leaf).Fits rank leafRank leafRank := by
  have key : ∀ ns : List NodeId, ns ≠ [] → (∀ n ∈ ns, rank n = leafRank) →
      (leaves ns empty).Fits rank leafRank leafRank := fun ns hne hn =>
    ⟨⟨hne, hn, rfl, trivial⟩, fun n h => by
      rw [tops, tops, List.append_nil] at h
      exact Nat.le_of_eq (hn n h).symm⟩
  rcases h.eq_empty_or_leaves with rfl | ⟨ns, hne, hn, rfl⟩
  · exact key [leaf] (List.cons_ne_nil _ _) fun n h => by rwa [List.mem_singleton.mp h]
  · refine key (ns ++ [leaf]) (by simp) fun n h => ?_
    rcases List.mem_append.mp h with h | h
    · exact hn n h
    · rwa [List.mem_singleton.mp h]

/-! ## Ranks -/

theorem Graded.hasLeaves_eq_false {t : Hierarchy} (h : t.Graded rank leafRank) {r : Nat}
    (hr : r < leafRank) (ht : ∀ n ∈ t.tops, rank n ≤ r) : t.hasLeaves = false := by
  induction t with
  | empty => rfl
  | leaves ns rest =>
    obtain ⟨n, hn⟩ := List.exists_mem_of_ne_nil ns h.1
    have := h.2.1 n hn
    have := ht n (List.mem_append_left _ hn)
    omega
  | node key below rest _ ih =>
    exact ih h.2.2.2.2 fun n hn => ht n (List.mem_cons_of_mem _ hn)

theorem Graded.rank_le {t : Hierarchy} (h : t.Graded rank leafRank) :
    ∀ n ∈ t.nodes, rank n ≤ leafRank := by
  induction t with
  | empty => nofun
  | leaves ns rest ih =>
    intro n hn
    rcases List.mem_append.mp hn with hn | hn
    · exact Nat.le_of_eq (h.2.1 n hn)
    · exact ih h.2.2.2 n hn
  | node key below rest ihb ihr =>
    intro n hn
    rw [nodes, List.mem_cons, List.mem_append] at hn
    rcases hn with rfl | hn | hn
    · exact Nat.le_of_lt h.1
    · exact ihb h.2.2.2.1 n hn
    · exact ihr h.2.2.2.2 n hn

/-- The leaves are the nodes of the leaf level. -/
theorem Graded.leafNodes_eq_filter {t : Hierarchy} (h : t.Graded rank leafRank) :
    t.leafNodes = t.nodes.filter (rank · = leafRank) := by
  induction t with
  | empty => rfl
  | leaves ns rest ih =>
    have hns : ns.filter (rank · = leafRank) = ns :=
      List.filter_eq_self.mpr fun n hn => decide_eq_true (h.2.1 n hn)
    rw [leafNodes, nodes, List.filter_append, hns, ih h.2.2.2]
  | node key below rest ihb ihr =>
    have hk : ¬ rank key = leafRank := Nat.ne_of_lt h.1
    rw [leafNodes, nodes, List.filter_cons_of_neg (by simpa using hk), List.filter_append,
      ihb h.2.2.2.1, ihr h.2.2.2.2]

end Gleaner.Hierarchy
