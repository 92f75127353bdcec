import Gleaner.Proofs.Hierarchy.Preorder

/-!
# Where the nodes of a built hierarchy stand

Headings own what follows them: a node stands right below the last node before
it whose level is smaller than its own, and on the top level when there is no
such node. The owners that building keeps are not mentioned: in a graded
hierarchy whose nodes are in document order this is read off the entries.

* `Above`, `Hierarchy.IsParent`: the heading rule, for nodes in document order;
* `Graded.mem_tops_iff`, `Graded.mem_links_iff`: top level and links by ranks;
* `Hierarchy.build_links`: the whole statement.
-/

namespace Gleaner

/-- Whether both nodes have a level, and the first one the smaller. -/
def Above (level : NodeId → Option Nat) (m n : NodeId) : Prop :=
  ∃ a ∈ level m, ∃ b ∈ level n, a < b

namespace Hierarchy

/-- Whether `p` is the last of the nodes before `n` that has a smaller level. -/
structure IsParent (level : NodeId → Option Nat) (nodes : List NodeId) (p n : NodeId) : Prop where
  parent_mem : p ∈ nodes
  mem : n ∈ nodes
  before : p < n
  above : Above level p n
  nearest : ∀ m ∈ nodes, p < m → m < n → ¬ Above level m n

variable {rank : NodeId → Nat} {leafRank : Nat}

/-! ## Document order -/

theorem pairwise_leaves {ns : List NodeId} {rest : Hierarchy}
    (h : (leaves ns rest).nodes.Pairwise (· < ·)) :
    ns.Pairwise (· < ·) ∧ rest.nodes.Pairwise (· < ·) ∧ ∀ a ∈ ns, ∀ b ∈ rest.nodes, a < b :=
  List.pairwise_append.mp h

theorem pairwise_node {key : NodeId} {below rest : Hierarchy}
    (h : (node key below rest).nodes.Pairwise (· < ·)) :
    (∀ a ∈ below.nodes, key < a) ∧ (∀ b ∈ rest.nodes, key < b) ∧
      below.nodes.Pairwise (· < ·) ∧ rest.nodes.Pairwise (· < ·) ∧
      ∀ a ∈ below.nodes, ∀ b ∈ rest.nodes, a < b := by
  obtain ⟨hk, h⟩ := List.pairwise_cons.mp h
  exact ⟨fun a ha => hk a (List.mem_append_left _ ha), fun b hb => hk b (List.mem_append_right _ hb),
    List.pairwise_append.mp h⟩

theorem mem_nodes_leaves {ns : List NodeId} {rest : Hierarchy} {n : NodeId} :
    n ∈ (leaves ns rest).nodes ↔ n ∈ ns ∨ n ∈ rest.nodes :=
  List.mem_append

theorem mem_nodes_node {key : NodeId} {below rest : Hierarchy} {n : NodeId} :
    n ∈ (node key below rest).nodes ↔ n = key ∨ n ∈ below.nodes ∨ n ∈ rest.nodes := by
  rw [nodes, List.mem_cons, List.mem_append]

/-! ## The top level -/

/-- The top level holds the nodes with no node of a smaller rank before them. -/
theorem Graded.mem_tops_iff {t : Hierarchy} (h : t.Graded rank leafRank)
    (hs : t.nodes.Pairwise (· < ·)) {n : NodeId} :
    n ∈ t.tops ↔ n ∈ t.nodes ∧ ∀ m ∈ t.nodes, m < n → rank n ≤ rank m := by
  induction t with
  | empty => simp [tops, nodes]
  | leaves ns rest ih =>
    obtain ⟨-, hr, hlt⟩ := pairwise_leaves hs
    have ih := ih h.2.2.2 hr
    rw [tops, List.mem_append, ih, mem_nodes_leaves]
    constructor
    · rintro (hn | ⟨hn, hle⟩)
      · refine ⟨.inl hn, fun m hm hmn => ?_⟩
        rcases mem_nodes_leaves.mp hm with hm | hm
        · rw [h.2.1 n hn, h.2.1 m hm]
        · exact absurd hmn (Nat.lt_asymm (hlt n hn m hm))
      · refine ⟨.inr hn, fun m hm hmn => ?_⟩
        rcases mem_nodes_leaves.mp hm with hm | hm
        · rw [h.2.1 m hm]
          exact h.2.2.2.rank_le n hn
        · exact hle m hm hmn
    · rintro ⟨hn, hle⟩
      exact hn.imp_right fun hn => ⟨hn, fun m hm => hle m (mem_nodes_leaves.mpr (.inr hm))⟩
  | node key below rest _ ih =>
    obtain ⟨hkb, hkr, -, hr, hlt⟩ := pairwise_node hs
    have ih := ih h.2.2.2.2 hr
    rw [tops, List.mem_cons, mem_nodes_node]
    constructor
    · rintro (rfl | hn)
      · refine ⟨.inl rfl, fun m hm hmn => ?_⟩
        rcases mem_nodes_node.mp hm with rfl | hm | hm
        · exact Nat.le_refl _
        · exact absurd hmn (Nat.lt_asymm (hkb m hm))
        · exact absurd hmn (Nat.lt_asymm (hkr m hm))
      · have hle := h.2.2.1 n hn
        refine ⟨.inr (.inr (ih.mp hn).1), fun m hm hmn => ?_⟩
        rcases mem_nodes_node.mp hm with rfl | hm | hm
        · exact hle
        · exact Nat.le_trans hle (Nat.le_of_lt (h.2.1 m hm))
        · exact (ih.mp hn).2 m hm hmn
    · rintro ⟨rfl | hn | hn, hle⟩
      · exact .inl rfl
      · have := hle key (mem_nodes_node.mpr (.inl rfl)) (hkb n hn)
        have := h.2.1 n hn
        omega
      · exact .inr (ih.mpr ⟨hn, fun m hm => hle m (mem_nodes_node.mpr (.inr (.inr hm)))⟩)

/-! ## Links -/

/-- Whether `p` is the last of the nodes before `n` that has a smaller rank. -/
structure Nearest (rank : NodeId → Nat) (nodes : List NodeId) (p n : NodeId) : Prop where
  parent_mem : p ∈ nodes
  mem : n ∈ nodes
  before : p < n
  smaller : rank p < rank n
  nearest : ∀ m ∈ nodes, p < m → m < n → rank n ≤ rank m

/-- Of two nodes in a part, only the nodes between them matter. -/
theorem nearest_iff_of_part {part whole : List NodeId} {p n : NodeId} (hsub : part ⊆ whole)
    (hp : p ∈ part) (hn : n ∈ part) (hbetween : ∀ m ∈ whole, p < m → m < n → m ∈ part) :
    Nearest rank whole p n ↔ Nearest rank part p n := by
  constructor
  · rintro ⟨-, -, hpn, hrk, hle⟩
    exact ⟨hp, hn, hpn, hrk, fun m hm => hle m (hsub hm)⟩
  · rintro ⟨-, -, hpn, hrk, hle⟩
    exact ⟨hsub hp, hsub hn, hpn, hrk, fun m hm hpm hmn => hle m (hbetween m hm hpm hmn) hpm hmn⟩

theorem nearest_leaves_iff {ns : List NodeId} {rest : Hierarchy} {p n : NodeId}
    (h : (leaves ns rest).Graded rank leafRank) (hs : (leaves ns rest).nodes.Pairwise (· < ·)) :
    Nearest rank (leaves ns rest).nodes p n ↔ Nearest rank rest.nodes p n := by
  obtain ⟨-, -, hlt⟩ := pairwise_leaves hs
  have hsub : rest.nodes ⊆ (leaves ns rest).nodes := fun m hm => mem_nodes_leaves.mpr (.inr hm)
  have hbetween : p ∈ rest.nodes → ∀ m ∈ (leaves ns rest).nodes, p < m → m < n → m ∈ rest.nodes :=
    fun hp m hm hpm _ => (mem_nodes_leaves.mp hm).resolve_left fun hm =>
      Nat.lt_asymm (hlt m hm p hp) hpm
  constructor
  · intro hnr
    -- A leaf has the greatest rank, so it is no parent.
    have hp : p ∈ rest.nodes := (mem_nodes_leaves.mp hnr.parent_mem).resolve_left fun hp => by
      have := h.rank_le n hnr.mem
      have := h.2.1 p hp
      have := hnr.smaller
      omega
    have hn : n ∈ rest.nodes := (mem_nodes_leaves.mp hnr.mem).resolve_left fun hn =>
      Nat.lt_asymm (hlt n hn p hp) hnr.before
    exact (nearest_iff_of_part hsub hp hn (hbetween hp)).mp hnr
  · intro hnr
    exact (nearest_iff_of_part hsub hnr.parent_mem hnr.mem (hbetween hnr.parent_mem)).mpr hnr

section Node

variable {key : NodeId} {below rest : Hierarchy} {p n : NodeId}

/-- Below a key, the nodes of the top level have the key for parent, and the
others have theirs where they had it without the key. -/
theorem nearest_node_iff_of_mem_below (h : (node key below rest).Graded rank leafRank)
    (hs : (node key below rest).nodes.Pairwise (· < ·)) (hn : n ∈ below.nodes) :
    Nearest rank (node key below rest).nodes p n ↔
      (p = key ∧ n ∈ below.tops) ∨ Nearest rank below.nodes p n := by
  obtain ⟨hkb, -, hb, -, hlt⟩ := pairwise_node hs
  have hsub : below.nodes ⊆ (node key below rest).nodes :=
    fun m hm => mem_nodes_node.mpr (.inr (.inl hm))
  have hbetween : ∀ m ∈ (node key below rest).nodes, key < m → m < n → m ∈ below.nodes := by
    intro m hm hkm hmn
    rcases mem_nodes_node.mp hm with rfl | hm | hm
    · exact absurd hkm (Nat.lt_irrefl _)
    · exact hm
    · exact absurd hmn (Nat.lt_asymm (hlt n hn m hm))
  have hpart : p ∈ below.nodes →
      (Nearest rank (node key below rest).nodes p n ↔ Nearest rank below.nodes p n) := fun hp =>
    nearest_iff_of_part hsub hp hn fun m hm hpm => hbetween m hm (Nat.lt_trans (hkb p hp) hpm)
  constructor
  · intro hnr
    rcases mem_nodes_node.mp hnr.parent_mem with rfl | hp | hp
    · exact .inl ⟨rfl, (h.2.2.2.1.mem_tops_iff hb).mpr ⟨hn, fun m hm =>
        hnr.nearest m (hsub hm) (hkb m hm)⟩⟩
    · exact .inr ((hpart hp).mp hnr)
    · exact absurd hnr.before (Nat.lt_asymm (hlt n hn p hp))
  · rintro (⟨rfl, ht⟩ | hnr)
    · exact ⟨mem_nodes_node.mpr (.inl rfl), hsub hn, hkb n hn, h.2.1 n hn, fun m hm hkm hmn =>
        ((h.2.2.2.1.mem_tops_iff hb).mp ht).2 m (hbetween m hm hkm hmn) hmn⟩
    · exact (hpart hnr.parent_mem).mpr hnr

/-- Behind the nodes below a key, no node has its parent among them: the top
node over it has no greater rank than the key. -/
theorem nearest_node_iff_of_mem_rest (h : (node key below rest).Graded rank leafRank)
    (hs : (node key below rest).nodes.Pairwise (· < ·)) (hn : n ∈ rest.nodes) :
    Nearest rank (node key below rest).nodes p n ↔ Nearest rank rest.nodes p n := by
  obtain ⟨-, hkr, -, hr, hlt⟩ := pairwise_node hs
  have hsub : rest.nodes ⊆ (node key below rest).nodes :=
    fun m hm => mem_nodes_node.mpr (.inr (.inr hm))
  have hpart : p ∈ rest.nodes →
      (Nearest rank (node key below rest).nodes p n ↔ Nearest rank rest.nodes p n) := by
    refine fun hp => nearest_iff_of_part hsub hp hn fun m hm hpm hmn => ?_
    rcases mem_nodes_node.mp hm with rfl | hm | hm
    · exact absurd hpm (Nat.lt_asymm (hkr p hp))
    · exact absurd hpm (Nat.lt_asymm (hlt m hm p hp))
    · exact hm
  refine ⟨fun hnr => (hpart ?_).mp hnr, fun hnr => (hpart hnr.parent_mem).mpr hnr⟩
  by_contra hp
  have hlow : rank key ≤ rank p ∧ ∀ m ∈ rest.nodes, p < m := by
    rcases mem_nodes_node.mp hnr.parent_mem with rfl | hp' | hp'
    · exact ⟨Nat.le_refl _, hkr⟩
    · exact ⟨Nat.le_of_lt (h.2.1 p hp'), hlt p hp'⟩
    · exact absurd hp' hp
  have htop : n ∈ rest.tops := (h.2.2.2.2.mem_tops_iff hr).mpr ⟨hn, fun m hm =>
    hnr.nearest m (hsub hm) (hlow.2 m hm)⟩
  have := h.2.2.1 n htop
  have := hnr.smaller
  omega

end Node

/-- A link goes to a node from the last node of a smaller rank before it. -/
theorem Graded.mem_links_iff {t : Hierarchy} (h : t.Graded rank leafRank)
    (hs : t.nodes.Pairwise (· < ·)) {p n : NodeId} :
    (p, n) ∈ t.links ↔ Nearest rank t.nodes p n := by
  induction t with
  | empty => exact ⟨nofun, fun hnr => nomatch hnr.mem⟩
  | leaves ns rest ih =>
    rw [nearest_leaves_iff h hs]
    exact ih h.2.2.2 (pairwise_leaves hs).2.1
  | node key below rest ihb ihr =>
    obtain ⟨hkb, hkr, hb, hr, hlt⟩ := pairwise_node hs
    have htop : (p, n) ∈ below.tops.map (key, ·) ↔ p = key ∧ n ∈ below.tops := by
      rw [List.mem_map]
      constructor
      · rintro ⟨m, hm, he⟩
        cases he
        exact ⟨rfl, hm⟩
      · rintro ⟨rfl, ht⟩
        exact ⟨n, ht, rfl⟩
    rw [links, List.mem_append, List.mem_append, ihb h.2.2.2.1 hb, ihr h.2.2.2.2 hr, htop,
      ← or_assoc]
    constructor
    · rintro (hnr | hnr)
      · refine (nearest_node_iff_of_mem_below h hs ?_).mpr hnr
        exact hnr.elim (fun ht => mem_nodes_of_mem_tops ht.2) Nearest.mem
      · exact (nearest_node_iff_of_mem_rest h hs hnr.mem).mpr hnr
    · intro hnr
      rcases mem_nodes_node.mp hnr.mem with rfl | hn | hn
      · -- No node stands before the first one.
        rcases mem_nodes_node.mp hnr.parent_mem with rfl | hp | hp
        · exact absurd hnr.before (Nat.lt_irrefl _)
        · exact absurd hnr.before (Nat.lt_asymm (hkb p hp))
        · exact absurd hnr.before (Nat.lt_asymm (hkr p hp))
      · exact .inl ((nearest_node_iff_of_mem_below h hs hn).mp hnr)
      · exact .inr ((nearest_node_iff_of_mem_rest h hs hn).mp hnr)

/-! ## The statement -/

namespace Arranges

variable {level : NodeId → Option Nat} {leafLevel : Nat} {nodes : List NodeId} {t : Hierarchy}

theorem above_iff (h : t.Arranges level leafLevel nodes) {m n : NodeId} (hm : m ∈ t.nodes)
    (hn : n ∈ t.nodes) : Above level m n ↔ rankOf level m < rankOf level n := by
  simp [Above, h.level_eq hm, h.level_eq hn]

theorem mem_of_above (h : t.Arranges level leafLevel nodes) {m n : NodeId} (hm : m ∈ nodes)
    (hn : n ∈ nodes) (ha : Above level m n) : m ∈ t.nodes ∧ n ∈ t.nodes := by
  obtain ⟨a, hma, b, hnb, -⟩ := ha
  rw [h.mem_nodes_iff, h.mem_nodes_iff, Option.mem_def.mp hma, Option.mem_def.mp hnb]
  exact ⟨⟨hm, rfl⟩, hn, rfl⟩

/-- A statement about all nodes with a greater or equal rank is one about all
nodes that are not above. -/
theorem forall_not_above_iff (h : t.Arranges level leafLevel nodes) {n : NodeId} (hn : n ∈ t.nodes)
    {P : NodeId → Prop} :
    (∀ m ∈ nodes, P m → ¬ Above level m n) ↔
      ∀ m ∈ t.nodes, P m → rankOf level n ≤ rankOf level m := by
  constructor
  · intro hall m hm hp
    have := hall m (h.mem_nodes_iff.mp hm).1 hp
    rw [h.above_iff hm hn] at this
    exact Nat.le_of_not_lt this
  · intro hall m hm hp ha
    have hmn := h.mem_of_above hm (h.mem_nodes_iff.mp hn).1 ha
    exact Nat.not_lt_of_le (hall m hmn.1 hp) ((h.above_iff hmn.1 hn).mp ha)

theorem mem_links_iff (h : t.Arranges level leafLevel nodes) {p n : NodeId} :
    (p, n) ∈ t.links ↔ IsParent level nodes p n := by
  rw [h.graded.mem_links_iff h.pairwise_nodes]
  constructor
  · rintro ⟨hp, hn, hpn, hrk, hle⟩
    refine ⟨(h.mem_nodes_iff.mp hp).1, (h.mem_nodes_iff.mp hn).1, hpn, (h.above_iff hp hn).mpr hrk,
      fun m hm hpm hmn => ?_⟩
    exact (h.forall_not_above_iff (P := fun m => p < m ∧ m < n) hn).mpr
      (fun m hm hb => hle m hm hb.1 hb.2) m hm ⟨hpm, hmn⟩
  · rintro ⟨hp, hn, hpn, ha, hnear⟩
    obtain ⟨hp, hn⟩ := h.mem_of_above hp hn ha
    refine ⟨hp, hn, hpn, (h.above_iff hp hn).mp ha, fun m hm hpm hmn => ?_⟩
    exact (h.forall_not_above_iff (P := fun m => p < m ∧ m < n) hn).mp
      (fun m hm hb => hnear m hm hb.1 hb.2) m hm ⟨hpm, hmn⟩

theorem mem_tops_iff (h : t.Arranges level leafLevel nodes) {n : NodeId} :
    n ∈ t.tops ↔ n ∈ nodes ∧ (level n).isSome ∧ ∀ m ∈ nodes, m < n → ¬ Above level m n := by
  rw [h.graded.mem_tops_iff h.pairwise_nodes, ← and_assoc, ← h.mem_nodes_iff]
  exact and_congr_right fun hn => (h.forall_not_above_iff hn).symm

end Arranges

/-- Each node of a built hierarchy stands right below the last node of the
slice before it that has a smaller level, or on the top level if there is none. -/
theorem build_links {d : Document} {root : NodeId} {start stop : Option Marker} {levels : Levels}
    {t : Hierarchy} (h : build d root start stop levels = .ok t) :
    ∃ slice, d.slice root start stop = .ok slice ∧
      (∀ p n, (p, n) ∈ t.links ↔ IsParent (levels.levelIn? d) slice p n) ∧
      ∀ n, n ∈ t.tops ↔ n ∈ slice ∧ (levels.levelIn? d n).isSome ∧
        ∀ m ∈ slice, m < n → ¬ Above (levels.levelIn? d) m n := by
  obtain ⟨slice, hs, ha⟩ := arranges_build h
  exact ⟨slice, hs, fun _ _ => ha.mem_links_iff, fun _ => ha.mem_tops_iff⟩

theorem outline_links :
    ∃ slice, outlinePage.slice Document.root (some ⟨"H3", .any⟩) (some ⟨"footer", .any⟩) = .ok slice ∧
      (∀ p n, (p, n) ∈ outline.links ↔
        IsParent (outlineLevels.levelIn? outlinePage) slice p n) ∧
      ∀ n, n ∈ outline.tops ↔ n ∈ slice ∧ (outlineLevels.levelIn? outlinePage n).isSome ∧
        ∀ m ∈ slice, m < n → ¬ Above (outlineLevels.levelIn? outlinePage) m n :=
  build_links build_outlinePage

end Hierarchy

end Gleaner
