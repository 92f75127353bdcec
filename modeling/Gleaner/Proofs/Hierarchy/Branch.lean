import Gleaner.Proofs.Hierarchy.Parent
import Gleaner.Proofs.Hierarchy.Walk

/-!
# The branches of a built hierarchy

There is one branch for each leaf of the slice, in document order, and it leads
to the leaf through its chain of headings. Taken together the branches name all
nodes with a level but the headings of sections without a leaf; a section ends
before the next node of no greater level.

* `Hierarchy.bearing`: the nodes that lie on a branch;
* `Hierarchy.covers_pathsFrom`: they are what the branches name, each node where
  it is named first;
* `IsBranch`, `LeafFollows`: the chain of headings of a leaf, and whether the
  section of a heading has a leaf, for nodes in document order;
* `Graded.bearing_eq_filter`: the nodes on branches by ranks;
* `Hierarchy.build_branches`: the whole statement.
-/

namespace Gleaner

namespace Hierarchy

/-- The nodes that lie on a branch: leaves, and keys with a leaf below them. -/
def bearing : Hierarchy → List NodeId
  | empty => []
  | leaves ns rest => ns ++ rest.bearing
  | node key below rest =>
    (if below.leafNodes = [] then [] else key :: below.bearing) ++ rest.bearing

theorem bearing_sublist (t : Hierarchy) : t.bearing.Sublist t.nodes := by
  induction t with
  | empty => exact .slnil
  | leaves ns rest ih => exact (List.Sublist.refl ns).append ih
  | node key below rest ihb ihr =>
    rw [bearing, nodes, ← List.cons_append]
    refine List.Sublist.append ?_ ihr
    split
    · exact List.nil_sublist _
    · exact ihb.cons_cons key

theorem bearing_eq_nil_iff {t : Hierarchy} : t.bearing = [] ↔ t.leafNodes = [] := by
  induction t with
  | empty => exact Iff.rfl
  | leaves ns rest ih => rw [bearing, leafNodes, List.append_eq_nil_iff, List.append_eq_nil_iff, ih]
  | node key below rest _ ih =>
    rw [bearing, leafNodes, List.append_eq_nil_iff, List.append_eq_nil_iff, ih]
    by_cases h : below.leafNodes = []
    · rw [if_pos h, h]
    · rw [if_neg h]
      exact and_congr_left fun _ =>
        ⟨fun ha => absurd ha (List.cons_ne_nil _ _), fun hb => absurd hb h⟩

theorem pathsFrom_eq_nil_iff {t : Hierarchy} {above : List NodeId} :
    t.pathsFrom above = [] ↔ t.leafNodes = [] := by
  rw [← List.length_eq_zero_iff, ← List.length_eq_zero_iff, (t.forall₂_pathsFrom above).length_eq]

/-! ## First occurrences -/

theorem eraseDups_of_nodup : ∀ {l : List NodeId}, l.Nodup → l.eraseDups = l
  | [], _ => rfl
  | a :: l, h => by
    obtain ⟨ha, hl⟩ := List.nodup_cons.mp h
    have hf : (l.filter fun b => !b == a) = l :=
      List.filter_eq_self.mpr fun b hb => by
        have : b ≠ a := fun e => ha (e ▸ hb)
        simpa using this
    rw [List.eraseDups_cons, hf, eraseDups_of_nodup hl]

theorem eraseDups_filter (p : NodeId → Bool) (l : List NodeId) :
    (l.filter p).eraseDups = l.eraseDups.filter p := by
  match l with
  | [] => rfl
  | a :: l =>
    have : (l.filter fun b => !b == a).length < l.length + 1 :=
      Nat.lt_succ_of_le (List.length_filter_le _ _)
    have ih := eraseDups_filter p (l.filter fun b => !b == a)
    rw [List.filter_comm] at ih
    rw [List.eraseDups_cons, List.filter_cons, List.filter_cons]
    split
    · rw [List.eraseDups_cons, ih]
    · rename_i hp
      have hf : ((l.filter p).filter fun b => !b == a) = l.filter p :=
        List.filter_eq_self.mpr fun b hb => by
          have : b ≠ a := fun e => hp (e ▸ (List.mem_filter.mp hb).2)
          simpa using this
      rw [← ih, hf]
termination_by l.length

/-- Whether lists of nodes that all start with the nodes `above` name, apart
from these, the nodes `named`, each where it comes first; or name nothing. -/
def Covers (above named l : List NodeId) : Prop :=
  (l = [] ∧ named = []) ∨ l.eraseDups = above ++ named

theorem Covers.append {above xs ys k l : List NodeId} (hk : Covers above xs k)
    (hl : Covers above ys l) (hd : ∀ y ∈ ys, y ∉ above ∧ y ∉ xs) :
    Covers above (xs ++ ys) (k ++ l) := by
  rcases hk with ⟨rfl, rfl⟩ | hk
  · exact hl
  · refine .inr ?_
    have hmem : ∀ n, n ∈ k ↔ n ∈ above ∨ n ∈ xs := by
      intro n
      rw [← List.mem_eraseDups, hk, List.mem_append]
    have hys : (above ++ ys).filter (fun n => !k.elem n) = ys := by
      have ha : above.filter (fun n => !k.elem n) = [] :=
        List.filter_eq_nil_iff.mpr fun n hn => by
          have := (hmem n).mpr (.inl hn)
          simpa using this
      have hy : ys.filter (fun n => !k.elem n) = ys :=
        List.filter_eq_self.mpr fun n hn => by
          have := mt (hmem n).mp (not_or.mpr (hd n hn))
          simpa using this
      rw [List.filter_append, ha, hy]
      rfl
    rw [List.eraseDups_append, hk, List.removeAll, eraseDups_filter]
    rcases hl with ⟨rfl, rfl⟩ | hl
    · simp
    · rw [hl, hys, List.append_assoc]

theorem covers_leaves {above : List NodeId} :
    ∀ {ns : List NodeId}, (above ++ ns).Nodup →
      Covers above ns (ns.map fun n => above ++ [n]).flatten
  | [], _ => .inl ⟨rfl, rfl⟩
  | n :: ns, h => by
    rw [List.append_cons] at h
    obtain ⟨hn, hns, hd⟩ := List.nodup_append.mp h
    have hrest : (above ++ ns).Nodup := h.sublist
      ((List.sublist_append_left _ _).append (List.Sublist.refl _))
    have hfirst : Covers above [n] (above ++ [n]) := .inr (eraseDups_of_nodup hn)
    refine hfirst.append (covers_leaves hrest) fun m hm => ?_
    rw [← not_or, ← List.mem_append]
    exact fun hmn => hd m hmn m hm rfl

/-- The branches name the nodes above them and then the nodes that lie on them. -/
theorem covers_pathsFrom (t : Hierarchy) (above : List NodeId) (h : (above ++ t.nodes).Nodup) :
    Covers above t.bearing (t.pathsFrom above).flatten := by
  induction t generalizing above with
  | empty => exact .inl ⟨rfl, rfl⟩
  | leaves ns rest ih =>
    rw [nodes, ← List.append_assoc] at h
    obtain ⟨hns, -, hd⟩ := List.nodup_append.mp h
    have hrest : (above ++ rest.nodes).Nodup := h.sublist
      ((List.sublist_append_left _ _).append (List.Sublist.refl _))
    rw [pathsFrom, bearing, List.flatten_append]
    refine Covers.append (covers_leaves hns) (ih above hrest) fun m hm => ?_
    rw [← not_or, ← List.mem_append]
    exact fun hmn => hd m hmn m (rest.bearing_sublist.subset hm) rfl
  | node key below rest ihb ihr =>
    rw [nodes, List.append_cons, ← List.append_assoc] at h
    obtain ⟨hb, -, hd⟩ := List.nodup_append.mp h
    have hrest : (above ++ rest.nodes).Nodup := h.sublist
      (((List.sublist_append_left _ _).trans (List.sublist_append_left _ _)).append
        (List.Sublist.refl _))
    rw [pathsFrom, bearing, List.flatten_append]
    refine Covers.append ?_ (ihr above hrest) fun m hm => ?_
    · split
      · rename_i hl
        rw [pathsFrom_eq_nil_iff.mpr hl]
        exact .inl ⟨rfl, rfl⟩
      · rename_i hl
        rcases ihb (above ++ [key]) hb with ⟨-, hnil⟩ | hl'
        · exact absurd (bearing_eq_nil_iff.mp hnil) hl
        · exact .inr (hl'.trans (List.append_assoc _ _ _))
    · have hm := rest.bearing_sublist.subset hm
      refine ⟨fun hma => hd m (by simp [hma]) m hm rfl, fun hmb => ?_⟩
      split at hmb
      · cases hmb
      · rcases List.mem_cons.mp hmb with rfl | hmb
        · exact hd m (by simp) m hm rfl
        · exact hd m (List.mem_append_right _ (below.bearing_sublist.subset hmb)) m hm rfl

/-! ## Sections -/

variable {rank : NodeId → Nat} {leafRank : Nat}

/-- Whether a leaf comes after a node and before the next node of no greater
rank. -/
def LeafInSection (rank : NodeId → Nat) (leafRank : Nat) (nodes : List NodeId) (n : NodeId) : Prop :=
  ∃ x ∈ nodes, n < x ∧ rank x = leafRank ∧ ∀ m ∈ nodes, n < m → m < x → rank n < rank m

instance (rank : NodeId → Nat) (leafRank : Nat) (nodes : List NodeId) (n : NodeId) :
    Decidable (LeafInSection rank leafRank nodes n) :=
  inferInstanceAs (Decidable (∃ x ∈ nodes, _ ∧ _ ∧ ∀ m ∈ nodes, _ → _ → _))

/-- Behind a node only the nodes behind it matter. -/
theorem leafInSection_iff_of_rest {rest whole : List NodeId} {n : NodeId} (hsub : rest ⊆ whole)
    (hrest : ∀ m ∈ whole, n < m → m ∈ rest) :
    LeafInSection rank leafRank whole n ↔ LeafInSection rank leafRank rest n := by
  constructor
  · rintro ⟨x, hx, hnx, hrk, hm⟩
    exact ⟨x, hrest x hx hnx, hnx, hrk, fun m hmr => hm m (hsub hmr)⟩
  · rintro ⟨x, hx, hnx, hrk, hm⟩
    exact ⟨x, hsub hx, hnx, hrk, fun m hmw hnm => hm m (hrest m hmw hnm) hnm⟩

theorem exists_tops_le {t : Hierarchy} (hs : t.nodes.Pairwise (· < ·)) {n : NodeId}
    (hn : n ∈ t.nodes) : ∃ m ∈ t.tops, m ≤ n := by
  induction t with
  | empty => cases hn
  | leaves ns rest ih =>
    rcases mem_nodes_leaves.mp hn with hn | hn
    · exact ⟨n, List.mem_append_left _ hn, Nat.le_refl _⟩
    · obtain ⟨m, hm, hle⟩ := ih (pairwise_leaves hs).2.1 hn
      exact ⟨m, List.mem_append_right _ hm, hle⟩
  | node key below rest _ ih =>
    obtain ⟨hkb, -, -, hr, -⟩ := pairwise_node hs
    rcases mem_nodes_node.mp hn with rfl | hn | hn
    · exact ⟨n, List.mem_cons_self, Nat.le_refl _⟩
    · exact ⟨key, List.mem_cons_self, Nat.le_of_lt (hkb n hn)⟩
    · obtain ⟨m, hm, hle⟩ := ih hr hn
      exact ⟨m, List.mem_cons_of_mem _ hm, hle⟩

section Node

variable {key : NodeId} {below rest : Hierarchy} {n : NodeId}

/-- The section of a key or of a node below it ends with the nodes below the
key: what follows starts with a node of no greater rank than the key. -/
theorem leafInSection_node_iff (h : (node key below rest).Graded rank leafRank)
    (hs : (node key below rest).nodes.Pairwise (· < ·)) (hn : n = key ∨ n ∈ below.nodes) :
    LeafInSection rank leafRank (node key below rest).nodes n ↔
      LeafInSection rank leafRank below.nodes n := by
  obtain ⟨hkb, hkr, -, hr, hlt⟩ := pairwise_node hs
  have hkn : key ≤ n ∧ rank key ≤ rank n ∧ ∀ m ∈ rest.nodes, n < m := by
    rcases hn with rfl | hn
    · exact ⟨Nat.le_refl _, Nat.le_refl _, hkr⟩
    · exact ⟨Nat.le_of_lt (hkb n hn), Nat.le_of_lt (h.2.1 n hn), hlt n hn⟩
  have hsub : below.nodes ⊆ (node key below rest).nodes :=
    fun m hm => mem_nodes_node.mpr (.inr (.inl hm))
  constructor
  · rintro ⟨x, hx, hnx, hrk, hm⟩
    rcases mem_nodes_node.mp hx with rfl | hx | hx
    · exact absurd hnx (Nat.not_lt_of_le hkn.1)
    · exact ⟨x, hx, hnx, hrk, fun m hmb => hm m (hsub hmb)⟩
    · obtain ⟨m, hmt, hmx⟩ := exists_tops_le hr hx
      have hmr := mem_nodes_of_mem_tops hmt
      have hle := h.2.2.1 m hmt
      have hne : m ≠ x := by
        rintro rfl
        have := h.1
        omega
      have := hm m (mem_nodes_node.mpr (.inr (.inr hmr))) (hkn.2.2 m hmr)
        (Nat.lt_of_le_of_ne hmx hne)
      omega
  · rintro ⟨x, hx, hnx, hrk, hm⟩
    refine ⟨x, hsub hx, hnx, hrk, fun m hmw hnm hmx => ?_⟩
    rcases mem_nodes_node.mp hmw with rfl | hmb | hmr
    · exact absurd hnm (Nat.not_lt_of_le hkn.1)
    · exact hm m hmb hnm hmx
    · exact absurd hmx (Nat.lt_asymm (hlt x hx m hmr))

/-- The section of a key has a leaf if there is one below the key. -/
theorem leafInSection_key_iff (h : (node key below rest).Graded rank leafRank)
    (hs : (node key below rest).nodes.Pairwise (· < ·)) :
    LeafInSection rank leafRank (node key below rest).nodes key ↔ below.leafNodes ≠ [] := by
  rw [leafInSection_node_iff h hs (.inl rfl), h.2.2.2.1.leafNodes_eq_filter, ne_eq,
    List.filter_eq_nil_iff]
  have hkb := (pairwise_node hs).1
  constructor
  · rintro ⟨x, hx, -, hrk, -⟩ hall
    exact hall x hx (decide_eq_true hrk)
  · intro hne
    by_contra hno
    refine hne fun x hx hrk => hno ⟨x, hx, hkb x hx, of_decide_eq_true hrk, fun m hm _ _ => ?_⟩
    exact h.2.1 m hm

end Node

/-- The nodes on branches are the leaves and the nodes whose section has one. -/
theorem Graded.bearing_eq_filter {t : Hierarchy} (h : t.Graded rank leafRank)
    (hs : t.nodes.Pairwise (· < ·)) :
    t.bearing = t.nodes.filter fun n => rank n = leafRank ∨ LeafInSection rank leafRank t.nodes n := by
  induction t with
  | empty => rfl
  | leaves ns rest ih =>
    obtain ⟨-, hr, hlt⟩ := pairwise_leaves hs
    rw [bearing, nodes, List.filter_append, ih h.2.2.2 hr]
    refine congrArg₂ _ (List.filter_eq_self.mpr fun n hn => ?_).symm (List.filter_congr fun n hn => ?_)
    · exact decide_eq_true (.inl (h.2.1 n hn))
    · refine decide_eq_decide.mpr (or_congr_right (leafInSection_iff_of_rest ?_ ?_).symm)
      · exact List.subset_append_right _ _
      · exact fun m hm hnm => (List.mem_append.mp hm).resolve_left fun hm =>
          Nat.lt_asymm (hlt m hm n hn) hnm
  | node key below rest ihb ihr =>
    obtain ⟨-, hkr, hb, hr, hlt⟩ := pairwise_node hs
    have hbelow : below.nodes.filter (fun n =>
          rank n = leafRank ∨ LeafInSection rank leafRank (node key below rest).nodes n) =
        below.bearing := by
      rw [ihb h.2.2.2.1 hb]
      exact List.filter_congr fun n hn =>
        decide_eq_decide.mpr (or_congr_right (leafInSection_node_iff h hs (.inr hn)))
    have hrest : rest.nodes.filter (fun n =>
          rank n = leafRank ∨ LeafInSection rank leafRank (node key below rest).nodes n) =
        rest.bearing := by
      rw [ihr h.2.2.2.2 hr]
      refine List.filter_congr fun n hn =>
        decide_eq_decide.mpr (or_congr_right (leafInSection_iff_of_rest ?_ ?_))
      · exact fun m hm => mem_nodes_node.mpr (.inr (.inr hm))
      · intro m hm hnm
        rcases mem_nodes_node.mp hm with rfl | hm | hm
        · exact absurd hnm (Nat.lt_asymm (hkr n hn))
        · exact absurd hnm (Nat.lt_asymm (hlt m hm n hn))
        · exact hm
    have hkey := (or_iff_right (Nat.ne_of_lt h.1)).trans (leafInSection_key_iff h hs)
    show _ = ((key :: below.nodes) ++ rest.nodes).filter _
    rw [bearing, List.filter_append, hrest]
    by_cases hl : below.leafNodes = []
    · rw [if_pos hl, List.filter_cons_of_neg (by rw [decide_eq_true_iff, hkey]; exact not_not.mpr hl),
        hbelow, bearing_eq_nil_iff.mpr hl]
    · rw [if_neg hl, List.filter_cons_of_pos (by rw [decide_eq_true_iff, hkey]; exact hl), hbelow]

/-! ## The statement -/

/-- Whether a list of nodes is the chain of headings of a node, with that node
at its end. -/
structure IsBranch (level : NodeId → Option Nat) (nodes branch : List NodeId) (n : NodeId) :
    Prop where
  last : branch.getLast? = some n
  chain : branch.IsChain (IsParent level nodes)
  top : ∀ m ∈ branch.head?, ∀ k ∈ nodes, k < m → ¬ Above level k m

/-- Whether both nodes have a level and a section of the second one ends before
the first one. -/
def Closes (level : NodeId → Option Nat) (m n : NodeId) : Prop :=
  ∃ a ∈ level m, ∃ b ∈ level n, a ≤ b

/-- Whether a node of the leaf level comes after a node and before the end of
its section. -/
def LeafFollows (level : NodeId → Option Nat) (leafLevel : Nat) (nodes : List NodeId) (n : NodeId) :
    Prop :=
  ∃ x ∈ nodes, n < x ∧ level x = some leafLevel ∧ ∀ m ∈ nodes, n < m → m < x → ¬ Closes level m n

instance (level : NodeId → Option Nat) (m n : NodeId) : Decidable (Closes level m n) :=
  inferInstanceAs (Decidable (∃ _ ∈ level m, ∃ _ ∈ level n, _))

instance (level : NodeId → Option Nat) (leafLevel : Nat) (nodes : List NodeId) (n : NodeId) :
    Decidable (LeafFollows level leafLevel nodes n) :=
  inferInstanceAs (Decidable (∃ x ∈ nodes, _ ∧ _ ∧ ∀ m ∈ nodes, _ → _ → _))

namespace Arranges

variable {level : NodeId → Option Nat} {leafLevel : Nat} {nodes : List NodeId} {t : Hierarchy}

theorem isBranch (h : t.Arranges level leafLevel nodes) {path : List NodeId} {n : NodeId}
    (hp : t.IsPath path n) : IsBranch level nodes path n :=
  ⟨hp.last, hp.chain.imp fun _ _ hl => h.mem_links_iff.mp hl,
    fun m hm => (h.mem_tops_iff.mp (hp.top m hm)).2.2⟩

theorem leafNodes_eq_filter (h : t.Arranges level leafLevel nodes) :
    t.leafNodes = nodes.filter (level · = some leafLevel) := by
  rw [h.graded.leafNodes_eq_filter, h.nodes_eq, List.filter_filter]
  refine List.filter_congr fun n _ => ?_
  cases hl : level n <;> simp [rankOf, hl]

theorem leafInSection_iff (h : t.Arranges level leafLevel nodes) {n : NodeId} (hn : n ∈ t.nodes) :
    LeafInSection (rankOf level) leafLevel t.nodes n ↔ LeafFollows level leafLevel nodes n := by
  have closes_iff : ∀ m ∈ t.nodes, Closes level m n ↔ rankOf level m ≤ rankOf level n := by
    intro m hm
    simp [Closes, h.level_eq hm, h.level_eq hn]
  constructor
  · rintro ⟨x, hx, hnx, hrk, hm⟩
    refine ⟨x, (h.mem_nodes_iff.mp hx).1, hnx, by rw [h.level_eq hx, hrk], fun m hmn hlt hmx hc => ?_⟩
    have hmt : m ∈ t.nodes := by
      obtain ⟨a, ha, -⟩ := hc
      exact h.mem_nodes_iff.mpr ⟨hmn, Option.isSome_iff_exists.mpr ⟨a, ha⟩⟩
    exact Nat.not_le_of_lt (hm m hmt hlt hmx) ((closes_iff m hmt).mp hc)
  · rintro ⟨x, hx, hnx, hl, hm⟩
    have hxt : x ∈ t.nodes := h.mem_nodes_iff.mpr ⟨hx, by rw [hl]; rfl⟩
    refine ⟨x, hxt, hnx, by rw [rankOf, hl]; rfl, fun m hmt hlt hmx => ?_⟩
    exact Nat.lt_of_not_le fun hle => hm m (h.mem_nodes_iff.mp hmt).1 hlt hmx
      ((closes_iff m hmt).mpr hle)

theorem eraseDups_branches (h : t.Arranges level leafLevel nodes) :
    t.branches.flatten.eraseDups = nodes.filter fun n =>
      (level n).isSome ∧ (level n = some leafLevel ∨ LeafFollows level leafLevel nodes n) := by
  have hnodup : ([] ++ t.nodes).Nodup := h.pairwise_nodes.imp Nat.ne_of_lt
  have hb : t.branches.flatten.eraseDups = t.bearing := by
    rw [branches_eq_paths, paths]
    rcases t.covers_pathsFrom [] hnodup with ⟨hnil, hbear⟩ | hcov
    · rw [hnil, hbear]
      rfl
    · exact hcov
  have hkept : ∀ n ∈ t.nodes,
      decide (rankOf level n = leafLevel ∨ LeafInSection (rankOf level) leafLevel t.nodes n) =
        decide (level n = some leafLevel ∨ LeafFollows level leafLevel nodes n) := by
    refine fun n hn => decide_eq_decide.mpr (or_congr ?_ (h.leafInSection_iff hn))
    rw [h.level_eq hn, Option.some.injEq]
  rw [hb, h.graded.bearing_eq_filter h.pairwise_nodes, List.filter_congr hkept, h.nodes_eq,
    List.filter_filter]
  exact List.filter_congr fun n _ => by rw [Bool.decide_and, Bool.decide_eq_true, Bool.and_comm]

end Arranges

/-- A built hierarchy has one branch for each leaf of the slice, in document
order, which is its chain of headings; and the branches name all nodes of the
slice that have a level but the headings of sections without a leaf. -/
theorem build_branches {d : Document} {root : NodeId} {start stop : Option Marker} {levels : Levels}
    {t : Hierarchy} (h : build d root start stop levels = .ok t) :
    ∃ slice, d.slice root start stop = .ok slice ∧
      List.Forall₂ (IsBranch (levels.levelIn? d) slice) t.branches
        (slice.filter (levels.levelIn? d · = some levels.leafLevel)) ∧
      t.branches.flatten.eraseDups = slice.filter fun n =>
        (levels.levelIn? d n).isSome ∧ (levels.levelIn? d n = some levels.leafLevel ∨
          LeafFollows (levels.levelIn? d) levels.leafLevel slice n) := by
  obtain ⟨slice, hs, ha⟩ := arranges_build h
  refine ⟨slice, hs, ?_, ha.eraseDups_branches⟩
  rw [← ha.leafNodes_eq_filter]
  exact t.forall₂_branches.imp fun _ _ hp => ha.isBranch hp

theorem outline_branches :
    ∃ slice, outlinePage.slice Document.root (some ⟨"H3", .any⟩) (some ⟨"footer", .any⟩) = .ok slice ∧
      List.Forall₂ (IsBranch (outlineLevels.levelIn? outlinePage) slice) outline.branches
        (slice.filter (outlineLevels.levelIn? outlinePage · = some outlineLevels.leafLevel)) ∧
      outline.branches.flatten.eraseDups = slice.filter fun n =>
        (outlineLevels.levelIn? outlinePage n).isSome ∧
          (outlineLevels.levelIn? outlinePage n = some outlineLevels.leafLevel ∨
            LeafFollows (outlineLevels.levelIn? outlinePage) outlineLevels.leafLevel slice n) :=
  build_branches build_outlinePage

end Hierarchy

end Gleaner
