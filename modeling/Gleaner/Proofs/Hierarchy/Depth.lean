import Mathlib.Data.Finset.Card
import Gleaner.Proofs.Hierarchy.Branch
import Gleaner.Proofs.Hierarchy.Descent

/-!
# How deep a built hierarchy is

From the top of a built hierarchy downwards the levels of the nodes increase, so that
no way down is longer than there are levels, however many nodes there are. The same
holds of the calls that build it by descent: the owners of the calls that are open have
smaller and smaller levels outwards, and no leaf has a call.

* `Levels.values`: the levels that there are, and `Levels.countFrom`: how many of them
  are left from one on;
* `Graded.rank_lt_of_mem_links`, `IsPath.pairwise_rank`: ranks on the way down;
* `IsPath.length_le`, `Graded.depth_le`, `Descends.nesting_le`: paths, depths and calls
  by the number of ranks that are left;
* `Hierarchy.build_depth`: the whole statement.
-/

namespace Gleaner

/-! ## Numbers of levels -/

namespace Levels

/-- The levels that there are, each once. -/
def values (levels : Levels) : Finset Nat :=
  (levels.entries.map (·.2)).toFinset

/-- How many of some numbers are not below a bound. -/
def countFrom (numbers : Finset Nat) (bound : Nat) : Nat :=
  (numbers.filter (bound ≤ ·)).card

variable {numbers : Finset Nat} {bound n : Nat}

theorem countFrom_le_card (numbers : Finset Nat) (bound : Nat) :
    countFrom numbers bound ≤ numbers.card :=
  Finset.card_filter_le _ _

/-- Behind one of the numbers there are fewer of them. -/
theorem countFrom_succ_lt (hn : n ∈ numbers) (hb : bound ≤ n) :
    countFrom numbers (n + 1) < countFrom numbers bound := by
  refine Finset.card_lt_card (Finset.ssubset_iff_of_subset ?_ |>.mpr ⟨n, ?_, ?_⟩)
  · exact Finset.monotone_filter_right _ fun m _ hm => by omega
  · exact Finset.mem_filter.mpr ⟨hn, hb⟩
  · intro hmem
    exact absurd (Finset.mem_filter.mp hmem).2 (Nat.not_succ_le_self n)

theorem mem_values_of_levelOf? {levels : Levels} {type : String} {l : Nat}
    (h : levels.levelOf? type = some l) : l ∈ levels.values := by
  obtain ⟨e, he, rfl⟩ := exists_entry_of_levelOf? h
  exact List.mem_toFinset.mpr (List.mem_map_of_mem he)

theorem leafLevel_mem_values {levels : Levels} (h : levels.isEmpty = false) :
    levels.leafLevel ∈ levels.values := by
  obtain ⟨e, he⟩ := List.exists_mem_of_ne_nil levels.entries fun hnil => by
    rw [isEmpty, hnil] at h
    cases h
  obtain ⟨e, he, hleaf⟩ := exists_entry_leafLevel he
  exact List.mem_toFinset.mpr (hleaf ▸ List.mem_map_of_mem he)

end Levels

open Levels (countFrom countFrom_le_card countFrom_succ_lt)

namespace Hierarchy

variable {rank : NodeId → Nat} {leafRank : Nat} {t : Hierarchy}

/-! ## The way down -/

theorem mem_nodes_of_mem_links {p n : NodeId} (h : (p, n) ∈ t.links) : n ∈ t.nodes := by
  induction t with
  | empty => cases h
  | leaves ns rest ih => exact mem_nodes_leaves.mpr (.inr (ih h))
  | node key below rest ihb ihr =>
    rw [links, List.mem_append, List.mem_append, List.mem_map] at h
    rw [mem_nodes_node]
    rcases h with ⟨m, hm, he⟩ | h | h
    · cases he
      exact .inr (.inl (mem_nodes_of_mem_tops hm))
    · exact .inr (.inl (ihb h))
    · exact .inr (.inr (ihr h))

/-- A node right below another one has the greater rank. -/
theorem Graded.rank_lt_of_mem_links (hg : t.Graded rank leafRank) {p n : NodeId}
    (h : (p, n) ∈ t.links) : rank p < rank n := by
  induction t with
  | empty => cases h
  | leaves ns rest ih => exact ih hg.2.2.2 h
  | node key below rest ihb ihr =>
    rw [links, List.mem_append, List.mem_append, List.mem_map] at h
    rcases h with ⟨m, hm, he⟩ | h | h
    · cases he
      exact hg.2.1 n (mem_nodes_of_mem_tops hm)
    · exact ihb hg.2.2.2.1 h
    · exact ihr hg.2.2.2.2 h

/-- Each node stands at the end of a path. -/
theorem exists_isPath {n : NodeId} (h : n ∈ t.nodes) : ∃ path, t.IsPath path n := by
  induction t with
  | empty => cases h
  | leaves ns rest ih =>
    rcases mem_nodes_leaves.mp h with hn | hn
    · exact ⟨[n], isPath_singleton (List.mem_append_left _ hn)⟩
    · obtain ⟨path, hp⟩ := ih hn
      exact ⟨path, hp.mono (List.Subset.refl _) (List.subset_append_right _ _)⟩
  | node key below rest ihb ihr =>
    rcases mem_nodes_node.mp h with rfl | hn | hn
    · exact ⟨[n], isPath_singleton List.mem_cons_self⟩
    · obtain ⟨path, hp⟩ := ihb hn
      exact ⟨key :: path, hp.cons⟩
    · obtain ⟨path, hp⟩ := ihr hn
      refine ⟨path, hp.mono ?_ ?_⟩
      · exact fun l hl => List.mem_append_right _ (List.mem_append_right _ hl)
      · exact fun n hn => List.mem_cons_of_mem _ hn

/-- A branch is a path to a leaf. -/
theorem exists_isPath_of_mem_branches {branch : List NodeId} (h : branch ∈ t.branches) :
    ∃ leaf, t.IsPath branch leaf := by
  obtain ⟨i, rfl⟩ := List.mem_iff_get.mp h
  have hi : i < t.leafNodes.length := t.forall₂_branches.length_eq ▸ i.isLt
  exact ⟨_, t.forall₂_branches.get i.isLt hi⟩

namespace IsPath

variable {path : List NodeId} {n : NodeId}

theorem mem_nodes (h : t.IsPath path n) : ∀ m ∈ path, m ∈ t.nodes := by
  have htop : ∀ m ∈ path.head?, m ∈ t.nodes := fun m hm => mem_nodes_of_mem_tops (h.top m hm)
  have hchain := h.chain
  clear h
  induction path with
  | nil => nofun
  | cons m path ih =>
    refine List.forall_mem_cons.mpr ⟨htop m rfl, ih (fun k hk => ?_) hchain.of_cons⟩
    cases path with
    | nil => cases hk
    | cons k' path =>
      cases hk
      exact mem_nodes_of_mem_links (List.isChain_cons_cons.mp hchain).1

/-- The ranks increase along a path. -/
theorem pairwise_rank (h : t.IsPath path n) (hg : t.Graded rank leafRank) :
    path.Pairwise fun a b => rank a < rank b := by
  have htrans : Trans (fun a b => rank a < rank b) (fun a b => rank a < rank b)
      (fun a b => rank a < rank b) := ⟨Nat.lt_trans⟩
  exact (h.chain.imp fun _ _ hl => hg.rank_lt_of_mem_links hl).pairwise

/-- A path is no longer than there are ranks. -/
theorem length_le (h : t.IsPath path n) (hg : t.Graded rank leafRank) {ranks : Finset Nat}
    (hr : ∀ m ∈ t.nodes, rank m ∈ ranks) : path.length ≤ ranks.card := by
  have hnodup : (path.map rank).Nodup :=
    List.pairwise_map.mpr ((h.pairwise_rank hg).imp Nat.ne_of_lt)
  have hsub : (path.map rank).toFinset ⊆ ranks := fun r hmem => by
    obtain ⟨m, hm, rfl⟩ := List.mem_map.mp (List.mem_toFinset.mp hmem)
    exact hr m (h.mem_nodes m hm)
  have hcard := Finset.card_le_card hsub
  rwa [List.toFinset_card_of_nodup hnodup, List.length_map] at hcard

end IsPath

/-- A hierarchy is no deeper than there are ranks for its nodes. -/
theorem Graded.depth_le {ranks : Finset Nat} {bound : Nat} (hg : t.Graded rank leafRank)
    (hr : ∀ n ∈ t.nodes, rank n ∈ ranks ∧ bound ≤ rank n) : t.depth ≤ countFrom ranks bound := by
  induction t generalizing bound with
  | empty => exact Nat.zero_le _
  | leaves ns rest ih =>
    obtain ⟨n, hn⟩ := List.exists_mem_of_ne_nil ns hg.1
    obtain ⟨hmem, hle⟩ := hr n (mem_nodes_leaves.mpr (.inl hn))
    have hpos := countFrom_succ_lt hmem hle
    have hrest := ih hg.2.2.2 fun m hm => hr m (mem_nodes_leaves.mpr (.inr hm))
    rw [depth]
    omega
  | node key below rest ihb ihr =>
    obtain ⟨hmem, hle⟩ := hr key (mem_nodes_node.mpr (.inl rfl))
    have hlt := countFrom_succ_lt hmem hle
    have hbelow : below.depth ≤ countFrom ranks (rank key + 1) := ihb hg.2.2.2.1 fun m hm =>
      ⟨(hr m (mem_nodes_node.mpr (.inr (.inl hm)))).1, hg.2.1 m hm⟩
    have hrest := ihr hg.2.2.2.2 fun m hm => hr m (mem_nodes_node.mpr (.inr (.inr hm)))
    rw [depth]
    omega

/-! ## Calls -/

/-- A call has no more calls inside it than there are levels below its owner that are
not those of leaves. -/
theorem Descends.nesting_le {leafLevel : Nat} {level : NodeId → Option Nat} {owner : Option Nat}
    {nodes : List NodeId} {c : Descent} (h : Descends leafLevel level owner t nodes c)
    {keyLevels : Finset Nat} (hl : ∀ n l, level n = some l → l ≠ leafLevel → l ∈ keyLevels) :
    c.nesting ≤ countFrom keyLevels (owner.elim 0 (· + 1)) := by
  induction h with
  | done => exact Nat.zero_le _
  | skip _ _ ih => exact ih
  | leave => exact Nat.zero_le _
  | leaf _ _ _ ih => exact ih
  | @key owner _ n _ l _ _ hlevel hbelow hne _ _ ihInner ih =>
    have hbound : owner.elim 0 (· + 1) ≤ l := by
      cases owner with
      | none => exact Nat.zero_le _
      | some k =>
        have hk : ¬l ≤ k := fun hle => hbelow (decide_eq_true hle)
        show k + 1 ≤ l
        omega
    have hlt := countFrom_succ_lt (hl n l hlevel hne) hbound
    exact Nat.max_le.mpr ⟨Nat.lt_of_le_of_lt ihInner hlt, ih⟩

/-! ## The statement -/

namespace Arranges

variable {level : NodeId → Option Nat} {leafLevel : Nat} {nodes : List NodeId}

theorem pairwise_above (h : t.Arranges level leafLevel nodes) {path : List NodeId} {n : NodeId}
    (hp : t.IsPath path n) : path.Pairwise (Above level) :=
  (hp.pairwise_rank h.graded).imp_of_mem fun ha hb hlt =>
    (h.above_iff (hp.mem_nodes _ ha) (hp.mem_nodes _ hb)).mpr hlt

end Arranges

/-- In a built hierarchy the levels increase along each way down, and each node is at
the end of one. So neither a way down nor a branch nor the depth is greater than the
number of levels. The hierarchy is built by calls that leave no node of the slice, and
no more of them are inside each other than there are levels, the outermost one counted
if there is a level. -/
theorem build_depth {d : Document} {root : NodeId} {start stop : Option Marker} {levels : Levels}
    {t : Hierarchy} (h : build d root start stop levels = .ok t) :
    (∀ n ∈ t.nodes, ∃ path, t.IsPath path n) ∧
      (∀ path n, t.IsPath path n →
        path.Pairwise (Above (levels.levelIn? d)) ∧ path.length ≤ levels.values.card) ∧
      t.depth ≤ levels.values.card ∧
      (∀ branch ∈ t.branches, branch.length ≤ levels.values.card) ∧
      ∃ slice, d.slice root start stop = .ok slice ∧
        ∃ call : Descent, descend levels.leafLevel (levels.levelIn? d) none empty slice = call ∧
          call.tree = t ∧ call.rest = [] ∧ call.nesting ≤ levels.values.card ∧
          (levels.isEmpty = false → call.nesting + 1 ≤ levels.values.card) := by
  obtain ⟨slice, hs, ha⟩ := arranges_build h
  have hranks : ∀ n ∈ t.nodes, rankOf (levels.levelIn? d) n ∈ levels.values := fun n hn =>
    Levels.mem_values_of_levelOf? (ha.level_eq hn)
  have hlength : ∀ path n, t.IsPath path n → path.length ≤ levels.values.card :=
    fun path n hp => hp.length_le ha.graded hranks
  have hcall : Descends levels.leafLevel (levels.levelIn? d) none empty slice _ :=
    descends_descend none empty slice
  -- Only nodes that are no leaves have calls.
  have hlevels : ∀ n l, levels.levelIn? d n = some l → l ≠ levels.leafLevel →
      l ∈ levels.values.erase levels.leafLevel :=
    fun n l hl hne => Finset.mem_erase.mpr ⟨hne, Levels.mem_values_of_levelOf? hl⟩
  have hnesting := hcall.nesting_le hlevels
  have hkeys := countFrom_le_card (levels.values.erase levels.leafLevel) 0
  refine ⟨fun n hn => exists_isPath hn, fun path n hp => ⟨ha.pairwise_above hp, hlength path n hp⟩,
    ?_, fun branch hb => ?_, slice, hs, _, rfl, ?_, hcall.rest_eq_nil, ?_, fun hne => ?_⟩
  · exact Nat.le_trans (ha.graded.depth_le fun n hn => ⟨hranks n hn, Nat.zero_le _⟩)
      (countFrom_le_card _ 0)
  · obtain ⟨leaf, hp⟩ := exists_isPath_of_mem_branches hb
    exact hlength branch leaf hp
  · obtain ⟨nodes, hs', ht⟩ := build_eq_ok.mp h
    cases hs.symm.trans hs'
    rw [tree_descend, ht]
  · exact Nat.le_trans hnesting (Nat.le_trans hkeys (Finset.card_erase_le))
  · rw [Finset.card_erase_of_mem (Levels.leafLevel_mem_values hne)] at hkeys
    have hpos := Finset.card_pos.mpr ⟨_, Levels.leafLevel_mem_values hne⟩
    have hcalls := Nat.le_trans hnesting hkeys
    omega

theorem outline_depth :
    (∀ n ∈ outline.nodes, ∃ path, outline.IsPath path n) ∧
      (∀ path n, outline.IsPath path n →
        path.Pairwise (Above (outlineLevels.levelIn? outlinePage)) ∧
          path.length ≤ outlineLevels.values.card) ∧
      outline.depth ≤ outlineLevels.values.card ∧
      (∀ branch ∈ outline.branches, branch.length ≤ outlineLevels.values.card) ∧
      ∃ slice, outlinePage.slice Document.root (some ⟨"H3", .any⟩) (some ⟨"footer", .any⟩) =
          .ok slice ∧
        ∃ call : Descent, descend outlineLevels.leafLevel (outlineLevels.levelIn? outlinePage) none
            empty slice = call ∧
          call.tree = outline ∧ call.rest = [] ∧ call.nesting ≤ outlineLevels.values.card ∧
          (outlineLevels.isEmpty = false → call.nesting + 1 ≤ outlineLevels.values.card) :=
  build_depth build_outlinePage

end Hierarchy

end Gleaner
