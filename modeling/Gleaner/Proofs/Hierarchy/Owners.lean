import Mathlib.Data.List.TakeWhile
import Gleaner.Proofs.Hierarchy.Graded

/-!
# The owners while a hierarchy is built

The owners hold a hierarchy that is still open on its right side. They are
sound for a bound when closing them would give a graded hierarchy and a node
whose rank is at most the bound may come next on the innermost level: the
owners have smaller and smaller levels outwards, and what stands around an
owner may be followed by a node of its level. The bound after each node is the
leaf level, which only says that the innermost level has no keys so far.

* `Owners.nodes`: all nodes, in the order in which they were taken;
* `Owners.Sound`: the invariant;
* `Sound.close`, `Sound.settle`, `Sound.take`: what one step keeps;
* `Hierarchy.nodes_ofNodes`, `Hierarchy.graded_ofNodes`: what a whole run
  comes to.
-/

namespace Gleaner

namespace Owners

open Hierarchy (Graded Fits)

/-- The nodes of the owners and of all that is closed, with the top level
first. -/
def nodesFrom (top : Hierarchy) : List Owner → List NodeId
  | [] => top.nodes
  | w :: outer => nodesFrom top outer ++ w.key :: w.below.nodes

def nodes (o : Owners) : List NodeId :=
  nodesFrom o.top o.stack

/-- Whether the levels outside of a bound are arranged by ranks. -/
def SoundFrom (rank : NodeId → Nat) (leafRank : Nat) (top : Hierarchy) : Nat → List Owner → Prop
  | bound, [] => top.Fits rank leafRank bound
  | bound, w :: outer =>
    w.level < bound ∧ rank w.key = w.level ∧ w.below.Fits rank leafRank bound ∧
      (∀ n ∈ w.below.nodes, w.level < rank n) ∧ SoundFrom rank leafRank top w.level outer

def Sound (rank : NodeId → Nat) (leafRank bound : Nat) (o : Owners) : Prop :=
  SoundFrom rank leafRank o.top bound o.stack

variable {rank : NodeId → Nat} {leafRank bound : Nat}

theorem sound_empty : empty.Sound rank leafRank leafRank :=
  ⟨trivial, (nofun)⟩

/-! ## Closing -/

theorem nodes_close (o : Owners) : o.close.nodes = o.nodes := by
  match o with
  | ⟨_, []⟩ => rfl
  | ⟨_, [_]⟩ => simp [close, update, nodes, nodesFrom]
  | ⟨_, _ :: _ :: _⟩ => simp [close, update, nodes, nodesFrom]

theorem map_level_close (o : Owners) :
    o.close.stack.map Owner.level = (o.stack.map Owner.level).tail := by
  match o with
  | ⟨_, []⟩ => rfl
  | ⟨_, [_]⟩ => rfl
  | ⟨_, _ :: _ :: _⟩ => rfl

/-- Closing the innermost owner leaves room for a node of its level. -/
theorem Sound.close {top : Hierarchy} {w : Owner} {outer : List Owner}
    (h : Sound rank leafRank bound ⟨top, w :: outer⟩) (hb : bound ≤ leafRank) :
    Sound rank leafRank w.level (close ⟨top, w :: outer⟩) := by
  obtain ⟨hlt, hk, hw, hbelow, ho⟩ := h
  have hrank : rank w.key < leafRank := by omega
  rw [← hk] at hbelow
  match outer, ho with
  | [], ho =>
    rw [SoundFrom, ← hk] at ho
    have := ho.addNode hrank hbelow hw.1
    rwa [hk] at this
  | v :: outer, ⟨hv, hvk, hvb, hvn, hvo⟩ =>
    rw [← hk] at hvb
    have := hvb.addNode hrank hbelow hw.1
    rw [hk] at this
    refine ⟨hv, hvk, this, fun n hn => ?_, hvo⟩
    show v.level < rank n
    rw [Hierarchy.nodes_addNode, List.mem_append, List.mem_cons] at hn
    rcases hn with hn | rfl | hn
    · exact hvn n hn
    · omega
    · have := hbelow n hn
      omega

/-! ## Settling -/

/-- The number of owners that a node of a level closes depends on the levels
alone. -/
theorem length_takeWhile_level (l : Nat) (ws : List Owner) :
    (ws.takeWhile (l ≤ ·.level)).length = ((ws.map Owner.level).takeWhile (l ≤ ·)).length := by
  rw [List.takeWhile_map, List.length_map]
  rfl

theorem settle_of_lt {top : Hierarchy} {w : Owner} {outer : List Owner} {l : Nat}
    (h : w.level < l) : settle ⟨top, w :: outer⟩ l = ⟨top, w :: outer⟩ := by
  rw [settle, List.takeWhile_cons_of_neg (by simpa using h)]
  rfl

theorem settle_of_le {top : Hierarchy} {w : Owner} {outer : List Owner} {l : Nat}
    (h : l ≤ w.level) :
    settle ⟨top, w :: outer⟩ l = (close ⟨top, w :: outer⟩).settle l := by
  have hc : (close ⟨top, w :: outer⟩).stack.map Owner.level = outer.map Owner.level :=
    map_level_close ⟨top, w :: outer⟩
  rw [settle, settle, length_takeWhile_level, length_takeWhile_level, hc, List.map_cons,
    List.takeWhile_cons_of_pos (by simpa using h), List.length_cons]
  rfl

theorem length_stack_close (o : Owners) : o.close.stack.length = o.stack.length - 1 := by
  rw [← List.length_map (f := Owner.level), map_level_close, List.length_tail, List.length_map]

theorem nodes_settle (o : Owners) (l : Nat) : (o.settle l).nodes = o.nodes := by
  have : ∀ (n : Nat) (o : Owners), (o.closeMany n).nodes = o.nodes := by
    intro n
    induction n with
    | zero => exact fun _ => rfl
    | succ n ih => exact fun o => (ih o.close).trans (nodes_close o)
  exact this _ o

/-- Closing the owners of no smaller level leaves room for a node of that
level. -/
theorem Sound.settle {o : Owners} (h : o.Sound rank leafRank bound) (hb : bound ≤ leafRank)
    {l : Nat} (hl : l ≤ bound) : (o.settle l).Sound rank leafRank l := by
  -- Closing an owner also changes the one around it, so the induction is on their number.
  induction hn : o.stack.length generalizing o bound with
  | zero =>
    obtain ⟨top, stack⟩ := o
    obtain rfl : stack = [] := List.eq_nil_of_length_eq_zero hn
    exact Fits.mono h hl
  | succ n ih =>
    obtain ⟨top, stack⟩ := o
    match stack, h, hn with
    | w :: outer, h, hn =>
      by_cases hw : l ≤ w.level
      · rw [settle_of_le hw]
        have hlt : w.level < bound := h.1
        refine ih (h.close hb) (by omega) hw ?_
        rw [length_stack_close]
        exact Nat.sub_eq_of_eq_add hn
      · rw [settle_of_lt (by omega)]
        exact ⟨by omega, h.2.1, Fits.mono h.2.2.1 hl, h.2.2.2⟩

/-! ## Taking a node -/

theorem take_none (leafLevel : Nat) (o : Owners) (key : NodeId) : o.take leafLevel key none = o :=
  rfl

theorem take_leaf (leafLevel : Nat) (o : Owners) (key : NodeId) :
    o.take leafLevel key (some leafLevel) = (o.settle leafLevel).update (·.addLeaf key) := by
  simp [take]

theorem take_key {leafLevel l : Nat} (h : l ≠ leafLevel) (o : Owners) (key : NodeId) :
    o.take leafLevel key (some l) =
      ⟨(o.settle l).top, ⟨l, key, .empty⟩ :: (o.settle l).stack⟩ := by
  simp [take, h]

theorem Sound.addLeaf {o : Owners} (h : o.Sound rank leafRank leafRank) {key : NodeId}
    (hk : rank key = leafRank) :
    (o.update (·.addLeaf key)).Sound rank leafRank leafRank ∧
      (o.update (·.addLeaf key)).nodes = o.nodes ++ [key] := by
  match o, h with
  | ⟨top, []⟩, h => exact ⟨Fits.addLeaf h hk, Fits.nodes_addLeaf h key⟩
  | ⟨top, w :: outer⟩, ⟨hlt, hw, hf, hn, ho⟩ =>
    refine ⟨⟨hlt, hw, hf.addLeaf hk, fun n h => ?_, ho⟩, ?_⟩
    · show w.level < rank n
      rw [hf.nodes_addLeaf, List.mem_append, List.mem_singleton] at h
      rcases h with h | rfl
      · exact hn n h
      · rwa [hk]
    · simp [update, nodes, nodesFrom, hf.nodes_addLeaf]

/-- One more node with a level is added behind all others. -/
theorem Sound.take {o : Owners} (h : o.Sound rank leafRank leafRank) {key : NodeId} {l : Nat}
    (hk : rank key = l) (hl : l ≤ leafRank) :
    (o.take leafRank key (some l)).Sound rank leafRank leafRank ∧
      (o.take leafRank key (some l)).nodes = o.nodes ++ [key] := by
  have hs := h.settle (Nat.le_refl _) hl
  by_cases e : l = leafRank
  · subst e
    rw [take_leaf, ← nodes_settle o l]
    exact hs.addLeaf hk
  · rw [take_key e, ← nodes_settle o l]
    exact ⟨⟨by show l < leafRank; omega, hk, ⟨trivial, (nofun)⟩, (nofun), hs⟩, rfl⟩

/-- All nodes with a level are taken, in their order. -/
theorem Sound.foldl {level : NodeId → Option Nat} {leafLevel : Nat} :
    ∀ {nodes : List NodeId} {o : Owners},
      (∀ n ∈ nodes, ∀ l, level n = some l → l ≤ leafLevel) →
      o.Sound (fun n => (level n).getD 0) leafLevel leafLevel →
      (nodes.foldl (fun o n => o.take leafLevel n (level n)) o).Sound
          (fun n => (level n).getD 0) leafLevel leafLevel ∧
        (nodes.foldl (fun o n => o.take leafLevel n (level n)) o).nodes =
          o.nodes ++ nodes.filter fun n => (level n).isSome
  | [], o, _, h => ⟨h, (List.append_nil _).symm⟩
  | n :: ns, o, hle, h => by
    have hns := fun m hm => hle m (List.mem_cons_of_mem n hm)
    rw [List.foldl_cons]
    cases hl : level n with
    | none =>
      rw [take_none, List.filter_cons_of_neg (by simp [hl])]
      exact Sound.foldl hns h
    | some l =>
      have hrank : (fun n => (level n).getD 0) n = l := by simp [hl]
      obtain ⟨ht, hn⟩ := h.take hrank (hle n List.mem_cons_self l hl)
      rw [List.filter_cons_of_pos (by simp [hl]), List.append_cons, ← hn]
      exact Sound.foldl hns ht

/-! ## Finishing -/

theorem finish_eq_settle (o : Owners) : o.finish = (o.settle 0).top := by
  rw [finish, settle, List.takeWhile_eq_self_iff.mpr fun _ _ => decide_eq_true (Nat.zero_le _)]

theorem Sound.finish {o : Owners} (h : o.Sound rank leafRank leafRank) :
    o.finish.Graded rank leafRank ∧ o.finish.nodes = o.nodes := by
  have hs := h.settle (Nat.le_refl _) (Nat.zero_le _)
  rw [finish_eq_settle, ← nodes_settle o 0]
  generalize o.settle 0 = o at hs ⊢
  match o, hs with
  | ⟨_, []⟩, hs => exact ⟨hs.1, rfl⟩
  | ⟨_, w :: _⟩, hs => exact absurd hs.1 (Nat.not_lt_zero _)

end Owners

namespace Hierarchy

variable {level : NodeId → Option Nat} {leafLevel : Nat} {nodes : List NodeId}

/-- A built hierarchy has the nodes with a level, in their order. -/
theorem nodes_ofNodes (h : ∀ n ∈ nodes, ∀ l, level n = some l → l ≤ leafLevel) :
    (ofNodes leafLevel level nodes).nodes = nodes.filter fun n => (level n).isSome := by
  obtain ⟨hs, hn⟩ := Owners.Sound.foldl h Owners.sound_empty
  exact hs.finish.2.trans hn

/-- A built hierarchy is arranged by the levels. -/
theorem graded_ofNodes (h : ∀ n ∈ nodes, ∀ l, level n = some l → l ≤ leafLevel) :
    (ofNodes leafLevel level nodes).Graded (fun n => (level n).getD 0) leafLevel :=
  (Owners.Sound.foldl h Owners.sound_empty).1.finish.1

end Hierarchy

end Gleaner
