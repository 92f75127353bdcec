import Mathlib.Data.List.Chain
import Mathlib.Logic.ExistsUnique
import Gleaner.Document.Basic

/-!
# Ranges of nodes

The nodes below a node are the ones that follow it up to its `stop`. Queries
read such ranges and never walk from parent to child, so they are right only
if ranges and children agree: the children of a node must cut the range below
it into ranges of their own, one after the other and without a gap. What
follows from this is stated here for any document, however it came about.

* `Document.Tiles`: some nodes cut a range into theirs;
* `Document.Tiled`: the children of every node do, and the root has the whole
  document below it;
* `Tiled.stop_le_stop`: two ranges are disjoint, or one lies in the other;
* `Tiled.existsUnique_parent`: every node but the root has one parent;
* `Document.WellFormed`, `Tiled.wellFormed`: all of it, said node by node.
-/

namespace Gleaner.Document

variable {d : Document}

/-! ## Tiles -/

/-- Whether the nodes `cs` with what is below them are the places from `a` up
to but without `b`, each node with at least its own place. -/
def Tiles (d : Document) : Nat → List NodeId → Nat → Prop
  | a, [], b => a = b
  | a, c :: cs, b => c = a ∧ a < d.stop a ∧ d.Tiles (d.stop a) cs b

theorem Tiles.le : ∀ {cs : List NodeId} {a b : Nat}, d.Tiles a cs b → a ≤ b
  | [], _, _, h => Nat.le_of_eq h
  | _ :: _, _, _, ⟨_, hlt, h⟩ => Nat.le_trans (Nat.le_of_lt hlt) h.le

theorem Tiles.bounds {b : Nat} {c : NodeId} :
    ∀ {cs : List NodeId} {a : Nat}, d.Tiles a cs b → c ∈ cs →
      a ≤ c ∧ c < d.stop c ∧ d.stop c ≤ b
  | e :: cs, a, ⟨he, hlt, h⟩, hc => by
    subst he
    rcases List.mem_cons.mp hc with rfl | hc
    · exact ⟨Nat.le_refl _, hlt, h.le⟩
    · obtain ⟨hle, hcs⟩ := h.bounds hc
      exact ⟨Nat.le_trans (Nat.le_of_lt hlt) hle, hcs⟩

/-- Every place of the range is in the range of one of the nodes. -/
theorem Tiles.exists_mem {b j : Nat} :
    ∀ {cs : List NodeId} {a : Nat}, d.Tiles a cs b → a ≤ j → j < b →
      ∃ c ∈ cs, c ≤ j ∧ j < d.stop c
  | [], a, h, ha, hb => by
    have h : a = b := h
    omega
  | c :: cs, a, ⟨hc, _, h⟩, ha, hb => by
    subst hc
    by_cases hj : j < d.stop c
    · exact ⟨c, List.mem_cons_self, ha, hj⟩
    · obtain ⟨e, he, hej⟩ := h.exists_mem (Nat.le_of_not_lt hj) hb
      exact ⟨e, List.mem_cons_of_mem _ he, hej⟩

theorem Tiles.pairwise_lt {b : Nat} :
    ∀ {cs : List NodeId} {a : Nat}, d.Tiles a cs b → cs.Pairwise (· < ·)
  | [], _, _ => List.Pairwise.nil
  | c :: cs, a, ⟨hc, hlt, h⟩ => by
    subst hc
    exact List.pairwise_cons.mpr ⟨fun e he => Nat.lt_of_lt_of_le hlt (h.bounds he).1, h.pairwise_lt⟩

/-- A later node stands behind the range of an earlier one. -/
theorem Tiles.stop_le_of_lt {b : Nat} {c e : NodeId} :
    ∀ {cs : List NodeId} {a : Nat}, d.Tiles a cs b → c ∈ cs → e ∈ cs → c < e → d.stop c ≤ e
  | k :: cs, a, ⟨hk, hlt, h⟩, hc, he, hce => by
    subst hk
    rcases List.mem_cons.mp hc with rfl | hcs
    · rcases List.mem_cons.mp he with rfl | hes
      · exact absurd hce (Nat.lt_irrefl _)
      · exact (h.bounds hes).1
    · rcases List.mem_cons.mp he with rfl | hes
      · have hec : e < c := Nat.lt_of_lt_of_le hlt (h.bounds hcs).1
        exact absurd hce (Nat.lt_asymm hec)
      · exact h.stop_le_of_lt hcs hes hce

/-- Each node begins where the one before it ends. -/
theorem Tiles.isChain {b : Nat} :
    ∀ {cs : List NodeId} {a : Nat}, d.Tiles a cs b → cs.IsChain fun c e => e = d.stop c
  | [], _, _ => List.IsChain.nil
  | [c], _, _ => List.IsChain.singleton c
  | c :: e :: cs, a, ⟨hc, _, h⟩ => by
    subst hc
    exact List.isChain_cons_cons.mpr ⟨h.1, h.isChain⟩

theorem Tiles.stop_getLast {b : Nat} {c : NodeId} :
    ∀ {cs : List NodeId} {a : Nat}, d.Tiles a cs b → cs.getLast? = some c → d.stop c = b
  | [e], a, ⟨he, _, h⟩, hc => by
    obtain rfl : e = c := by simpa using hc
    subst he
    exact h
  | _ :: e :: cs, _, ⟨_, _, h⟩, hc => by
    rw [List.getLast?_cons_cons] at hc
    exact h.stop_getLast hc

/-! ## Tiled documents -/

/-- Whether `c` is a child of `p`. -/
def IsChild (d : Document) (p c : NodeId) : Prop :=
  ∃ n, d.node? p = some n ∧ c ∈ n.children

/-- Whether the children of every node tile the range below it. -/
structure Tiled (d : Document) : Prop where
  root_node : ∃ children, d.node? root = some ⟨.element "#document" [], children, d.size⟩
  stop_le {i : Nat} {n : Node} : d.node? i = some n → n.stop ≤ d.size
  tiles {i : Nat} {n : Node} : d.node? i = some n → d.Tiles (i + 1) n.children n.stop
  /-- A text has nothing below it. -/
  children_text {i : Nat} {n : Node} : d.node? i = some n → n.isElement = false → n.children = []

theorem stop_eq {i : NodeId} {n : Node} (h : d.node? i = some n) : d.stop i = n.stop := by
  rw [stop, h]
  rfl

theorem exists_node {i : NodeId} {j : Nat} (h : j < d.stop i) : ∃ n, d.node? i = some n := by
  cases hn : d.node? i with
  | none =>
    rw [stop, hn] at h
    exact absurd h (Nat.not_lt_zero _)
  | some n => exact ⟨n, rfl⟩

namespace Tiled

variable (h : d.Tiled)

include h

theorem stop_root : d.stop root = d.size := by
  obtain ⟨children, hn⟩ := h.root_node
  exact stop_eq hn

theorem child_bounds {p c : Nat} (hc : d.IsChild p c) :
    p < c ∧ c < d.stop c ∧ d.stop c ≤ d.stop p := by
  obtain ⟨n, hn, hc⟩ := hc
  rw [stop_eq hn]
  exact (h.tiles hn).bounds hc

/-- A node in the range of another is a child of a node in that range, or of
the other node itself. The walk goes down to the child whose range has the
node in it, and so on from there. -/
theorem exists_parent {i j : Nat} (hij : i < j) (hj : j < d.stop i) :
    ∃ p, d.stop p ≤ d.stop i ∧ d.IsChild p j := by
  obtain ⟨n, hn⟩ := exists_node hj
  rw [stop_eq hn] at hj
  obtain ⟨c, hc, hcj, hjc⟩ := (h.tiles hn).exists_mem hij hj
  obtain ⟨hic, -, hle⟩ := h.child_bounds ⟨n, hn, hc⟩
  rcases Nat.lt_or_eq_of_le hcj with hlt | rfl
  · obtain ⟨p, hp, hpj⟩ := exists_parent hlt hjc
    exact ⟨p, Nat.le_trans hp hle, hpj⟩
  · exact ⟨i, Nat.le_refl _, n, hn, hc⟩
termination_by j - i

/-- The range of a node in the range of another lies in that range. -/
theorem stop_le_stop {i j : Nat} (hij : i ≤ j) (hj : j < d.stop i) : d.stop j ≤ d.stop i := by
  rcases Nat.lt_or_eq_of_le hij with hlt | rfl
  · obtain ⟨p, hp, hpj⟩ := h.exists_parent hlt hj
    exact Nat.le_trans (h.child_bounds hpj).2.2 hp
  · exact Nat.le_refl _

/-- Of two parents of a node neither stands before the other: the later one
would be in the range of a child of the earlier one that ends before the
node. -/
theorem not_lt_of_isChild {p q j : Nat} (hp : d.IsChild p j) (hq : d.IsChild q j) : ¬ p < q := by
  intro hpq
  obtain ⟨hqj, hjj, hjq⟩ := h.child_bounds hq
  have hjp := (h.child_bounds hp).2.2
  obtain ⟨n, hn, hj⟩ := hp
  rw [stop_eq hn] at hjp
  obtain ⟨c, hc, hcq, hqc⟩ := (h.tiles hn).exists_mem hpq (show q < n.stop by omega)
  have hle : d.stop q ≤ d.stop c := h.stop_le_stop hcq hqc
  have hcj : d.stop c ≤ j := (h.tiles hn).stop_le_of_lt hc hj (Nat.lt_of_le_of_lt hcq hqj)
  omega

/-- Every node but the root has one parent. -/
theorem existsUnique_parent {j : Nat} (h0 : 0 < j) (hj : j < d.size) : ∃! p, d.IsChild p j := by
  rw [← h.stop_root] at hj
  obtain ⟨p, -, hp⟩ := h.exists_parent h0 hj
  refine ⟨p, hp, fun q hq => ?_⟩
  have h1 := h.not_lt_of_isChild hp hq
  have h2 := h.not_lt_of_isChild hq hp
  exact Nat.le_antisymm (Nat.le_of_not_lt h1) (Nat.le_of_not_lt h2)

end Tiled

/-- The rules that the children and ranges of a document's nodes keep. -/
structure WellFormed (d : Document) : Prop where
  /-- The first node is the root, and the whole document is below it. -/
  root_node : ∃ children, d.node? root = some ⟨.element "#document" [], children, d.size⟩
  lt_stop {i : Nat} {n : Node} : d.node? i = some n → i < n.stop
  stop_le_size {i : Nat} {n : Node} : d.node? i = some n → n.stop ≤ d.size
  text {i : Nat} {n : Node} : d.node? i = some n → n.isElement = false →
    n.children = [] ∧ n.stop = i + 1
  children_increasing {i : Nat} {n : Node} : d.node? i = some n → n.children.Pairwise (· < ·)
  first_child {i : Nat} {n : Node} {c : NodeId} : d.node? i = some n →
    n.children.head? = some c → c = i + 1
  /-- Each later child begins where the one before it ends. -/
  next_child {i : Nat} {n : Node} : d.node? i = some n →
    n.children.IsChain fun c e => e = d.stop c
  last_child {i : Nat} {n : Node} {c : NodeId} : d.node? i = some n →
    n.children.getLast? = some c → d.stop c = n.stop
  childless {i : Nat} {n : Node} : d.node? i = some n → n.children = [] → n.stop = i + 1
  /-- Of two ranges the later one lies behind the earlier one, or in it. -/
  laminar {i j : Nat} : i ≤ j → d.stop i ≤ j ∨ d.stop j ≤ d.stop i
  parent {j : Nat} : 0 < j → j < d.size → ∃! p, d.IsChild p j

theorem Tiled.wellFormed (h : d.Tiled) : d.WellFormed := by
  have childless {i : Nat} {n : Node} (hn : d.node? i = some n) (hc : n.children = []) :
      n.stop = i + 1 := by
    have ht := h.tiles hn
    rw [hc] at ht
    exact ht.symm
  refine
    { root_node := h.root_node
      lt_stop := fun hn => (h.tiles hn).le
      stop_le_size := h.stop_le
      text := fun hn ht => ⟨h.children_text hn ht, childless hn (h.children_text hn ht)⟩
      children_increasing := fun hn => (h.tiles hn).pairwise_lt
      first_child := ?_
      next_child := fun hn => (h.tiles hn).isChain
      last_child := fun hn hc => (h.tiles hn).stop_getLast hc
      childless := childless
      laminar := ?_
      parent := h.existsUnique_parent }
  · intro i n c hn hc
    obtain ⟨cs, hcs⟩ := List.head?_eq_some_iff.mp hc
    have ht := h.tiles hn
    rw [hcs] at ht
    exact ht.1
  · intro i j hij
    rcases Nat.lt_or_ge j (d.stop i) with hj | hj
    · exact .inr (h.stop_le_stop hij hj)
    · exact .inl hj

end Gleaner.Document
