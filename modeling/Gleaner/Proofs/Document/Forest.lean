import Gleaner.Proofs.Document.Tiling

/-!
# Documents as trees

A document lists its nodes in document order and says for each where its range
ends and where its children are. A `Forest` has the same nodes without any
place: an element holds what is below it. Laying a forest out from a place on
gives the nodes with their children and ranges, and these fit together
whatever the forest is.

* `Forest`: texts and elements beside each other, each element with its own;
* `Forest.layout`, `Forest.roots`: the nodes of a forest from a place on, and
  the places of the topmost ones;
* `Document.ofForest`: the document of a forest;
* `Document.Holds`: the nodes of a document from a place on are those of a
  forest, said by recursion on the forest;
* `Document.tiled_ofForest`: such a document is tiled.
-/

namespace Gleaner

/-- Texts and elements that stand beside each other, in order. -/
inductive Forest where
  | empty
  | text (s : String) (rest : Forest)
  | element (type : String) (attributes : List (String × String)) (below rest : Forest)
  deriving DecidableEq, Repr

namespace Forest

/-- The number of nodes. -/
def size : Forest → Nat
  | empty => 0
  | text _ rest => rest.size + 1
  | element _ _ below rest => below.size + 1 + rest.size

/-- The places of the topmost nodes, if the first node is at `start`. -/
def roots (start : Nat) : Forest → List NodeId
  | empty => []
  | text _ rest => start :: rest.roots (start + 1)
  | element _ _ below rest => start :: rest.roots (start + 1 + below.size)

/-- The nodes in document order, if the first one is at `start`. -/
def layout (start : Nat) : Forest → List Node
  | empty => []
  | text s rest => ⟨.text s, [], start + 1⟩ :: rest.layout (start + 1)
  | element type attributes below rest =>
    ⟨.element type attributes, below.roots (start + 1), start + 1 + below.size⟩ ::
      (below.layout (start + 1) ++ rest.layout (start + 1 + below.size))

/-- The nodes of one forest, and those of another behind them. -/
def append : Forest → Forest → Forest
  | empty, g => g
  | text s rest, g => text s (rest.append g)
  | element type attributes below rest, g => element type attributes below (rest.append g)

@[simp] theorem length_layout : ∀ (f : Forest) (start : Nat), (f.layout start).length = f.size
  | empty, _ => rfl
  | text _ rest, start => by
    rw [layout, List.length_cons, length_layout rest, size]
  | element _ _ below rest, start => by
    rw [layout, List.length_cons, List.length_append, length_layout below, length_layout rest, size]
    omega

@[simp] theorem roots_append (g : Forest) :
    ∀ (f : Forest) (start : Nat),
      (f.append g).roots start = f.roots start ++ g.roots (start + f.size)
  | empty, _ => rfl
  | text _ rest, start => by
    rw [append, roots, roots_append g rest, roots, size, List.cons_append,
      show start + 1 + rest.size = start + (rest.size + 1) by omega]
  | element _ _ below rest, start => by
    rw [append, roots, roots_append g rest, roots, size, List.cons_append,
      show start + 1 + below.size + rest.size = start + (below.size + 1 + rest.size) by omega]

@[simp] theorem layout_append (g : Forest) :
    ∀ (f : Forest) (start : Nat),
      (f.append g).layout start = f.layout start ++ g.layout (start + f.size)
  | empty, _ => rfl
  | text _ rest, start => by
    rw [append, layout, layout_append g rest, layout, size, List.cons_append,
      show start + 1 + rest.size = start + (rest.size + 1) by omega]
  | element _ _ below rest, start => by
    rw [append, layout, layout_append g rest, layout, size, List.cons_append, List.append_assoc,
      show start + 1 + below.size + rest.size = start + (below.size + 1 + rest.size) by omega]

end Forest

namespace Document

/-- The document with the nodes of a forest below its root. -/
def ofForest (f : Forest) : Document :=
  ⟨((Forest.element "#document" [] f .empty).layout 0).toArray⟩

/-- Whether the nodes of a document from `start` on are those of a forest. -/
def Holds (d : Document) (start : Nat) : Forest → Prop
  | .empty => True
  | .text s rest => d.node? start = some ⟨.text s, [], start + 1⟩ ∧ d.Holds (start + 1) rest
  | .element type attributes below rest =>
    d.node? start =
        some ⟨.element type attributes, below.roots (start + 1), start + 1 + below.size⟩ ∧
      d.Holds (start + 1) below ∧ d.Holds (start + 1 + below.size) rest

variable {d : Document}

theorem node?_length {pre post : List Node} {n : Node} (h : d.nodes.toList = pre ++ n :: post) :
    d.node? pre.length = some n := by
  rw [node?, ← Array.getElem?_toList, h, List.getElem?_append_right (Nat.le_refl _), Nat.sub_self]
  rfl

/-- A document that has the layout of a forest in its list holds the forest. -/
theorem holds_of_toList_eq :
    ∀ (f : Forest) {start : Nat} (pre post : List Node), pre.length = start →
      d.nodes.toList = pre ++ (f.layout start ++ post) → d.Holds start f
  | .empty, _, _, _, _, _ => trivial
  | .text s rest, start, pre, post, hp, h => by
    rw [Forest.layout, List.cons_append] at h
    have hrest : d.Holds (start + 1) rest :=
      holds_of_toList_eq rest (pre ++ [⟨.text s, [], start + 1⟩]) post (by simp [hp]) (by simp [h])
    subst hp
    exact ⟨node?_length h, hrest⟩
  | .element type attributes below rest, start, pre, post, hp, h => by
    let n : Node := ⟨.element type attributes, below.roots (start + 1), start + 1 + below.size⟩
    rw [Forest.layout, List.cons_append, List.append_assoc] at h
    have hbelow : d.Holds (start + 1) below :=
      holds_of_toList_eq below (pre ++ [n]) (rest.layout (start + 1 + below.size) ++ post)
        (by simp [hp]) (by simp [h, n])
    have hrest : d.Holds (start + 1 + below.size) rest := by
      refine holds_of_toList_eq rest (pre ++ n :: below.layout (start + 1)) post ?_ (by simp [h, n])
      rw [List.length_append, List.length_cons, Forest.length_layout]
      omega
    subst hp
    exact ⟨node?_length h, hbelow, hrest⟩

/-! ## Tiling -/

theorem Holds.tiles : ∀ {f : Forest} {start : Nat}, d.Holds start f →
    d.Tiles start (f.roots start) (start + f.size)
  | .empty, _, _ => rfl
  | .text s rest, start, ⟨hn, h⟩ => by
    have ht := h.tiles
    refine ⟨rfl, ?_, ?_⟩
    · rw [stop_eq hn]
      exact Nat.lt_succ_self _
    · rw [stop_eq hn, Forest.size, show start + (rest.size + 1) = start + 1 + rest.size by omega]
      exact ht
  | .element type attributes below rest, start, ⟨hn, _, h⟩ => by
    have ht := h.tiles
    refine ⟨rfl, ?_, ?_⟩
    · rw [stop_eq hn]
      show start < start + 1 + below.size
      omega
    · rw [stop_eq hn, Forest.size,
        show start + (below.size + 1 + rest.size) = start + 1 + below.size + rest.size by omega]
      exact ht

/-- The rule of a tiled document for the node at a place, whose range must end
at `bound` or before. -/
def TiledAt (d : Document) (bound i : Nat) : Prop :=
  ∃ n, d.node? i = some n ∧ n.stop ≤ bound ∧ d.Tiles (i + 1) n.children n.stop ∧
    (n.isElement = false → n.children = [])

theorem TiledAt.mono {a b i : Nat} (h : d.TiledAt a i) (hab : a ≤ b) : d.TiledAt b i := by
  obtain ⟨n, hn, hle, ht⟩ := h
  exact ⟨n, hn, Nat.le_trans hle hab, ht⟩

theorem Holds.tiledAt {i : Nat} : ∀ {f : Forest} {start : Nat}, d.Holds start f → start ≤ i →
    i < start + f.size → d.TiledAt (start + f.size) i
  | .empty, start, _, hle, hlt => by
    rw [Forest.size] at hlt
    omega
  | .text s rest, start, ⟨hn, h⟩, hle, hlt => by
    rw [Forest.size, show start + (rest.size + 1) = start + 1 + rest.size by omega] at hlt ⊢
    rcases Nat.lt_or_eq_of_le hle with hi | rfl
    · exact h.tiledAt hi hlt
    · exact ⟨_, hn, Nat.le_add_right _ _, rfl, fun _ => rfl⟩
  | .element type attributes below rest, start, ⟨hn, hb, h⟩, hle, hlt => by
    rw [Forest.size,
      show start + (below.size + 1 + rest.size) = start + 1 + below.size + rest.size by omega]
      at hlt ⊢
    rcases Nat.lt_or_eq_of_le hle with hi | rfl
    · rcases Nat.lt_or_ge i (start + 1 + below.size) with hlb | hge
      · exact (hb.tiledAt hi hlb).mono (Nat.le_add_right _ _)
      · exact h.tiledAt hge hlt
    · exact ⟨_, hn, Nat.le_add_right _ _, hb.tiles, nofun⟩

theorem size_ofForest (f : Forest) : (ofForest f).size = f.size + 1 := by
  rw [size, ofForest, List.size_toArray, Forest.length_layout]
  rfl

theorem holds_ofForest (f : Forest) : (ofForest f).Holds 0 (.element "#document" [] f .empty) :=
  holds_of_toList_eq _ [] [] rfl (List.append_nil _).symm

/-- The document of a forest is tiled. -/
theorem tiled_ofForest (f : Forest) : (ofForest f).Tiled := by
  have hsize : (Forest.element "#document" [] f .empty).size = (ofForest f).size :=
    (size_ofForest f).symm
  have hat {i : Nat} {n : Node} (hn : (ofForest f).node? i = some n) :
      n.stop ≤ (ofForest f).size ∧ (ofForest f).Tiles (i + 1) n.children n.stop ∧
        (n.isElement = false → n.children = []) := by
    have hi : i < (ofForest f).size := (Array.getElem?_eq_some_iff.mp hn).1
    have h := (holds_ofForest f).tiledAt (Nat.zero_le i) (by rwa [hsize, Nat.zero_add])
    obtain ⟨m, hm, h⟩ := h
    obtain rfl : m = n := Option.some.inj (hm.symm.trans hn)
    rwa [hsize, Nat.zero_add] at h
  refine ⟨⟨f.roots 1, ?_⟩, fun hn => (hat hn).1, fun hn => (hat hn).2.1, fun hn => (hat hn).2.2⟩
  rw [size_ofForest, Nat.add_comm]
  exact (holds_ofForest f).1

end Document

end Gleaner
