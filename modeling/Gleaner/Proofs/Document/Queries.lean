import Mathlib.Logic.Relation
import Gleaner.Proofs.Document.Building

/-!
# Queries and the tree of children

The queries of a document read a range of its nodes. What they are meant to
give is said of the tree instead: a walk goes from a node down its children,
each with all that is below it before the next one. In a tiled document the
walk below a node visits the places of its range one after the other, and so
the queries give what the walk meets.

* `Document.Visits`: what a walk from some siblings visits;
* `Document.IsBelow`, `Document.IsLater`: a node below another, and a node in a
  subtree that comes after another node's;
* `Tiled.visits_children`, `Tiled.isBelow_iff`, `Tiled.isLater_iff`: all three
  by places;
* `Document.Answers`: the answers to all queries about a node, said of the tree;
* `Builder.answers_build`: documents answer so, however they are built.
-/

namespace Gleaner

namespace Document

variable {d : Document}

/-! ## Walks -/

/-- Whether a walk from some siblings visits the nodes `is` in this order:
each sibling, then what is below it, then the siblings after it. -/
inductive Visits (d : Document) : List NodeId → List NodeId → Prop where
  | nil : d.Visits [] []
  | cons {c : NodeId} {cs below rest : List NodeId} {n : Node} : d.node? c = some n →
    d.Visits n.children below → d.Visits cs rest → d.Visits (c :: cs) (c :: (below ++ rest))

/-- There is only one walk. -/
theorem Visits.unique {cs is : List NodeId} (h : d.Visits cs is) :
    ∀ {js : List NodeId}, d.Visits cs js → js = is := by
  induction h with
  | nil =>
    intro js hj
    cases hj
    rfl
  | cons hn _ _ ihBelow ihRest =>
    intro js hj
    cases hj with
    | cons hm hb hr =>
      obtain rfl := Option.some.inj (hm.symm.trans hn)
      rw [ihBelow hb, ihRest hr]

theorem places_eq_cons {a b : Nat} (h : a < b) : places a b = a :: places (a + 1) b := by
  rw [places, show b - a = b - (a + 1) + 1 by omega, List.range'_succ, places]

theorem places_append {a b c : Nat} (hab : a ≤ b) (hbc : b ≤ c) :
    places a b ++ places b c = places a c := by
  have h := List.range'_append_1 (s := a) (m := b - a) (n := c - b)
  rw [show a + (b - a) = b by omega, show b - a + (c - b) = c - a by omega] at h
  exact h

theorem nodup_places (a b : Nat) : (places a b).Nodup :=
  List.nodup_range'

/-- Whether a node is somewhere below another. -/
def IsBelow (d : Document) (y x : NodeId) : Prop :=
  Relation.TransGen d.IsChild x y

/-- Whether a node is another one or below it. -/
def IsWithin (d : Document) (y x : NodeId) : Prop :=
  Relation.ReflTransGen d.IsChild x y

/-- Whether a node is in a later subtree than another: of two siblings, the
earlier one is above the other node or is that node, and the later one is
above this node or is this node. -/
def IsLater (d : Document) (y x : NodeId) : Prop :=
  ∃ p n b c, d.node? p = some n ∧ [b, c].Sublist n.children ∧ d.IsWithin x b ∧ d.IsWithin y c

theorem IsWithin.isBelow {p c y : Nat} (hc : d.IsChild p c) (h : d.IsWithin y c) :
    d.IsBelow y p :=
  Relation.TransGen.head' hc h

/-! ## Walks of tiled documents -/

/-- Two nodes that tile a range stand in the order of their places. -/
theorem Tiles.sublist_of_lt {b c e : Nat} :
    ∀ {cs : List NodeId} {a : Nat}, d.Tiles a cs b → c ∈ cs → e ∈ cs → c < e →
      [c, e].Sublist cs
  | k :: cs, a, ⟨hk, hlt, h⟩, hc, he, hce => by
    subst hk
    rcases List.mem_cons.mp hc with rfl | hcs
    · have hecs : e ∈ cs := (List.mem_cons.mp he).resolve_left (Nat.ne_of_gt hce)
      exact (List.singleton_sublist.mpr hecs).cons_cons c
    · have hke : e ≠ k := by
        rintro rfl
        have := (h.bounds hcs).1
        omega
      exact (h.sublist_of_lt hcs ((List.mem_cons.mp he).resolve_left hke) hce).cons k

namespace Tiled

variable (h : d.Tiled)

include h

theorem lt_stop {x : NodeId} {n : Node} (hn : d.node? x = some n) : x < d.stop x := by
  rw [stop_eq hn]
  exact (h.tiles hn).le

/-- The walk from nodes that tile a range visits the places of the range. -/
theorem visits_of_tiles {a b : Nat} {cs : List NodeId} (ht : d.Tiles a cs b) :
    d.Visits cs (places a b) := by
  match cs, ht with
  | [], ht =>
    obtain rfl : a = b := ht
    rw [places, Nat.sub_self]
    exact .nil
  | c :: cs, ⟨hc, hlt, hr⟩ =>
    obtain ⟨n, hn⟩ := exists_node hlt
    have hb : d.Tiles (a + 1) n.children (d.stop a) := stop_eq hn ▸ h.tiles hn
    have hle : d.stop a ≤ b := hr.le
    rw [places_eq_cons (Nat.lt_of_lt_of_le hlt hle), ← places_append hlt hle, hc]
    exact .cons hn (visits_of_tiles hb) (visits_of_tiles hr)
termination_by b - a

/-- The walk below a node visits the places of its range. -/
theorem visits_children {x : NodeId} {n : Node} (hn : d.node? x = some n) :
    d.Visits n.children (places (x + 1) (d.stop x)) := by
  rw [stop_eq hn]
  exact h.visits_of_tiles (h.tiles hn)

/-- The walk from the root visits all places. -/
theorem visits_root : d.Visits [root] (places root d.size) := by
  obtain ⟨children, hn⟩ := h.root_node
  have hstop : d.stop root = d.size := h.stop_root
  exact h.visits_of_tiles ⟨rfl, h.lt_stop hn, hstop⟩

theorem bounds_of_isBelow {x y : Nat} (hy : d.IsBelow y x) : x < y ∧ d.stop y ≤ d.stop x ∧
    y < d.stop y := by
  induction hy with
  | single hc =>
    obtain ⟨hlt, hy, hle⟩ := h.child_bounds hc
    exact ⟨hlt, hle, hy⟩
  | tail _ hc ih =>
    obtain ⟨hlt, hy, hle⟩ := h.child_bounds hc
    exact ⟨Nat.lt_trans ih.1 hlt, Nat.le_trans hle ih.2.1, hy⟩

theorem bounds_of_isWithin {x y : Nat} (hy : d.IsWithin y x) : x ≤ y ∧ d.stop y ≤ d.stop x := by
  rcases Relation.reflTransGen_iff_eq_or_transGen.mp hy with rfl | hy
  · exact ⟨Nat.le_refl _, Nat.le_refl _⟩
  · obtain ⟨hlt, hle, -⟩ := h.bounds_of_isBelow hy
    exact ⟨Nat.le_of_lt hlt, hle⟩

/-- A node in the range of another is that node or below it. The walk goes down
to the child whose range has the node in it, and so on from there. -/
theorem isWithin_of_range {x y : Nat} (hxy : x ≤ y) (hy : y < d.stop x) : d.IsWithin y x := by
  rcases Nat.lt_or_eq_of_le hxy with hlt | rfl
  · obtain ⟨n, hn⟩ := exists_node hy
    have hy' := hy
    rw [stop_eq hn] at hy'
    obtain ⟨c, hc, hcy, hyc⟩ := (h.tiles hn).exists_mem hlt hy'
    have hchild : d.IsChild x c := ⟨n, hn, hc⟩
    have hxc : x < c := (h.child_bounds hchild).1
    exact (isWithin_of_range hcy hyc).head hchild
  · exact .refl
termination_by y - x

/-- The nodes below a node are those of its range. -/
theorem isBelow_iff {x y : Nat} : d.IsBelow y x ↔ x < y ∧ y < d.stop x := by
  constructor
  · intro hy
    obtain ⟨hlt, hle, hyy⟩ := h.bounds_of_isBelow hy
    exact ⟨hlt, Nat.lt_of_lt_of_le hyy hle⟩
  · rintro ⟨hlt, hy⟩
    rcases Relation.reflTransGen_iff_eq_or_transGen.mp (h.isWithin_of_range (Nat.le_of_lt hlt) hy)
      with rfl | hb
    · exact absurd hlt (Nat.lt_irrefl _)
    · exact hb

/-- Of two nodes in the range of a third, the one behind the range of the other
is later: their ways down part at some node, or the first is on the way to the
second. -/
theorem isLater_of_range {a x y : Nat} {n : Node} (hn : d.node? x = some n) (hax : a ≤ x)
    (hxy : d.stop x ≤ y) (hy : y < d.stop a) : d.IsLater y x := by
  have hxx : x < d.stop x := h.lt_stop hn
  have hax : a < x := by
    rcases Nat.lt_or_eq_of_le hax with hlt | rfl
    · exact hlt
    · omega
  obtain ⟨m, hm⟩ := exists_node hy
  have hym := hy
  rw [stop_eq hm] at hym
  obtain ⟨b, hb, hbx, hxb⟩ := (h.tiles hm).exists_mem hax (by omega)
  obtain ⟨c, hc, hcy, hyc⟩ := (h.tiles hm).exists_mem (show a + 1 ≤ y by omega) hym
  have hab : a < b := (h.child_bounds ⟨m, hm, hb⟩).1
  -- Both nodes are below `a`. If one child has them both, the search goes on below it.
  rcases Nat.lt_trichotomy b c with hbc | rfl | hcb
  · exact ⟨a, m, b, c, hm, (h.tiles hm).sublist_of_lt hb hc hbc, h.isWithin_of_range hbx hxb,
      h.isWithin_of_range hcy hyc⟩
  · exact isLater_of_range hn hbx hxy hyc
  · have hyx : y < x := Nat.lt_of_lt_of_le hyc
      (Nat.le_trans ((h.tiles hm).stop_le_of_lt hc hb hcb) hbx)
    omega
termination_by x - a

/-- The nodes later than a node are those behind its range. -/
theorem isLater_iff {x y : Nat} {n : Node} (hn : d.node? x = some n) :
    d.IsLater y x ↔ d.stop x ≤ y ∧ y < d.size := by
  constructor
  · rintro ⟨p, m, b, c, hm, hs, hxb, hyc⟩
    have hb : b ∈ m.children := hs.subset List.mem_cons_self
    have hc : c ∈ m.children := hs.subset (List.mem_cons_of_mem _ List.mem_cons_self)
    have hbc : b < c := by
      have hp := (h.tiles hm).pairwise_lt.sublist hs
      exact (List.pairwise_cons.mp hp).1 c List.mem_cons_self
    have hy : d.IsBelow y p := hyc.isBelow ⟨m, hm, hc⟩
    obtain ⟨-, hyp, hyy⟩ := h.bounds_of_isBelow hy
    have hps : d.stop p ≤ d.size := by
      rw [stop_eq hm]
      exact h.stop_le hm
    have hbc' : d.stop b ≤ c := (h.tiles hm).stop_le_of_lt hb hc hbc
    have hxb' := (h.bounds_of_isWithin hxb).2
    have hcy := (h.bounds_of_isWithin hyc).1
    omega
  · rintro ⟨hxy, hy⟩
    rw [← h.stop_root] at hy
    exact h.isLater_of_range hn (Nat.zero_le x) hxy hy

end Tiled

/-! ## Queries -/

/-- The answers to the queries about a node, said of the tree that the lists of
children give. The nodes `below` are those that the walk below the node visits.
The text of a text node is its own, and it is the only text in its subtree. -/
structure Answers (d : Document) (x : NodeId) (n : Node) (below : List NodeId) : Prop where
  visits : ∀ is, d.Visits n.children is ↔ is = below
  mem_below : ∀ y, y ∈ below ↔ d.IsBelow y x
  not_mem_below : x ∉ below
  text : d.text x = String.join ((x :: below).filterMap fun i => (d.node? i).bind Node.text?)
  findAll : ∀ type filter, d.findAll x type filter =
    below.filter fun i => d.isElement i && d.isMatch i type filter
  /-- The elements that the walk from the root visits after the node. -/
  following : ∃ before after, d.Visits [root] (before ++ x :: after) ∧
    (before ++ x :: after).Nodup ∧ d.following x = after.filter d.isElement
  mem_following : ∀ y, y ∈ d.following x ↔ d.isElement y ∧ (d.IsBelow y x ∨ d.IsLater y x)
  not_mem_following : ∀ a, d.IsBelow x a → a ∉ d.following x
  children : d.children x = n.children.filter fun c => ((d.node? c).bind Node.text?).isNone

theorem text?_eq_none_iff (n : Node) : n.text? = none ↔ n.isElement := by
  obtain ⟨_ | _, _, _⟩ := n <;> simp [Node.text?, Node.isElement]

namespace Tiled

variable (h : d.Tiled)

include h

/-- The text of a node, whether it has texts below it or is one. -/
theorem text_eq {x : NodeId} {n : Node} (hn : d.node? x = some n) :
    d.text x = String.join ((x :: places (x + 1) (d.stop x)).filterMap fun i =>
      (d.node? i).bind Node.text?) := by
  rw [text, List.filterMap_cons, hn, Option.bind_some]
  cases ht : n.text? with
  | none => rfl
  | some s =>
    have he : n.isElement = false := by
      rw [Bool.eq_false_iff, ne_eq, ← text?_eq_none_iff, ht]
      exact nofun
    have hs : d.stop x = x + 1 := by
      have ht := h.tiles hn
      rw [h.children_text hn he] at ht
      rw [stop_eq hn]
      exact ht.symm
    rw [hs, places, Nat.sub_self]
    simp [String.join]

theorem children_eq {x : NodeId} {n : Node} (hn : d.node? x = some n) :
    d.children x = n.children.filter fun c => ((d.node? c).bind Node.text?).isNone := by
  rw [children, hn]
  refine List.filter_congr fun c hc => ?_
  obtain ⟨-, hlt, -⟩ := h.child_bounds ⟨n, hn, hc⟩
  obtain ⟨m, hm⟩ := exists_node hlt
  rw [isElement, hm, Option.any_some, Option.bind_some, Bool.eq_iff_iff, Option.isNone_iff_eq_none,
    text?_eq_none_iff]

/-- The queries of a tiled document give what the tree has. -/
theorem answers {x : NodeId} {n : Node} (hn : d.node? x = some n) :
    d.Answers x n (places (x + 1) (d.stop x)) := by
  have hxx : x < d.stop x := h.lt_stop hn
  have hxs : d.stop x ≤ d.size := by
    rw [stop_eq hn]
    exact h.stop_le hn
  have hwalk := h.visits_children hn
  have hmem (y : NodeId) : y ∈ d.following x ↔ d.isElement y ∧ x < y ∧ y < d.size := by
    rw [following, List.mem_filter, mem_places, and_comm]
    rfl
  refine
    { visits := fun is => ⟨fun hi => hwalk.unique hi, fun hi => hi ▸ hwalk⟩
      mem_below := fun y => mem_places.trans h.isBelow_iff.symm
      not_mem_below := fun hx => Nat.lt_irrefl _ (mem_places.mp hx).1
      text := h.text_eq hn
      findAll := fun _ _ => rfl
      following := ⟨places root x, places (x + 1) d.size, ?_⟩
      mem_following := fun y => ?_
      not_mem_following := fun a ha hm => ?_
      children := h.children_eq hn }
  · have hsplit : places root x ++ x :: places (x + 1) d.size = places root d.size := by
      rw [← places_eq_cons (Nat.lt_of_lt_of_le hxx hxs)]
      exact places_append (Nat.zero_le x) (Nat.le_of_lt (Nat.lt_of_lt_of_le hxx hxs))
    rw [hsplit]
    exact ⟨h.visits_root, nodup_places _ _, rfl⟩
  · rw [hmem, h.isBelow_iff, h.isLater_iff hn]
    refine and_congr_right fun _ => ⟨fun ⟨hxy, hy⟩ => ?_, ?_⟩
    · rcases Nat.lt_or_ge y (d.stop x) with hlt | hge
      · exact .inl ⟨hxy, hlt⟩
      · exact .inr ⟨hge, hy⟩
    · rintro (⟨hxy, hy⟩ | ⟨hxy, hy⟩)
      · exact ⟨hxy, Nat.lt_of_lt_of_le hy hxs⟩
      · exact ⟨Nat.lt_of_lt_of_le hxx hxy, hy⟩
  · have hax : a < x := (h.isBelow_iff.mp ha).1
    have hxa : x < a := ((hmem a).mp hm).2.1
    exact Nat.lt_asymm hax hxa

end Tiled

end Document

namespace Builder

/-- Documents answer queries by the tree of their children, whatever the
operations are that built them. -/
theorem answers_build (operations : List Operation) {x : NodeId} {n : Node}
    (hn : (build operations).node? x = some n) :
    ∃ below, (build operations).Answers x n below := by
  refine ⟨_, Document.Tiled.answers ?_ hn⟩
  rw [build_eq_ofForest]
  exact Document.tiled_ofForest _

/-- The operations for a list whose last item stays open, and a paragraph
behind it. -/
def listOperations : List Operation :=
  [.openElement "ul" [], .element "li" [("class", "first")] "a", .openElement "li" [], .addText "b",
    .closeTag "ul", .element "p" [] "c"]

/-- The list is node 1 and has two items, the second of which is node 4. -/
theorem answers_list :
    (build listOperations).node? 1 = some ⟨.element "ul" [], [2, 4], 6⟩ ∧
      ∃ below, (build listOperations).Answers 1 ⟨.element "ul" [], [2, 4], 6⟩ below :=
  have hn : (build listOperations).node? 1 = some ⟨.element "ul" [], [2, 4], 6⟩ := by decide
  ⟨hn, answers_build listOperations hn⟩

end Builder

end Gleaner
