import Mathlib.Order.Monotone.Basic
import Gleaner.Proofs.Hierarchy.Preorder

/-!
# Levels count by their order

While a hierarchy is built, levels are only compared with each other. So nothing changes when
each level is replaced through a strictly increasing function: two runs, one on the levels and
one on the replaced ones, take each node in the same way and have the same hierarchies at every
point, with owners that differ in their levels alone.

* `Levels.relabel`: levels that are replaced through a function;
* `Levels.Relabels`: what building can tell of two such levels;
* `Owners.relabel_take`, `Owners.relabel_foldl`: one step of both runs, and all steps;
* `Hierarchy.build_relabel`: the statement for hierarchies.
-/

namespace Gleaner

variable {f : Nat → Nat}

/-! ## Levels -/

namespace Levels

/-- The levels with each one replaced through a function. -/
def relabel (f : Nat → Nat) (l : Levels) : Levels :=
  ⟨l.entries.map fun e => (e.1, f e.2)⟩

/-- Whether two levels differ by a function, as far as building can tell: the level of leaves
counts only if some type has a level. -/
structure Relabels (f : Nat → Nat) (l l' : Levels) : Prop where
  levelOf? : ∀ type, l'.levelOf? type = (l.levelOf? type).map f
  leafLevel : ∀ type n, l.levelOf? type = some n → l'.leafLevel = f l.leafLevel

variable {l l' : Levels} {type : String} {n : Nat}

theorem levelOf?_relabel (f : Nat → Nat) (l : Levels) (type : String) :
    (l.relabel f).levelOf? type = (l.levelOf? type).map f := by
  simp only [relabel, levelOf?, List.find?_map, Option.map_map]
  rfl

/-- The level of leaves is replaced like the others if all entries correspond. -/
theorem leafLevel_eq_of_entries (hf : StrictMono f)
    (hto : ∀ e ∈ l.entries, ∃ e' ∈ l'.entries, e'.2 = f e.2)
    (hfrom : ∀ e' ∈ l'.entries, ∃ e ∈ l.entries, e'.2 = f e.2) {e : String × Nat}
    (he : e ∈ l.entries) : l'.leafLevel = f l.leafLevel := by
  obtain ⟨top, htop, hleaf⟩ := exists_entry_leafLevel he
  obtain ⟨top', htop', heq⟩ := hto top htop
  apply Nat.le_antisymm
  · obtain ⟨last', hlast', hleaf'⟩ := exists_entry_leafLevel htop'
    obtain ⟨last, hlast, hlasteq⟩ := hfrom last' hlast'
    rw [← hleaf', hlasteq]
    exact hf.monotone (le_leafLevel_of_mem hlast)
  · rw [← hleaf, ← heq]
    exact le_leafLevel_of_mem htop'

theorem relabels_relabel (hf : StrictMono f) (l : Levels) : l.Relabels f (l.relabel f) where
  levelOf? := levelOf?_relabel f l
  leafLevel type n hn := by
    obtain ⟨e, he, -⟩ := exists_entry_of_levelOf? hn
    refine leafLevel_eq_of_entries hf (fun e he => ?_) (fun e' he' => ?_) he
    · exact ⟨_, List.mem_map_of_mem he, rfl⟩
    · obtain ⟨e, he, rfl⟩ := List.mem_map.mp he'
      exact ⟨e, he, rfl⟩

/-! ### Levels of pairs -/

theorem levelOf?_insert (l : Levels) (type : String) (level : Nat) (other : String) :
    (l.insert type level).levelOf? other =
      if Text.lower other = Text.lower type then some level else l.levelOf? other := by
  have hlast : (l.insert type level).levelOf? other =
      ((l.entries.filter (·.1 != Text.lower type)).find? (·.1 == Text.lower other) |>.or
        ([(Text.lower type, level)].find? (·.1 == Text.lower other))).map (·.2) := by
    rw [← List.find?_append]
    rfl
  rw [hlast, List.find?_filter]
  by_cases h : Text.lower other = Text.lower type
  · rw [if_pos h, List.find?_eq_none.mpr, h]
    · simp
    · simp [h]
  · rw [if_neg h, List.find?_cons_of_neg (by simpa using Ne.symm h), List.find?_nil, Option.or_none,
      levelOf?]
    congr 2
    funext e
    by_cases he : e.1 = Text.lower other <;> simp [he, h]

/-- Whether each entry is the level of some type. -/
def IsFound (l : Levels) : Prop :=
  ∀ e ∈ l.entries, ∃ type, e.1 = Text.lower type ∧ l.levelOf? type = some e.2

theorem IsFound.insert (h : l.IsFound) (type : String) (level : Nat) :
    (l.insert type level).IsFound := by
  intro e he
  rcases List.mem_append.mp he with he | he
  · obtain ⟨he, hne⟩ := List.mem_filter.mp he
    obtain ⟨other, hother, hlevel⟩ := h e he
    refine ⟨other, hother, ?_⟩
    rw [levelOf?_insert, if_neg, hlevel]
    simpa [hother] using hne
  · obtain rfl := List.mem_singleton.mp he
    exact ⟨type, rfl, by rw [levelOf?_insert, if_pos rfl]⟩

theorem isFound_ofPairs (pairs : List (String × Nat)) : (ofPairs pairs).IsFound := by
  have hfold : ∀ (pairs : List (String × Nat)) {l : Levels}, l.IsFound →
      (pairs.foldl (fun l p => l.insert p.1 p.2) l).IsFound := by
    intro pairs
    induction pairs with
    | nil => exact fun h => h
    | cons p pairs ih => exact fun h => ih (h.insert p.1 p.2)
  exact hfold pairs (l := empty) nofun

theorem IsFound.relabels (hf : StrictMono f) (hl : l.IsFound) (hl' : l'.IsFound)
    (h : ∀ type, l'.levelOf? type = (l.levelOf? type).map f) : l.Relabels f l' where
  levelOf? := h
  leafLevel type n hn := by
    obtain ⟨e, he, -⟩ := exists_entry_of_levelOf? hn
    refine leafLevel_eq_of_entries hf (fun e he => ?_) (fun e' he' => ?_) he
    · obtain ⟨type, -, hlevel⟩ := hl e he
      exact exists_entry_of_levelOf? (by rw [h, hlevel, Option.map_some])
    · obtain ⟨type, -, hlevel⟩ := hl' e' he'
      obtain ⟨n, hn, hfn⟩ := Option.map_eq_some_iff.mp ((h type).symm.trans hlevel)
      obtain ⟨e, he, rfl⟩ := exists_entry_of_levelOf? hn
      exact ⟨e, he, hfn.symm⟩

end Levels

/-! ## Two runs -/

namespace Owners

/-- The owners with their levels replaced through a function. -/
def relabel (f : Nat → Nat) (o : Owners) : Owners :=
  ⟨o.top, o.stack.map fun w => { w with level := f w.level }⟩

theorem relabel_update (f : Nat → Nat) (g : Hierarchy → Hierarchy) :
    ∀ o : Owners, (o.relabel f).update g = (o.update g).relabel f
  | ⟨_, []⟩ | ⟨_, _ :: _⟩ => rfl

theorem relabel_close (f : Nat → Nat) : ∀ o : Owners, (o.relabel f).close = o.close.relabel f
  | ⟨_, []⟩ => rfl
  | ⟨top, w :: outer⟩ => relabel_update f (·.addNode w.key w.below) ⟨top, outer⟩

theorem relabel_closeMany (f : Nat → Nat) :
    ∀ (n : Nat) (o : Owners), (o.relabel f).closeMany n = (o.closeMany n).relabel f
  | 0, _ => rfl
  | n + 1, o => by rw [closeMany, relabel_close, relabel_closeMany f n, closeMany]

/-- The same owners are closed in both runs. -/
theorem relabel_settle (hf : StrictMono f) (o : Owners) (level : Nat) :
    (o.relabel f).settle (f level) = (o.settle level).relabel f := by
  have hlength : ((o.relabel f).stack.takeWhile (f level ≤ ·.level)).length =
      (o.stack.takeWhile (level ≤ ·.level)).length := by
    rw [relabel, List.takeWhile_map, List.length_map]
    simp only [Function.comp_def, hf.le_iff_le]
  rw [settle, hlength, relabel_closeMany, settle]

/-- One node is taken in the same way by both runs. -/
theorem relabel_take (hf : StrictMono f) (leafLevel : Nat) (o : Owners) (key : NodeId)
    (level : Option Nat) :
    (o.relabel f).take (f leafLevel) key (level.map f) = (o.take leafLevel key level).relabel f := by
  cases level with
  | none => rfl
  | some level =>
    rw [Option.map_some, take, take, relabel_settle hf]
    by_cases hleaf : level = leafLevel
    · rw [if_pos hleaf, if_pos (congrArg f hleaf), relabel_update]
    · rw [if_neg hleaf, if_neg (hf.injective.ne hleaf)]
      rfl

theorem relabel_foldl (hf : StrictMono f) (leafLevel : Nat) (level : NodeId → Option Nat) :
    ∀ (nodes : List NodeId) (o : Owners),
      nodes.foldl (fun o i => o.take (f leafLevel) i ((level i).map f)) (o.relabel f) =
        (nodes.foldl (fun o i => o.take leafLevel i (level i)) o).relabel f
  | [], _ => rfl
  | i :: nodes, o => by
    rw [List.foldl_cons, relabel_take hf, relabel_foldl hf leafLevel level nodes, List.foldl_cons]

theorem finish_relabel (f : Nat → Nat) (o : Owners) : (o.relabel f).finish = o.finish := by
  have hlength : (o.relabel f).stack.length = o.stack.length := List.length_map ..
  rw [finish, relabel_closeMany, hlength]
  rfl

end Owners

namespace Hierarchy

/-- Both runs come to the same hierarchy. -/
theorem ofNodes_relabel (hf : StrictMono f) (leafLevel : Nat) (level : NodeId → Option Nat)
    (nodes : List NodeId) :
    ofNodes (f leafLevel) (fun i => (level i).map f) nodes = ofNodes leafLevel level nodes := by
  have hrun := Owners.relabel_foldl hf leafLevel level nodes .empty
  exact (congrArg Owners.finish hrun).trans (Owners.finish_relabel f _)

/-- Without any levels the level of leaves does not count. -/
theorem ofNodes_of_none {level : NodeId → Option Nat} (h : ∀ i, level i = none) (leafLevel : Nat)
    (nodes : List NodeId) : ofNodes leafLevel level nodes = empty := by
  have hfold : ∀ nodes : List NodeId,
      nodes.foldl (fun o i => o.take leafLevel i (level i)) Owners.empty = .empty := by
    intro nodes
    induction nodes with
    | nil => rfl
    | cons i nodes ih => rw [List.foldl_cons, h, Owners.take_none, ih]
  rw [ofNodes, hfold]
  rfl

theorem ofNodes_of_relabels (hf : StrictMono f) {l l' : Levels} (h : l.Relabels f l')
    (d : Document) (nodes : List NodeId) :
    ofNodes l'.leafLevel (l'.levelIn? d) nodes = ofNodes l.leafLevel (l.levelIn? d) nodes := by
  have hlevel : l'.levelIn? d = fun i => (l.levelIn? d i).map f :=
    funext fun i => h.levelOf? (d.nodeType i)
  by_cases hnone : ∀ i, l.levelIn? d i = none
  · have hnone' : ∀ i, l'.levelIn? d i = none := fun i => by
      simp only [hlevel, hnone, Option.map_none]
    rw [ofNodes_of_none hnone, ofNodes_of_none hnone']
  · obtain ⟨i, hi⟩ := not_forall.mp hnone
    obtain ⟨n, hn⟩ := Option.ne_none_iff_exists'.mp hi
    rw [hlevel, h.leafLevel _ n hn, ofNodes_relabel hf]

theorem build_of_relabels (hf : StrictMono f) {l l' : Levels} (h : l.Relabels f l')
    (d : Document) (root : NodeId) (start stop : Option Marker) :
    build d root start stop l' = build d root start stop l := by
  have hnodes := ofNodes_of_relabels hf h d
  unfold build
  exact bind_congr fun nodes => congrArg Except.ok (hnodes nodes)

/-- The same hierarchy, or the same fault, comes of levels that are replaced through a strictly
increasing function. Levels that are read from pairs may be written in any way, as long as they
give each type the replaced level; so may those of a path, with gaps between them. -/
theorem build_relabel (hf : StrictMono f) (d : Document) (root : NodeId)
    (start stop : Option Marker) :
    (∀ levels : Levels,
      (∀ type, (levels.relabel f).levelOf? type = (levels.levelOf? type).map f) ∧
        build d root start stop (levels.relabel f) = build d root start stop levels) ∧
    (∀ pairs pairs' : List (String × Nat),
      (∀ type, (Levels.ofPairs pairs').levelOf? type =
        ((Levels.ofPairs pairs).levelOf? type).map f) →
      build d root start stop (.ofPairs pairs') = build d root start stop (.ofPairs pairs)) ∧
    build d root start stop (.ofPairs [("h2", 0), ("h3", 5), ("table", 9)]) =
      build d root start stop (.ofPath "h2.h3.table") := by
  refine ⟨fun levels => ⟨Levels.levelOf?_relabel f levels, ?_⟩, fun pairs pairs' h => ?_, ?_⟩
  · exact build_of_relabels hf (Levels.relabels_relabel hf levels) d root start stop
  · have hpairs := Levels.isFound_ofPairs pairs
    exact build_of_relabels hf (hpairs.relabels hf (Levels.isFound_ofPairs pairs') h) d root start stop
  · have hgaps : StrictMono fun n => if n = 0 then 0 else 4 * n + 1 := by
      intro m n hlt
      dsimp only
      split_ifs <;> omega
    have hlevels : (Levels.ofPath "h2.h3.table").relabel (fun n => if n = 0 then 0 else 4 * n + 1) =
        .ofPairs [("h2", 0), ("h3", 5), ("table", 9)] := by
      decide +kernel
    rw [← hlevels]
    exact build_of_relabels hgaps (Levels.relabels_relabel hgaps _) d root start stop

/-- The levels of the headings of the page, with others in between and in another order. -/
def sparseLevels : List (String × Nat) :=
  [("div", 7), ("H2", 3), ("h3", 5)]

theorem levelOf?_sparseLevels (type : String) : (Levels.ofPairs sparseLevels).levelOf? type =
    (outlineLevels.levelOf? type).map (2 * · + 3) := by
  have houtline : outlineLevels = ((Levels.empty.insert "h2" 0).insert "h3" 1).insert "div" 2 := by
    decide +kernel
  have hsparse : Levels.ofPairs sparseLevels =
    ((Levels.empty.insert "div" 7).insert "H2" 3).insert "h3" 5 := rfl
  have hnames : Text.lower "h3" ≠ Text.lower "div" ∧ Text.lower "h2" ≠ Text.lower "div" ∧
      Text.lower "h3" ≠ Text.lower "h2" ∧ Text.lower "H2" = Text.lower "h2" := by
    decide +kernel
  have hempty : Levels.empty.levelOf? type = none := rfl
  rw [houtline, hsparse]
  simp only [Levels.levelOf?_insert, hnames.2.2.2, hempty]
  split_ifs <;> simp_all

/-- Neither the gaps between the levels nor the order in which they are given change the
hierarchy of the page. -/
theorem outline_relabel :
    StrictMono (2 * · + 3 : Nat → Nat) ∧
      build outlinePage Document.root (some ⟨"H3", .any⟩) (some ⟨"footer", .any⟩)
        (outlineLevels.relabel (2 * · + 3)) = .ok outline ∧
      build outlinePage Document.root (some ⟨"H3", .any⟩) (some ⟨"footer", .any⟩)
        (.ofPairs sparseLevels) = .ok outline := by
  have hf : StrictMono (2 * · + 3 : Nat → Nat) := fun m n hlt => by
    dsimp only
    omega
  obtain ⟨hrelabel, hpairs, -⟩ := build_relabel hf outlinePage Document.root
    (some ⟨"H3", .any⟩) (some ⟨"footer", .any⟩)
  refine ⟨hf, ?_, ?_⟩
  · rw [(hrelabel outlineLevels).2, build_outlinePage]
  · exact (hpairs _ _ levelOf?_sparseLevels).trans build_outlinePage

end Hierarchy

end Gleaner
