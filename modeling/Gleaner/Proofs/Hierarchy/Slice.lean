import Gleaner.Proofs.Hierarchy.Preorder

/-!
# The elements between two markers

A hierarchy is built from the elements after a node, from the first one that matches the
start marker up to but without the first one from there on that matches the end marker. The
only faults are markers that are not found, the start marker being looked for first. An
element before the start is no end, even if it matches the end marker.

* `Marker.IsFirst`: the place of the first match from another place on, with
  `Marker.find_eq_ok_iff` and `Marker.find_eq_error_iff`: it is what is looked for;
* `Document.IsBound`: the place where a marker bounds a slice, with
  `Document.slice_eq_ok_iff` and `Document.slice_eq_error_iff`;
* `Hierarchy.build_between`: the statement for hierarchies.
-/

namespace Gleaner

/-! ## Looking for a marker -/

namespace Marker

/-- Whether a node has the type of a marker and passes its filter. -/
abbrev Matches (m : Marker) (d : Document) (n : NodeId) : Prop :=
  d.isMatch n m.type m.filter

/-- Whether the first match among some nodes, from a place on, stands at the place `i`. -/
structure IsFirst (m : Marker) (d : Document) (nodes : List NodeId) (start i : Nat) : Prop where
  start_le : start ≤ i
  matches_at : ∃ n, nodes[i]? = some n ∧ m.Matches d n
  not_before : ∀ k n, start ≤ k → k < i → nodes[k]? = some n → ¬m.Matches d n

variable {m : Marker} {d : Document} {nodes : List NodeId} {start i j : Nat}

theorem IsFirst.unique (hi : m.IsFirst d nodes start i) (hj : m.IsFirst d nodes start j) :
    i = j := by
  obtain ⟨n, hn, hmatch⟩ := hi.matches_at
  obtain ⟨n', hn', hmatch'⟩ := hj.matches_at
  rcases Nat.lt_trichotomy i j with hlt | heq | hlt
  · exact absurd hmatch (hj.not_before i n hi.start_le hlt hn)
  · exact heq
  · exact absurd hmatch' (hi.not_before j n' hj.start_le hlt hn')

theorem find_eq_error_iff {f : Fault} : m.find d nodes start = .error f ↔
    (∀ n ∈ nodes.drop start, ¬m.Matches d n) ∧ f = .markerNotFound m.text := by
  unfold find
  split
  · rename_i offset hfound
    refine iff_of_false nofun fun ⟨hnone, _⟩ => ?_
    obtain ⟨h, hmatch, -⟩ := List.findIdx?_eq_some_iff_getElem.mp hfound
    exact hnone _ (List.getElem_mem h) hmatch
  · rename_i hnone
    have hno : ∀ n ∈ nodes.drop start, ¬m.Matches d n := fun n hn =>
      Bool.not_eq_true _ ▸ List.findIdx?_eq_none_iff.mp hnone n hn
    exact ⟨fun h => ⟨hno, (Except.error.inj h).symm⟩, fun h => congrArg _ h.2.symm⟩

theorem isFirst_of_find (h : m.find d nodes start = .ok i) : m.IsFirst d nodes start i := by
  unfold find at h
  split at h
  · rename_i offset hfound
    obtain rfl := Except.ok.inj h
    obtain ⟨hlt, hmatch, hbefore⟩ := List.findIdx?_eq_some_iff_getElem.mp hfound
    refine ⟨Nat.le_add_right start offset, ⟨_, ?_, hmatch⟩, fun k n hk hki hn => ?_⟩
    · rw [← List.getElem?_drop, List.getElem?_eq_getElem hlt]
    · obtain ⟨offset', rfl⟩ := Nat.exists_eq_add_of_le hk
      obtain ⟨hlt', rfl⟩ := List.getElem?_eq_some_iff.mp (List.getElem?_drop ▸ hn)
      exact hbefore offset' (Nat.add_lt_add_iff_left.mp hki)
  · cases h

theorem find_eq_ok_iff : m.find d nodes start = .ok i ↔ m.IsFirst d nodes start i := by
  refine ⟨isFirst_of_find, fun h => ?_⟩
  cases hfind : m.find d nodes start with
  | ok k => rw [(isFirst_of_find hfind).unique h]
  | error f =>
    -- Nothing matches from the start on, but the place `i` does.
    obtain ⟨n, hn, hmatch⟩ := h.matches_at
    obtain ⟨offset, rfl⟩ := Nat.exists_eq_add_of_le h.start_le
    exact absurd hmatch
      ((find_eq_error_iff.mp hfind).1 n (List.mem_of_getElem? (List.getElem?_drop ▸ hn)))

end Marker

/-! ## Slices -/

namespace Document

/-- The place where a marker bounds a slice: its first match from the place `k` on, or the place
`otherwise` if there is no marker. -/
def bound (d : Document) (nodes : List NodeId) (marker : Option Marker) (k otherwise : Nat) :
    Except Fault Nat :=
  match marker with
  | some m => m.find d nodes k
  | none => .ok otherwise

/-- Whether a marker bounds a slice at the place `i`. -/
def IsBound (d : Document) (nodes : List NodeId) (marker : Option Marker) (k otherwise i : Nat) :
    Prop :=
  match marker with
  | some m => m.IsFirst d nodes k i
  | none => i = otherwise

variable {d : Document} {root : NodeId} {start stop marker : Option Marker} {nodes : List NodeId}
  {k otherwise i j : Nat}

theorem bound_eq_ok_iff :
    d.bound nodes marker k otherwise = .ok i ↔ d.IsBound nodes marker k otherwise i := by
  cases marker with
  | some m => exact Marker.find_eq_ok_iff
  | none => exact ⟨fun h => (Except.ok.inj h).symm, fun h => congrArg _ h.symm⟩

theorem bound_eq_error_iff {f : Fault} : d.bound nodes marker k otherwise = .error f ↔
    ∃ m ∈ marker, (∀ n ∈ nodes.drop k, ¬m.Matches d n) ∧ f = .markerNotFound m.text := by
  cases marker with
  | some m =>
    simp only [Option.mem_some_iff, exists_eq_left']
    exact Marker.find_eq_error_iff
  | none => exact iff_of_false nofun fun ⟨_, hm, _⟩ => nomatch hm

theorem slice_eq_bounds : d.slice root start stop =
    (d.bound (d.following root) start 0 0 >>= fun i =>
      d.bound (d.following root) stop i (d.following root).length >>= fun j =>
        .ok (((d.following root).drop i).take (j - i))) := by
  cases start <;> cases stop <;> rfl

theorem slice_eq_ok_iff : d.slice root start stop = .ok nodes ↔
    ∃ i j, d.IsBound (d.following root) start 0 0 i ∧
      d.IsBound (d.following root) stop i (d.following root).length j ∧
      nodes = ((d.following root).drop i).take (j - i) := by
  rw [slice_eq_bounds]
  simp only [bind_eq_ok, bound_eq_ok_iff, Except.ok.injEq, exists_and_left, eq_comm (b := nodes)]

theorem slice_eq_error_iff {f : Fault} : d.slice root start stop = .error f ↔
    (∃ m ∈ start, (∀ n ∈ d.following root, ¬m.Matches d n) ∧ f = .markerNotFound m.text) ∨
    ∃ m ∈ stop, ∃ i, d.IsBound (d.following root) start 0 0 i ∧
      (∀ n ∈ (d.following root).drop i, ¬m.Matches d n) ∧ f = .markerNotFound m.text := by
  rw [slice_eq_bounds, bind_eq_error, bound_eq_error_iff, List.drop_zero]
  simp only [bind_eq_error, bound_eq_ok_iff, bound_eq_error_iff, reduceCtorEq, and_false,
    exists_false, or_false]
  exact or_congr Iff.rfl ⟨fun ⟨i, hi, m, hm, h⟩ => ⟨m, hm, i, hi, h⟩,
    fun ⟨m, hm, i, hi, h⟩ => ⟨i, hi, m, hm, h⟩⟩

theorem not_matches_of_mem_slice {m : Marker} {n : NodeId} (hj : d.IsBound nodes (some m) i k j)
    (hn : n ∈ (nodes.drop i).take (j - i)) : ¬m.Matches d n := by
  obtain ⟨offset, hoff⟩ := List.mem_iff_getElem?.mp hn
  rw [List.getElem?_take] at hoff
  split at hoff
  · rename_i hlt
    exact hj.not_before (i + offset) n (Nat.le_add_right ..) (by omega) (List.getElem?_drop ▸ hoff)
  · cases hoff

theorem slice_eq_cons {n : NodeId} (hn : nodes[i]? = some n)
    (hj : d.IsBound nodes stop i nodes.length j) (hstop : ∀ m ∈ stop, ¬m.Matches d n) :
    ∃ rest, (nodes.drop i).take (j - i) = n :: rest := by
  obtain ⟨hi, rfl⟩ := List.getElem?_eq_some_iff.mp hn
  have hlt : i < j := by
    cases stop with
    | none => exact hj ▸ hi
    | some m =>
      refine Nat.lt_of_le_of_ne hj.start_le ?_
      rintro rfl
      obtain ⟨n, hn', hmatch⟩ := hj.matches_at
      exact hstop m rfl (Option.some.inj (hn.symm.trans hn') ▸ hmatch)
  obtain ⟨count, hcount⟩ := Nat.exists_eq_add_of_lt hlt
  exact ⟨_, by rw [List.drop_eq_getElem_cons hi, hcount, Nat.add_assoc, Nat.add_sub_cancel_left,
    List.take_succ_cons]⟩

/-- A slice from a marker up to the same marker is empty. -/
theorem slice_eq_nil {m : Marker} (hi : d.IsBound nodes (some m) 0 k i)
    (hj : d.IsBound nodes (some m) i otherwise j) : (nodes.drop i).take (j - i) = [] := by
  have : m.IsFirst d nodes i i :=
    ⟨Nat.le_refl i, hi.matches_at, fun k n hk hki => absurd hki (Nat.not_lt.mpr hk)⟩
  rw [this.unique hj, Nat.sub_self, List.take_zero]

end Document

/-! ## Hierarchies -/

namespace Hierarchy

variable {d : Document} {root : NodeId} {start stop : Option Marker} {levels : Levels}
  {t : Hierarchy}

theorem build_eq_error {f : Fault} :
    build d root start stop levels = .error f ↔ d.slice root start stop = .error f := by
  rw [build, bind_eq_error]
  refine or_iff_left ?_
  rintro ⟨nodes, -, h⟩
  cases h

theorem build_eq_ok_iff_bounds : build d root start stop levels = .ok t ↔
    ∃ i j, d.IsBound (d.following root) start 0 0 i ∧
      d.IsBound (d.following root) stop i (d.following root).length j ∧
      t = ofNodes levels.leafLevel (levels.levelIn? d)
        (((d.following root).drop i).take (j - i)) := by
  rw [build_eq_ok]
  constructor
  · rintro ⟨slice, hslice, rfl⟩
    obtain ⟨i, j, hi, hj, rfl⟩ := Document.slice_eq_ok_iff.mp hslice
    exact ⟨i, j, hi, hj, rfl⟩
  · rintro ⟨i, j, hi, hj, rfl⟩
    exact ⟨_, Document.slice_eq_ok_iff.mpr ⟨i, j, hi, hj, rfl⟩, rfl⟩

/-- The first match of the start marker comes first, if it has a level and is not where the end
marker stands. -/
theorem head?_nodes_build (h : build d root start stop levels = .ok t) {m : Marker}
    (hm : m ∈ start) : ∃ i n, m.IsFirst d (d.following root) 0 i ∧
      (d.following root)[i]? = some n ∧
      ((∀ m' ∈ stop, ¬m'.Matches d n) → (levels.levelIn? d n).isSome →
        t.nodes.head? = some n) := by
  obtain ⟨slice, hslice, ht⟩ := arranges_build h
  obtain ⟨i, j, hi, hj, rfl⟩ := Document.slice_eq_ok_iff.mp hslice
  obtain rfl := Option.mem_def.mp hm
  obtain ⟨n, hn, -⟩ := hi.matches_at
  refine ⟨i, n, hi, hn, fun hstop hlevel => ?_⟩
  obtain ⟨rest, hrest⟩ := Document.slice_eq_cons hn hj hstop
  rw [ht.nodes_eq, hrest, List.filter_cons, if_pos hlevel, List.head?_cons]

theorem not_matches_of_mem_build (h : build d root start stop levels = .ok t) {m : Marker}
    (hm : m ∈ stop) {n : NodeId} (hn : n ∈ t.nodes) : ¬m.Matches d n := by
  obtain ⟨slice, hslice, ht⟩ := arranges_build h
  obtain ⟨i, j, -, hj, rfl⟩ := Document.slice_eq_ok_iff.mp hslice
  obtain rfl := Option.mem_def.mp hm
  exact Document.not_matches_of_mem_slice hj (ht.mem_nodes_iff.mp hn).1

theorem build_same_marker {m : Marker} (h : build d root (some m) (some m) levels = .ok t) :
    t = empty := by
  obtain ⟨i, j, hi, hj, rfl⟩ := build_eq_ok_iff_bounds.mp h
  rw [Document.slice_eq_nil hi hj]
  rfl

/-- Building a hierarchy fails just for a start marker that nothing matches, or an end marker
that nothing matches from the start on. Else the hierarchy is the one of the elements from the
first match of the start marker, with it, to the first match from there on of the end marker,
without it. -/
theorem build_between (d : Document) (root : NodeId) (start stop : Option Marker)
    (levels : Levels) :
    let nodes := d.following root
    (∀ f, build d root start stop levels = .error f ↔
      (∃ m ∈ start, (∀ n ∈ nodes, ¬m.Matches d n) ∧ f = .markerNotFound m.text) ∨
      ∃ m ∈ stop, ∃ i, d.IsBound nodes start 0 0 i ∧
        (∀ n ∈ nodes.drop i, ¬m.Matches d n) ∧ f = .markerNotFound m.text) ∧
    (∀ t, build d root start stop levels = .ok t ↔
      ∃ i j, d.IsBound nodes start 0 0 i ∧ d.IsBound nodes stop i nodes.length j ∧
        t = ofNodes levels.leafLevel (levels.levelIn? d) ((nodes.drop i).take (j - i))) ∧
    ∀ t, build d root start stop levels = .ok t →
      (∀ m ∈ start, ∃ i n, m.IsFirst d nodes 0 i ∧ nodes[i]? = some n ∧
        ((∀ m' ∈ stop, ¬m'.Matches d n) → (levels.levelIn? d n).isSome →
          t.nodes.head? = some n)) ∧
      (∀ m ∈ stop, ∀ n ∈ t.nodes, ¬m.Matches d n) ∧
      (start.isSome → start = stop → t = empty) := by
  intro nodes
  refine ⟨fun f => build_eq_error.trans Document.slice_eq_error_iff,
    fun t => build_eq_ok_iff_bounds, fun t h => ⟨?_, ?_, ?_⟩⟩
  · exact fun m hm => head?_nodes_build h hm
  · exact fun m hm n hn => not_matches_of_mem_build h hm hn
  · intro hsome hsame
    subst hsame
    obtain ⟨m, rfl⟩ := Option.isSome_iff_exists.mp hsome
    exact build_same_marker h

/-- The page has a title, but not from its first heading of the second level on. No footer is
in its outline, and nothing stands between a marker and itself. -/
theorem outline_between :
    build outlinePage Document.root (some ⟨"h3", .any⟩) (some ⟨"title", .any⟩) outlineLevels =
        .error (.markerNotFound (Marker.text ⟨"title", .any⟩)) ∧
      (∀ n ∈ outline.nodes, ¬(⟨"footer", .any⟩ : Marker).Matches outlinePage n) ∧
      build outlinePage Document.root (some ⟨"h3", .any⟩) (some ⟨"h3", .any⟩) outlineLevels =
        .ok empty := by
  have hstart : outlinePage.IsBound (outlinePage.following Document.root) (some ⟨"h3", .any⟩) 0 0 1 :=
    Document.bound_eq_ok_iff.mp (by decide +kernel)
  have hstop : outlinePage.IsBound (outlinePage.following Document.root) (some ⟨"h3", .any⟩) 1
      (outlinePage.following Document.root).length 1 :=
    Document.bound_eq_ok_iff.mp (by decide +kernel)
  refine ⟨?_, ?_, ?_⟩
  · exact ((build_between ..).1 _).mpr (.inr ⟨_, rfl, 1, hstart, by decide +kernel, rfl⟩)
  · exact ((build_between ..).2.2 outline build_outlinePage).2.1 _ rfl
  · exact ((build_between ..).2.1 _).mpr ⟨1, 1, hstart, hstop, by decide +kernel⟩

end Hierarchy

end Gleaner
