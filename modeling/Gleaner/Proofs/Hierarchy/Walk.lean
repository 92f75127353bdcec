import Mathlib.Data.List.Forall2
import Gleaner.Hierarchy.Branch
import Gleaner.Proofs.Hierarchy.Graded

/-!
# The walk over the branches

A walk keeps, for each level that it is on, how far it has come there. What it
visits is said without these numbers: the paths of the entries left on each level,
below the nodes that lead there, with the innermost level first. One step takes a
path off the front of that list or leaves it as it is, so that asking for the next
branch takes off one path, as long as there is one.

* `Walk.remaining`: the paths that a walk has before it;
* `Walk.remaining_step`, `Walk.next_eq`: what a step and what a call of `Walk.next`
  does to them;
* `Walk.toList_eq_remaining`, `Hierarchy.branches_eq_paths`: these are what it
  visits;
* `Walk.next_after`: what each of some calls in a row gives, the calls after the
  last branch among them;
* `Hierarchy.IsPath`, `Hierarchy.forall₂_pathsFrom`: there is one path for each
  leaf, it leads along links from the top level to the leaf.
-/

namespace Gleaner

/-! ## Walks -/

namespace Walk

/-- The paths of the entries still to be visited, below the nodes of the path. -/
def remainingFrom : List Frame → List NodeId → List (List NodeId)
  | [], _ => []
  | f :: outer, path => f.rest.pathsFrom path ++ remainingFrom outer path.dropLast

def remaining (w : Walk) : List (List NodeId) :=
  remainingFrom w.stack w.path

/-- What one step does to the paths still to come. -/
theorem remaining_step (w : Walk) :
    match w.step with
    | .done => w.remaining = []
    | .move w' => w.remaining = w'.remaining
    | .visit branch w' => w.remaining = branch :: w'.remaining := by
  match w with
  | ⟨[], _⟩ => rfl
  | ⟨f :: outer, path⟩ =>
    have h := step_cases f outer path
    match hrest : f.rest with
    | .empty =>
      rw [hrest] at h
      rw [h]
      -- leaving the last level keeps the path, which no level is left to read
      cases outer <;> simp [remaining, remainingFrom, hrest, Hierarchy.pathsFrom]
    | .leaves [] others =>
      obtain ⟨g, hg, h⟩ := hrest ▸ h
      rw [h]
      simp [remaining, remainingFrom, hrest, hg, Hierarchy.pathsFrom]
    | .leaves (n :: ns) others =>
      obtain ⟨g, hg, h⟩ := hrest ▸ h
      rw [h]
      simp [remaining, remainingFrom, hrest, hg, Hierarchy.pathsFrom]
    | .node key below others =>
      obtain ⟨g, hg, h⟩ := hrest ▸ h
      rw [h]
      simp [remaining, remainingFrom, hrest, hg, Hierarchy.pathsFrom]

/-- A call gives the first of the paths still to come, and leaves the others. -/
theorem next_eq (w : Walk) :
    w.next.1 = w.remaining.head? ∧ w.next.2.remaining = w.remaining.tail := by
  have h := remaining_step w
  rw [next]
  split <;> rename_i hstep <;> rw [hstep] at h <;> dsimp only at h
  · rw [h]
    exact ⟨rfl, rfl⟩
  · rw [h]
    exact next_eq _
  · rw [h]
    exact ⟨rfl, rfl⟩
termination_by w.weight
decreasing_by exact weight_of_move ‹_›

theorem toList_eq_remaining (w : Walk) : w.toList = w.remaining := by
  obtain ⟨hgiven, hleft⟩ := next_eq w
  rw [toList]
  split <;> rename_i hnext <;> rw [hnext] at hgiven hleft
  · exact (List.head?_eq_none_iff.mp hgiven.symm).symm
  · rw [toList_eq_remaining, hleft]
    exact List.cons_head?_tail hgiven.symm
termination_by w.weight
decreasing_by exact weight_of_next ‹_›

/-- The walk after some calls. -/
def after (w : Walk) : Nat → Walk
  | 0 => w
  | n + 1 => (w.after n).next.2

theorem remaining_after (w : Walk) (n : Nat) : (w.after n).remaining = w.remaining.drop n := by
  induction n with
  | zero => rfl
  | succ n ih => rw [after, (next_eq _).2, ih, List.tail_drop]

/-- The call after some other ones gives the path of their number, and nothing
if there are no more paths. -/
theorem next_after (w : Walk) (n : Nat) : (w.after n).next.1 = w.remaining[n]? := by
  rw [(next_eq _).1, remaining_after, List.head?_drop]

theorem remaining_start (t : Hierarchy) : (start t).remaining = t.paths := by
  simp [remaining, remainingFrom, start, Hierarchy.paths]

/-- Whatever the hierarchy, calls of a walk from its start give its paths one after
the other, in their order, and nothing ever after. -/
theorem next_after_start (t : Hierarchy) (n : Nat) :
    ((start t).after n).next.1 = t.paths[n]? := by
  rw [next_after, remaining_start]

/-- Leaves after a node, an empty list of leaves before another one, and a node with
nothing below it. -/
example : (List.range 5).map (fun n => ((start (.node 1 (.leaves [2, 3]
    (.leaves [] (.node 4 .empty (.leaves [5] .empty)))) (.leaves [6] .empty))).after n).next.1) =
    [some [1, 2], some [1, 3], some [1, 5], some [6], none] := by cbv

end Walk

namespace Hierarchy

/-- The branches in the order of a walk are those of the recursion. -/
theorem branches_eq_paths (t : Hierarchy) : t.branches = t.paths := by
  rw [branches, Walk.toList_eq_remaining, Walk.remaining_start]

/-! ## Paths -/

/-- Whether a list of nodes leads from the top level along links to a node, such as a leaf. -/
structure IsPath (t : Hierarchy) (path : List NodeId) (leaf : NodeId) : Prop where
  last : path.getLast? = some leaf
  chain : path.IsChain fun p n => (p, n) ∈ t.links
  top : ∀ n ∈ path.head?, n ∈ t.tops

theorem IsPath.mono {s t : Hierarchy} {path : List NodeId} {leaf : NodeId}
    (h : s.IsPath path leaf) (hl : s.links ⊆ t.links) (ht : s.tops ⊆ t.tops) : t.IsPath path leaf :=
  ⟨h.last, h.chain.imp fun _ _ hm => hl hm, fun n hn => ht (h.top n hn)⟩

theorem isPath_singleton {t : Hierarchy} {leaf : NodeId} (h : leaf ∈ t.tops) :
    t.IsPath [leaf] leaf :=
  ⟨rfl, .singleton _, fun n hn => by cases hn; exact h⟩

theorem IsPath.cons {key : NodeId} {below rest : Hierarchy} {path : List NodeId} {leaf : NodeId}
    (h : below.IsPath path leaf) : (node key below rest).IsPath (key :: path) leaf := by
  match path, h with
  | n :: path, ⟨hlast, hchain, htop⟩ =>
    refine ⟨?_, ?_, fun m hm => ?_⟩
    · rw [List.getLast?_cons_cons]
      exact hlast
    · refine .cons_cons ?_ (hchain.imp fun _ _ hm =>
        List.mem_append_right _ (List.mem_append_left _ hm))
      exact List.mem_append_left _ (List.mem_map_of_mem (htop n rfl))
    · cases hm
      exact List.mem_cons_self

/-- There is one path for each leaf, in the order of the leaves. -/
theorem forall₂_pathsFrom (t : Hierarchy) (above : List NodeId) :
    List.Forall₂ (fun b leaf => ∃ path, b = above ++ path ∧ t.IsPath path leaf)
      (t.pathsFrom above) t.leafNodes := by
  induction t generalizing above with
  | empty => exact .nil
  | leaves ns rest ih =>
    refine List.rel_append ?_ ((ih above).imp fun b leaf ⟨path, hb, hp⟩ => ⟨path, hb, hp.mono
      (List.Subset.refl _) (List.subset_append_right _ _)⟩)
    rw [List.forall₂_map_left_iff, List.forall₂_same]
    exact fun n hn => ⟨[n], rfl, isPath_singleton (List.mem_append_left _ hn)⟩
  | node key below rest ihb ihr =>
    refine List.rel_append ((ihb (above ++ [key])).imp fun b leaf ⟨path, hb, hp⟩ => ?_)
      ((ihr above).imp fun b leaf ⟨path, hb, hp⟩ => ⟨path, hb, hp.mono ?_ ?_⟩)
    · exact ⟨key :: path, by rw [hb, List.append_assoc]; rfl, hp.cons⟩
    · exact fun l hl => List.mem_append_right _ (List.mem_append_right _ hl)
    · exact fun n hn => List.mem_cons_of_mem _ hn

theorem forall₂_branches (t : Hierarchy) : List.Forall₂ t.IsPath t.branches t.leafNodes := by
  rw [branches_eq_paths]
  refine (t.forall₂_pathsFrom []).imp fun b leaf ⟨path, hb, hp⟩ => ?_
  rw [hb]
  exact hp

end Hierarchy

end Gleaner
