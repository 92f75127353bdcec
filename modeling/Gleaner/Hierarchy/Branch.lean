import Gleaner.Hierarchy.Basic

/-!
# Branches of a hierarchy

A branch leads from the top of a hierarchy to a leaf: the nodes passed on the
way down and the leaf at its end. There is one branch for each leaf; a node
with no leaf below it has none.

* `Hierarchy.paths`: the branches, by recursion on the hierarchy;
* `Walk.next`: the next branch of a walk that holds a frame for each level it
  is on, with the numbers of the entry and of the leaf it has come to there, and
  the nodes above the innermost level;
* `Frame.rest`: the entries that are still to be visited on a level;
* `Walk.toList`, `Hierarchy.branches`: the branches that come one after the other,
  of a walk and of a walk from the start.
-/

namespace Gleaner

namespace Hierarchy

/-- The branches below the nodes `above`, in the order of the leaves. -/
def pathsFrom (above : List NodeId) : Hierarchy → List (List NodeId)
  | empty => []
  | leaves ns rest => ns.map (fun n => above ++ [n]) ++ rest.pathsFrom above
  | node key below rest => below.pathsFrom (above ++ [key]) ++ rest.pathsFrom above

/-- The branches of a hierarchy. -/
def paths (t : Hierarchy) : List (List NodeId) :=
  t.pathsFrom []

/-- The entries after the first one. -/
def tail : Hierarchy → Hierarchy
  | empty => empty
  | leaves _ rest => rest
  | node _ _ rest => rest

/-- The entries of the top level from one of them on. -/
def drop (t : Hierarchy) : Nat → Hierarchy
  | 0 => t
  | n + 1 => (t.drop n).tail

/-- The hierarchy without some first leaves of the first list of leaves. -/
def dropLeaves (count : Nat) : Hierarchy → Hierarchy
  | empty => empty
  | leaves ns rest => leaves (ns.drop count) rest
  | node key below rest => node key below (rest.dropLeaves count)

@[simp] theorem dropLeaves_zero (t : Hierarchy) : t.dropLeaves 0 = t := by
  induction t with
  | empty => rfl
  | leaves ns rest => rfl
  | node key below rest _ ih => rw [dropLeaves, ih]

/-- The number of steps a walk needs for a hierarchy. -/
def weight : Hierarchy → Nat
  | empty => 1
  | leaves ns rest => 1 + ns.length + rest.weight
  | node _ below rest => 1 + below.weight + rest.weight

end Hierarchy

/-- One level of a walk. -/
structure Frame where
  /-- All entries of the level. -/
  entries : Hierarchy
  /-- The number of the entry that comes next. -/
  entry : Nat
  /-- The number of leaves visited in the first list of leaves from that entry on. -/
  leaf : Nat
  deriving DecidableEq, Repr

namespace Frame

def start (t : Hierarchy) : Frame :=
  ⟨t, 0, 0⟩

/-- The entries that are still to be visited. -/
def rest (f : Frame) : Hierarchy :=
  (f.entries.drop f.entry).dropLeaves f.leaf

@[simp] theorem rest_start (t : Hierarchy) : (start t).rest = t :=
  t.dropLeaves_zero

variable {f : Frame} {ns : List NodeId} {key : NodeId} {below others : Hierarchy}

theorem rest_of_empty (h : f.entries.drop f.entry = .empty) : f.rest = .empty := by
  rw [rest, h, Hierarchy.dropLeaves]

theorem rest_of_visit {n : NodeId} (h : f.entries.drop f.entry = .leaves ns others)
    (hn : ns[f.leaf]? = some n) :
    ∃ left, f.rest = .leaves (n :: left) others ∧
      { f with leaf := f.leaf + 1 }.rest = .leaves left others := by
  obtain ⟨hlt, rfl⟩ := List.getElem?_eq_some_iff.mp hn
  refine ⟨ns.drop (f.leaf + 1), ?_, ?_⟩
  · rw [rest, h, Hierarchy.dropLeaves, List.drop_eq_getElem_cons hlt]
  · rw [rest, h, Hierarchy.dropLeaves]

theorem rest_of_leaves (h : f.entries.drop f.entry = .leaves ns others)
    (hn : ns[f.leaf]? = none) :
    f.rest = .leaves [] others ∧ { f with entry := f.entry + 1, leaf := 0 }.rest = others := by
  constructor
  · rw [rest, h, Hierarchy.dropLeaves, List.drop_eq_nil_of_le (List.getElem?_eq_none_iff.mp hn)]
  · rw [rest, Hierarchy.drop, h, Hierarchy.dropLeaves_zero, Hierarchy.tail]

theorem rest_of_node (h : f.entries.drop f.entry = .node key below others) :
    f.rest = .node key below { f with entry := f.entry + 1 }.rest := by
  rw [rest, rest, Hierarchy.drop, h, Hierarchy.dropLeaves, Hierarchy.tail]

end Frame

/-- A walk over the branches of a hierarchy. -/
structure Walk where
  /-- The levels that the walk is on, the innermost first. -/
  stack : List Frame
  /-- The nodes that lead to the innermost level. -/
  path : List NodeId
  deriving DecidableEq, Repr

namespace Walk

/-- The walk at the start of a hierarchy. -/
def start (t : Hierarchy) : Walk :=
  ⟨[.start t], []⟩

/-- The number of steps that the walk can still make. -/
def weight (w : Walk) : Nat :=
  w.stack.foldr (fun f n => f.rest.weight + n) 0

/-- What one step of a walk comes to. -/
inductive Step where
  | done
  | move (w : Walk)
  | visit (branch : List NodeId) (w : Walk)

/-- One step: leaving a level or a list of leaves that is used up, going below
a node, or visiting a leaf. -/
def step (w : Walk) : Step :=
  match w.stack with
  | [] => .done
  | f :: outer =>
    match f.entries.drop f.entry with
    | .empty => .move ⟨outer, if outer.isEmpty then w.path else w.path.dropLast⟩
    | .leaves ns _ =>
      match ns[f.leaf]? with
      | some n => .visit (w.path ++ [n]) ⟨{ f with leaf := f.leaf + 1 } :: outer, w.path⟩
      | none => .move ⟨{ f with entry := f.entry + 1, leaf := 0 } :: outer, w.path⟩
    | .node key below _ =>
      .move ⟨.start below :: { f with entry := f.entry + 1 } :: outer, w.path ++ [key]⟩

/-- What a step comes to is told by the entries that are still to be visited on the
innermost level, whatever the numbers are that the level keeps. -/
theorem step_cases (f : Frame) (outer : List Frame) (path : List NodeId) :
    match f.rest with
    | .empty =>
      step ⟨f :: outer, path⟩ = .move ⟨outer, if outer.isEmpty then path else path.dropLast⟩
    | .leaves [] others =>
      ∃ g, g.rest = others ∧ step ⟨f :: outer, path⟩ = .move ⟨g :: outer, path⟩
    | .leaves (n :: ns) others =>
      ∃ g, g.rest = .leaves ns others ∧
        step ⟨f :: outer, path⟩ = .visit (path ++ [n]) ⟨g :: outer, path⟩
    | .node key below others =>
      ∃ g, g.rest = others ∧
        step ⟨f :: outer, path⟩ = .move ⟨.start below :: g :: outer, path ++ [key]⟩ := by
  cases h : f.entries.drop f.entry with
  | empty =>
    rw [Frame.rest_of_empty h]
    simp only [step, h]
  | leaves ns others =>
    cases hn : ns[f.leaf]? with
    | some n =>
      obtain ⟨left, hrest, hnext⟩ := Frame.rest_of_visit h hn
      rw [hrest]
      exact ⟨_, hnext, by simp only [step, h, hn]⟩
    | none =>
      obtain ⟨hrest, hnext⟩ := Frame.rest_of_leaves h hn
      rw [hrest]
      exact ⟨_, hnext, by simp only [step, h, hn]⟩
  | node key below others =>
    rw [Frame.rest_of_node h]
    exact ⟨_, rfl, by simp only [step, h]⟩

/-- Every step uses up some of the entries. -/
theorem weight_of_step (w : Walk) :
    match w.step with
    | .done => True
    | .move w' => w'.weight < w.weight
    | .visit _ w' => w'.weight < w.weight := by
  match w with
  | ⟨[], _⟩ => trivial
  | ⟨f :: outer, path⟩ =>
    have h := step_cases f outer path
    match hrest : f.rest with
    | .empty =>
      rw [hrest] at h
      rw [h]
      simp [weight, hrest, Hierarchy.weight]
    | .leaves [] others =>
      obtain ⟨g, hg, h⟩ := hrest ▸ h
      rw [h]
      simp [weight, hrest, hg, Hierarchy.weight]
    | .leaves (n :: ns) others =>
      obtain ⟨g, hg, h⟩ := hrest ▸ h
      rw [h]
      simp [weight, hrest, hg, Hierarchy.weight]
    | .node key below others =>
      obtain ⟨g, hg, h⟩ := hrest ▸ h
      rw [h]
      simp [weight, hrest, hg, Hierarchy.weight]
      omega

theorem weight_of_move {w w' : Walk} (h : w.step = .move w') : w'.weight < w.weight := by
  simpa only [h] using weight_of_step w

theorem weight_of_visit {w w' : Walk} {b : List NodeId} (h : w.step = .visit b w') :
    w'.weight < w.weight := by
  simpa only [h] using weight_of_step w

/-- The next branch of a walk, if there is one left, and the walk after it. -/
def next (w : Walk) : Option (List NodeId) × Walk :=
  match _h : w.step with
  | .done => (none, w)
  | .move w' => w'.next
  | .visit branch w' => (some branch, w')
termination_by w.weight
decreasing_by exact weight_of_move ‹_›

theorem weight_of_next {w w' : Walk} {b : List NodeId} (h : w.next = (some b, w')) :
    w'.weight < w.weight := by
  rw [next] at h
  split at h
  · cases h
  · rename_i hstep
    exact Nat.lt_trans (weight_of_next h) (weight_of_move hstep)
  · rename_i hstep
    cases h
    exact weight_of_visit hstep
termination_by w.weight
decreasing_by exact weight_of_move ‹_›

/-- The branches that a walk still visits: the next one, as long as there is one. -/
def toList (w : Walk) : List (List NodeId) :=
  match _h : w.next with
  | (none, _) => []
  | (some branch, w') => branch :: w'.toList
termination_by w.weight
decreasing_by exact weight_of_next ‹_›

theorem toList_of_none {w w' : Walk} (h : w.next = (none, w')) : w.toList = [] := by
  rw [toList]
  split
  · rfl
  · rename_i hnext
    cases h.symm.trans hnext

theorem toList_of_some {w w' : Walk} {b : List NodeId} (h : w.next = (some b, w')) :
    w.toList = b :: w'.toList := by
  rw [toList]
  split
  · rename_i hnext
    cases h.symm.trans hnext
  · rename_i hnext
    cases h.symm.trans hnext
    rfl

end Walk

/-- The branches of a hierarchy, in the order of a walk. -/
def Hierarchy.branches (t : Hierarchy) : List (List NodeId) :=
  (Walk.start t).toList

end Gleaner
