import Gleaner.Proofs.Hierarchy.Owners

/-!
# Building by descent

A hierarchy can be built without owners that are held on a stack: a call takes the
nodes that belong below one owner, and for each of them that is no leaf another call
takes the nodes that belong below that one. All calls take their nodes from the same
list. A call ends at the end of the list or before the first node whose level is not
below that of its owner, and leaves this node to the calls around it. The owners on
the stack are those of the calls that are open.

* `Hierarchy.descend`: one call, with the nodes that it leaves and the number of calls
  inside it that are open at the same time;
* `Hierarchy.Descends`, `Hierarchy.descends_descend`: what a call does with its first
  node, case by case;
* `Descends.stops`, `Descends.rest_eq_nil`: where a call ends;
* `Descends.finish_takeAll`: a call does to the innermost hierarchy what the owners do to
  it, node by node;
* `Hierarchy.tree_descend`: the outermost call gives the hierarchy of the nodes.
-/

namespace Gleaner

/-! ## Owners and the innermost hierarchy -/

namespace Owners

/-- The hierarchy that the next node below the innermost owner goes to. -/
def inner (o : Owners) : Hierarchy :=
  match o.stack with
  | [] => o.top
  | w :: _ => w.below

/-- The level of the innermost owner. -/
def innerLevel? (o : Owners) : Option Nat :=
  o.stack.head?.map Owner.level

@[simp] theorem inner_update (o : Owners) (f : Hierarchy → Hierarchy) :
    (o.update f).inner = f o.inner := by
  obtain ⟨top, _ | ⟨w, outer⟩⟩ := o <;> rfl

@[simp] theorem innerLevel?_update (o : Owners) (f : Hierarchy → Hierarchy) :
    (o.update f).innerLevel? = o.innerLevel? := by
  obtain ⟨top, _ | ⟨w, outer⟩⟩ := o <;> rfl

@[simp] theorem update_update (o : Owners) (f g : Hierarchy → Hierarchy) :
    (o.update f).update g = o.update fun t => g (f t) := by
  obtain ⟨top, _ | ⟨w, outer⟩⟩ := o <;> rfl

theorem update_inner (o : Owners) : (o.update fun _ => o.inner) = o := by
  obtain ⟨top, _ | ⟨w, outer⟩⟩ := o <;> rfl

/-- A node below the innermost owner closes none. -/
theorem settle_of_below {o : Owners} {l : Nat} (h : ¬o.innerLevel?.any (l ≤ ·)) :
    o.settle l = o := by
  obtain ⟨top, _ | ⟨w, outer⟩⟩ := o
  · rfl
  · refine settle_of_lt ?_
    show w.level < l
    have hw : ¬(decide (l ≤ w.level) = true) := h
    simpa using hw

/-- In the end an owner is closed in any case. -/
theorem finish_close (top : Hierarchy) (w : Owner) (outer : List Owner) :
    (close ⟨top, w :: outer⟩).finish = finish ⟨top, w :: outer⟩ := by
  rw [finish, length_stack_close]
  rfl

/-- A node that is not below an owner closes it. -/
theorem take_close {top : Hierarchy} {w : Owner} {outer : List Owner} {l : Nat}
    (h : l ≤ w.level) (leafLevel : Nat) (key : NodeId) :
    (close ⟨top, w :: outer⟩).take leafLevel key (some l) =
      take leafLevel ⟨top, w :: outer⟩ key (some l) := by
  rw [take, take, ← settle_of_le h]

/-- The owners after some more nodes. -/
def takeAll (leafLevel : Nat) (level : NodeId → Option Nat) (o : Owners) (nodes : List NodeId) :
    Owners :=
  nodes.foldl (fun o n => o.take leafLevel n (level n)) o

theorem takeAll_cons (leafLevel : Nat) (level : NodeId → Option Nat) (o : Owners) (n : NodeId)
    (nodes : List NodeId) : o.takeAll leafLevel level (n :: nodes) =
      (o.take leafLevel n (level n)).takeAll leafLevel level nodes := rfl

/-- An owner that the next node is not below may as well be closed before it. -/
theorem finish_takeAll_close {leafLevel : Nat} {level : NodeId → Option Nat} {top : Hierarchy}
    {w : Owner} {outer : List Owner} {nodes : List NodeId}
    (h : ∀ n ∈ nodes.head?, ∃ l, level n = some l ∧ l ≤ w.level) :
    (takeAll leafLevel level ⟨top, w :: outer⟩ nodes).finish =
      ((close ⟨top, w :: outer⟩).takeAll leafLevel level nodes).finish := by
  cases nodes with
  | nil => exact (finish_close top w outer).symm
  | cons n nodes =>
    obtain ⟨l, hl, hle⟩ := h n rfl
    rw [takeAll_cons, takeAll_cons, hl, take_close hle]

end Owners

namespace Hierarchy

/-! ## Calls -/

/-- What a call comes to. -/
structure Descent where
  tree : Hierarchy
  /-- The nodes that are not taken. -/
  rest : List NodeId
  /-- The most calls inside this one that are open at the same time. -/
  nesting : Nat
  deriving DecidableEq, Repr

/-- A call that is to put nodes below an owner of a level, or on the top level, when
`t` is what stands there so far. It leaves no more nodes than it finds, which lets the
call around it go on from there. -/
def descend (leafLevel : Nat) (level : NodeId → Option Nat) :
    Option Nat → Hierarchy → (nodes : List NodeId) → { c : Descent // c.rest.length ≤ nodes.length }
  | _, t, [] => ⟨⟨t, [], 0⟩, Nat.le_refl _⟩
  | owner, t, n :: nodes =>
    match _h : level n with
    | none =>
      let c := descend leafLevel level owner t nodes
      ⟨c, Nat.le_succ_of_le c.2⟩
    | some l =>
      if owner.any (l ≤ ·) then ⟨⟨t, n :: nodes, 0⟩, Nat.le_refl _⟩
      else if l = leafLevel then
        let c := descend leafLevel level owner (t.addLeaf n) nodes
        ⟨c, Nat.le_succ_of_le c.2⟩
      else
        let inner := descend leafLevel level (some l) empty nodes
        let c := descend leafLevel level owner (t.addNode n inner.1.tree) inner.1.rest
        ⟨{ c.1 with nesting := max (inner.1.nesting + 1) c.1.nesting },
          Nat.le_succ_of_le (Nat.le_trans c.2 inner.2)⟩
termination_by _ _ nodes => nodes.length
decreasing_by
  · exact Nat.lt_succ_self _
  · exact Nat.lt_succ_self _
  · exact Nat.lt_succ_self _
  · exact Nat.lt_succ_of_le inner.2

/-- What calls do: the rules of `descend`, with the calls inside a call as premises. -/
inductive Descends (leafLevel : Nat) (level : NodeId → Option Nat) :
    Option Nat → Hierarchy → List NodeId → Descent → Prop where
  | done {owner : Option Nat} {t : Hierarchy} : Descends leafLevel level owner t [] ⟨t, [], 0⟩
  | skip {owner : Option Nat} {t : Hierarchy} {n : NodeId} {nodes : List NodeId} {c : Descent} :
    level n = none → Descends leafLevel level owner t nodes c →
      Descends leafLevel level owner t (n :: nodes) c
  | leave {owner : Option Nat} {t : Hierarchy} {n : NodeId} {nodes : List NodeId} {l : Nat} :
    level n = some l → owner.any (l ≤ ·) →
      Descends leafLevel level owner t (n :: nodes) ⟨t, n :: nodes, 0⟩
  | leaf {owner : Option Nat} {t : Hierarchy} {n : NodeId} {nodes : List NodeId} {c : Descent} :
    level n = some leafLevel → ¬owner.any (leafLevel ≤ ·) →
    Descends leafLevel level owner (t.addLeaf n) nodes c →
      Descends leafLevel level owner t (n :: nodes) c
  | key {owner : Option Nat} {t : Hierarchy} {n : NodeId} {nodes : List NodeId} {l : Nat}
      {inner c : Descent} :
    level n = some l → ¬owner.any (l ≤ ·) → l ≠ leafLevel →
    Descends leafLevel level (some l) empty nodes inner →
    Descends leafLevel level owner (t.addNode n inner.tree) inner.rest c →
      Descends leafLevel level owner t (n :: nodes)
        ⟨c.tree, c.rest, max (inner.nesting + 1) c.nesting⟩

variable {leafLevel : Nat} {level : NodeId → Option Nat}

theorem descends_descend (owner : Option Nat) (t : Hierarchy) (nodes : List NodeId) :
    Descends leafLevel level owner t nodes (descend leafLevel level owner t nodes).1 := by
  fun_induction descend leafLevel level owner t nodes with
  | case1 => exact .done
  | case2 _ _ _ _ hl _ ih => exact .skip hl ih
  | case3 _ _ _ _ _ hl howner => exact .leave hl howner
  | case4 _ _ _ _ _ hl howner ih => exact .leaf hl howner ih
  | case5 _ _ _ _ _ hl howner hne _ _ ihInner ih => exact .key hl howner hne ihInner ih

namespace Descends

variable {owner : Option Nat} {t : Hierarchy} {nodes : List NodeId} {c : Descent}

/-- A call ends at the end of the list or before a node that is not below its owner. -/
theorem stops (h : Descends leafLevel level owner t nodes c) :
    ∀ n ∈ c.rest.head?, ∃ l, level n = some l ∧ owner.any (l ≤ ·) := by
  induction h with
  | done => nofun
  | skip _ _ ih => exact ih
  | leave hl howner =>
    intro m hm
    cases hm
    exact ⟨_, hl, howner⟩
  | leaf _ _ _ ih => exact ih
  | key _ _ _ _ _ _ ih => exact ih

/-- The outermost call leaves no node. -/
theorem rest_eq_nil (h : Descends leafLevel level none t nodes c) : c.rest = [] := by
  cases hrest : c.rest with
  | nil => rfl
  | cons n rest =>
    obtain ⟨l, -, howner⟩ := h.stops n (by rw [hrest]; rfl)
    cases howner

end Descends

/-! ## Calls and owners -/

/-- What the owners come to with some nodes is what they come to with those that a call
leaves, once the innermost hierarchy is the one of the call. -/
theorem Descends.finish_takeAll {owner : Option Nat} {t : Hierarchy} {nodes : List NodeId}
    {c : Descent} (h : Descends leafLevel level owner t nodes c) {o : Owners}
    (howner : o.innerLevel? = owner) (ht : o.inner = t) :
    (o.takeAll leafLevel level nodes).finish =
      ((o.update fun _ => c.tree).takeAll leafLevel level c.rest).finish := by
  induction h generalizing o with
  | done =>
    subst ht
    rw [Owners.update_inner]
  | skip hl _ ih => rw [Owners.takeAll_cons, hl, Owners.take_none, ih howner ht]
  | leave =>
    subst ht
    rw [Owners.update_inner]
  | @leaf _ _ n _ _ hl hbelow _ ih =>
    subst ht howner
    have htake : o.take leafLevel n (some leafLevel) = o.update (·.addLeaf n) := by
      rw [Owners.take_leaf, Owners.settle_of_below hbelow]
    rw [Owners.takeAll_cons, hl, htake, ih (o.innerLevel?_update _) (o.inner_update _),
      Owners.update_update]
  | @key _ _ n nodes l inner _ hl hbelow hne hinner _ ihInner ih =>
    subst ht howner
    have htake : o.take leafLevel n (some l) = ⟨o.top, ⟨l, n, empty⟩ :: o.stack⟩ := by
      rw [Owners.take_key hne, Owners.settle_of_below hbelow]
    -- The call inside stops at the end, or before a node that closes its owner.
    have hstops : ∀ m ∈ inner.rest.head?, ∃ l', level m = some l' ∧ l' ≤ l := fun m hm => by
      obtain ⟨l', hl', hle⟩ := hinner.stops m hm
      exact ⟨l', hl', of_decide_eq_true hle⟩
    have hclose : (Owners.mk o.top (⟨l, n, inner.tree⟩ :: o.stack)).close =
        o.update (·.addNode n inner.tree) := rfl
    calc (o.takeAll leafLevel level (n :: nodes)).finish
        = (Owners.takeAll leafLevel level ⟨o.top, ⟨l, n, empty⟩ :: o.stack⟩ nodes).finish := by
          rw [Owners.takeAll_cons, hl, htake]
      _ = (Owners.takeAll leafLevel level ⟨o.top, ⟨l, n, inner.tree⟩ :: o.stack⟩
            inner.rest).finish := ihInner rfl rfl
      _ = ((o.update (·.addNode n inner.tree)).takeAll leafLevel level inner.rest).finish := by
          rw [Owners.finish_takeAll_close hstops, hclose]
      _ = _ := by
          rw [ih (o.innerLevel?_update _) (o.inner_update _), Owners.update_update]

/-- The outermost call gives the hierarchy of the nodes. -/
theorem tree_descend (nodes : List NodeId) :
    (descend leafLevel level none empty nodes).1.tree = ofNodes leafLevel level nodes := by
  have h : Descends leafLevel level none empty nodes _ := descends_descend none empty nodes
  have howner : Owners.empty.innerLevel? = none := rfl
  have hfinish := h.finish_takeAll howner rfl
  rw [h.rest_eq_nil] at hfinish
  exact hfinish.symm

end Hierarchy

end Gleaner
