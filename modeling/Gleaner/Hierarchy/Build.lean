import Gleaner.Fault.Basic
import Gleaner.Hierarchy.Basic
import Gleaner.Hierarchy.Levels

/-!
# Building a hierarchy

The elements after a node, from a start marker up to an end marker, are folded
into a hierarchy one after the other. The nodes that can still receive further
nodes are the owners: an element of some level first closes all owners of the
same or a higher level, and then goes below the innermost owner left, or to
the top level. A leaf is added there; any other node becomes an owner itself.

* `Marker`: a type with a filter that marks the place of an element;
* `Document.slice`: the elements between two markers;
* `Owners.take`: the owners after one more element;
* `Hierarchy.build`: the hierarchy of the elements between two markers.
-/

namespace Gleaner

/-- A type and a filter. -/
structure Marker where
  type : String
  filter : Filter
  deriving DecidableEq, Repr

namespace Marker

/-- The marker as it stands in messages. -/
def text (m : Marker) : String :=
  "<" ++ m.type ++ "> " ++ m.filter.text

/-- The place of the first node from `start` on that matches. -/
def find (m : Marker) (d : Document) (nodes : List NodeId) (start : Nat) : Except Fault Nat :=
  match (nodes.drop start).findIdx? fun i => d.isMatch i m.type m.filter with
  | some offset => .ok (start + offset)
  | none => .error (.markerNotFound m.text)

end Marker

/-- The elements after a node from the first one that matches the start marker
up to but without the first one from there on that matches the end marker. -/
def Document.slice (d : Document) (root : NodeId) (start stop : Option Marker) :
    Except Fault (List NodeId) := do
  let nodes := d.following root
  let i ← match start with
    | some m => m.find d nodes 0
    | none => pure 0
  let j ← match stop with
    | some m => m.find d nodes i
    | none => pure nodes.length
  return (nodes.drop i).take (j - i)

/-- A node that can receive further nodes, with its level and what is below it
so far. -/
structure Owner where
  level : Nat
  key : NodeId
  below : Hierarchy
  deriving DecidableEq, Repr

/-- A hierarchy in the making. -/
structure Owners where
  /-- The closed part of the top level. -/
  top : Hierarchy
  /-- The owners, the innermost first. -/
  stack : List Owner
  deriving DecidableEq, Repr

namespace Owners

def empty : Owners :=
  ⟨.empty, []⟩

/-- Changes the innermost hierarchy. -/
def update (o : Owners) (f : Hierarchy → Hierarchy) : Owners :=
  match o.stack with
  | [] => { o with top := f o.top }
  | inner :: outer => { o with stack := { inner with below := f inner.below } :: outer }

/-- Closes the innermost owner: it becomes an entry of the hierarchy around it. -/
def close (o : Owners) : Owners :=
  match o.stack with
  | [] => o
  | inner :: outer => { o with stack := outer }.update (·.addNode inner.key inner.below)

/-- Closes the innermost owners, as many as are asked for. -/
def closeMany (o : Owners) : Nat → Owners
  | 0 => o
  | n + 1 => o.close.closeMany n

/-- Closes the owners that a node of a level cannot go below: the innermost
ones down to the first of a smaller level. -/
def settle (o : Owners) (level : Nat) : Owners :=
  o.closeMany (o.stack.takeWhile (level ≤ ·.level)).length

/-- The owners after one more node, with the level it has, if it has one. -/
def take (leafLevel : Nat) (o : Owners) (key : NodeId) (level : Option Nat) : Owners :=
  match level with
  | none => o
  | some level =>
    let o := o.settle level
    if level = leafLevel then o.update (·.addLeaf key)
    else { o with stack := ⟨level, key, .empty⟩ :: o.stack }

/-- The hierarchy, with all owners closed. -/
def finish (o : Owners) : Hierarchy :=
  (o.closeMany o.stack.length).top

end Owners

namespace Hierarchy

/-- The hierarchy of some nodes with their levels. -/
def ofNodes (leafLevel : Nat) (level : NodeId → Option Nat) (nodes : List NodeId) : Hierarchy :=
  (nodes.foldl (fun o i => o.take leafLevel i (level i)) Owners.empty).finish

/-- The hierarchy of the elements after a node, between two markers. -/
def build (d : Document) (root : NodeId) (start stop : Option Marker) (levels : Levels) :
    Except Fault Hierarchy := do
  let nodes ← d.slice root start stop
  return ofNodes levels.leafLevel (fun i => levels.levelOf? (d.nodeType i)) nodes

end Hierarchy

end Gleaner
