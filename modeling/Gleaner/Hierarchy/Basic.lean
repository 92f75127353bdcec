import Gleaner.Document.Basic

/-!
# Hierarchies of nodes

A hierarchy is a list of entries in document order. An entry is either a list
of leaves or a node with the hierarchy below it. It is written by its first
entry and the entries after that one, so that a statement about hierarchies is
proved by following the entry downwards and onwards.

* `Hierarchy.keys`, `Hierarchy.below?`, `Hierarchy.leafList`: the nodes of the
  top level, the hierarchy below one of them and the first list of leaves;
* `Hierarchy.depth`: how deep entries are nested;
* `Hierarchy.nodes`: all nodes, in the order of the entries.
-/

namespace Gleaner

inductive Hierarchy where
  | empty
  /-- A list of leaves, and the entries after it. -/
  | leaves (nodes : List NodeId) (rest : Hierarchy)
  /-- A node with the entries below it, and the entries after it. -/
  | node (key : NodeId) (below rest : Hierarchy)
  deriving DecidableEq, Repr

namespace Hierarchy

def isEmpty : Hierarchy → Bool
  | empty => true
  | _ => false

/-- The number of entries on the top level. -/
def entryCount : Hierarchy → Nat
  | empty => 0
  | leaves _ rest => 1 + rest.entryCount
  | node _ _ rest => 1 + rest.entryCount

/-- The nodes on the top level that are no leaves. -/
def keys : Hierarchy → List NodeId
  | empty => []
  | leaves _ rest => rest.keys
  | node key _ rest => key :: rest.keys

/-- The hierarchy below a node of the top level. -/
def below? (key : NodeId) : Hierarchy → Option Hierarchy
  | empty => none
  | leaves _ rest => rest.below? key
  | node k below rest => if k = key then some below else rest.below? key

/-- The first list of leaves on the top level, and the empty list without one. -/
def leafList : Hierarchy → List NodeId
  | empty => []
  | leaves nodes _ => nodes
  | node _ _ rest => rest.leafList

/-- How deep entries are nested: one for a list of leaves, and one more than
the hierarchy below it for a node. -/
def depth : Hierarchy → Nat
  | empty => 0
  | leaves _ rest => max 1 rest.depth
  | node _ below rest => max (1 + below.depth) rest.depth

/-- All nodes, in the order of the entries and each before the ones below it. -/
def nodes : Hierarchy → List NodeId
  | empty => []
  | leaves ns rest => ns ++ rest.nodes
  | node key below rest => key :: (below.nodes ++ rest.nodes)

/-- Adds a node with the hierarchy below it, after all entries. -/
def addNode : Hierarchy → NodeId → Hierarchy → Hierarchy
  | empty, key, below => node key below empty
  | leaves ns rest, key, below => leaves ns (rest.addNode key below)
  | node k b rest, key, below => node k b (rest.addNode key below)

/-- Whether the top level has a list of leaves. -/
def hasLeaves : Hierarchy → Bool
  | empty => false
  | leaves .. => true
  | node _ _ rest => rest.hasLeaves

/-- Adds a leaf to the first list of leaves, wherever it stands. -/
def appendLeaf (leaf : NodeId) : Hierarchy → Hierarchy
  | empty => empty
  | leaves ns rest => leaves (ns ++ [leaf]) rest
  | node k b rest => node k b (rest.appendLeaf leaf)

/-- Adds a list of one leaf after all entries. -/
def addLeafList (leaf : NodeId) : Hierarchy → Hierarchy
  | empty => leaves [leaf] empty
  | leaves ns rest => leaves ns (rest.addLeafList leaf)
  | node k b rest => node k b (rest.addLeafList leaf)

/-- Adds a leaf: to the list of leaves if there is one, else as a new list
after all entries. -/
def addLeaf (leaf : NodeId) (t : Hierarchy) : Hierarchy :=
  if t.hasLeaves then t.appendLeaf leaf else t.addLeafList leaf

end Hierarchy

end Gleaner
