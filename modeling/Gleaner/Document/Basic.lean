import Gleaner.Document.Filter
import Gleaner.Text.Letter
import Gleaner.Text.Numeral

/-!
# Documents

A document is the list of its nodes in document order: each element stands
before its children, and the children before the next sibling. So the nodes
below a node are the ones that follow it up to its `stop`, and a query about
them reads a range of the list. Node 0 is the root, which holds all top-level
nodes and is no element of the source.

* `Document.text`: the text below a node;
* `Document.children`: the elements directly below a node;
* `Document.findAll`, `Document.findOne`: the elements below a node of a type
  and with attributes;
* `Document.following`: the elements after a node, up to the document's end.

An index outside the list names no node: it has no type, text, attributes or
children.
-/

namespace Gleaner

/-- A node, by its place in document order. -/
abbrev NodeId := Nat

/-- What a node is. -/
inductive NodeContent where
  /-- An element, with its type and attribute names in small letters. -/
  | element (type : String) (attributes : List (String × String))
  | text (s : String)
  deriving DecidableEq, Repr

structure Node where
  content : NodeContent
  /-- The nodes directly below, in order. -/
  children : List NodeId
  /-- The place after the last node below this one. -/
  stop : Nat
  deriving DecidableEq, Repr

/-- Whether the node is an element. -/
def Node.isElement (n : Node) : Bool :=
  match n.content with
  | .element .. => true
  | .text _ => false

/-- The text of a text node. -/
def Node.text? (n : Node) : Option String :=
  match n.content with
  | .element .. => none
  | .text s => some s

/-- The type of an element, and `#text` for a text node. -/
def Node.type (n : Node) : String :=
  match n.content with
  | .element type _ => type
  | .text _ => "#text"

/-- The value of an attribute, whose name is compared without case; of two
attributes of one name the first counts. -/
def Node.attribute? (n : Node) (name : String) : Option String :=
  match n.content with
  | .element _ attributes => (attributes.find? (Text.sameName ·.1 name)).map (·.2)
  | .text _ => none

structure Document where
  nodes : Array Node
  deriving DecidableEq, Repr

namespace Document

/-- The root of every document. -/
def root : NodeId := 0

/-- The number of nodes. -/
def size (d : Document) : Nat :=
  d.nodes.size

/-- The node of an index. -/
def node? (d : Document) (i : NodeId) : Option Node :=
  d.nodes[i]?

/-- Whether an index names an element. -/
def isElement (d : Document) (i : NodeId) : Bool :=
  (d.node? i).any Node.isElement

/-- The number of elements, with the root. -/
def elementCount (d : Document) : Nat :=
  (d.nodes.toList.filter Node.isElement).length

/-- The type of a node. -/
def nodeType (d : Document) (i : NodeId) : String :=
  ((d.node? i).map Node.type).getD ""

/-- The value of an attribute of a node. -/
def attribute? (d : Document) (i : NodeId) (name : String) : Option String :=
  (d.node? i).bind (·.attribute? name)

/-- The place after the last node below a node. -/
def stop (d : Document) (i : NodeId) : Nat :=
  ((d.node? i).map Node.stop).getD 0

/-- The places from `a` up to but without `b`. -/
def places (a b : Nat) : List NodeId :=
  List.range' a (b - a)

/-- The text of a node: its own if it is a text node, else the texts of all
text nodes below it, one after the other. -/
def text (d : Document) (i : NodeId) : String :=
  match (d.node? i).bind Node.text? with
  | some s => s
  | none => String.join ((places (i + 1) (d.stop i)).filterMap fun j => (d.node? j).bind Node.text?)

/-- The elements directly below a node. -/
def children (d : Document) (i : NodeId) : List NodeId :=
  (((d.node? i).map Node.children).getD []).filter d.isElement

/-- Whether a node has a type and passes a filter. -/
def isMatch (d : Document) (i : NodeId) (type : String) (filter : Filter) : Bool :=
  Text.sameName (d.nodeType i) type && filter.accepts (d.attribute? i)

/-- The elements below a node that have a type and pass a filter. -/
def findAll (d : Document) (scope : NodeId) (type : String) (filter : Filter) : List NodeId :=
  (places (scope + 1) (d.stop scope)).filter fun i => d.isElement i && d.isMatch i type filter

/-- The first element below a node that has a type and passes a filter. -/
def findOne (d : Document) (scope : NodeId) (type : String) (filter : Filter) : Option NodeId :=
  (d.findAll scope type filter).head?

/-- The elements after a node in document order: the ones below it and all
that follow them up to the end of the document. -/
def following (d : Document) (i : NodeId) : List NodeId :=
  (places (i + 1) d.size).filter d.isElement

/-- The name of a node in messages. -/
def nodeName (i : NodeId) : String :=
  "#" ++ Text.numeral i

theorem mem_places {a b i : Nat} : i ∈ places a b ↔ a ≤ i ∧ i < b := by
  simp only [places, List.mem_range'_1]
  omega

theorem isElement_of_mem_following {d : Document} {i j : NodeId} (h : j ∈ d.following i) :
    d.isElement j :=
  (List.mem_filter.1 h).2

theorem isElement_of_mem_findAll {d : Document} {scope i : NodeId} {type : String}
    {filter : Filter} (h : i ∈ d.findAll scope type filter) : d.isElement i := by
  have := (List.mem_filter.1 h).2
  simp only [Bool.and_eq_true] at this
  exact this.1

end Document

end Gleaner
