import Gleaner.Document.Basic

/-!
# Building documents

A document is built in document order. The builder knows the elements that
are still open; each new node becomes the last child of the innermost one, or
of the root when none is open. A node's `stop` is right once the node is
closed: until then it is the place after the node itself.

* `Builder.openElement`, `Builder.addText`, `Builder.element`: add a node;
* `Builder.close`: closes the innermost open element;
* `Builder.closeTag`: closes the innermost open element of a type and all
  elements inside it;
* `Builder.finish`: closes everything and gives the document.
-/

namespace Gleaner

structure Builder where
  nodes : Array Node
  /-- The open elements, the innermost first. The root is open throughout and
  not among them. -/
  opened : List NodeId
  deriving DecidableEq, Repr

namespace Builder

/-- The builder of a document with nothing but its root. -/
def empty : Builder :=
  ⟨#[⟨.element "#document" [], [], 1⟩], []⟩

/-- The element that the next node goes into. -/
def parent (b : Builder) : NodeId :=
  b.opened.headD Document.root

/-- The place of the next node. -/
def next (b : Builder) : NodeId :=
  b.nodes.size

/-- The number of open elements. -/
def openDepth (b : Builder) : Nat :=
  b.opened.length

/-- Adds a node as the last child of the innermost open element. -/
def add (b : Builder) (content : NodeContent) : Builder :=
  { b with
    nodes := (b.nodes.modify b.parent fun n => { n with children := n.children ++ [b.next] }).push
      ⟨content, [], b.next + 1⟩ }

/-- Adds an element and leaves it open. -/
def openElement (b : Builder) (type : String) (attributes : List (String × String)) : Builder :=
  let content :=
    .element (Text.lower type) (attributes.map fun (name, value) => (Text.lower name, value))
  { b.add content with opened := b.next :: b.opened }

/-- Adds a text node. -/
def addText (b : Builder) (s : String) : Builder :=
  b.add (.text s)

/-- Closes the innermost open element, if there is one: it ends with the last
node so far. -/
def close (b : Builder) : Builder :=
  match b.opened with
  | [] => b
  | i :: rest => ⟨b.nodes.modify i fun n => { n with stop := b.nodes.size }, rest⟩

/-- Closes the innermost open elements, as many as are asked for. -/
def closeMany (b : Builder) : Nat → Builder
  | 0 => b
  | n + 1 => b.close.closeMany n

/-- Adds an element that holds a text, or nothing if the text is empty. -/
def element (b : Builder) (type : String) (attributes : List (String × String)) (s : String) :
    Builder :=
  let b := b.openElement type attributes
  (if s.isEmpty then b else b.addText s).close

/-- Whether the element at a place has a type. -/
def hasType (b : Builder) (type : String) (i : NodeId) : Bool :=
  (b.nodes[i]?).any fun n => n.isElement && Text.sameName n.type type

/-- Whether an element of a type is open. -/
def isOpen (b : Builder) (type : String) : Bool :=
  b.opened.any (b.hasType type)

/-- Closes the innermost open element of a type and all elements inside it, or
nothing if no element of the type is open. -/
def closeTag (b : Builder) (type : String) : Builder :=
  if b.isOpen type then b.closeMany (b.opened.findIdx (b.hasType type) + 1) else b

/-- The document, with all that is open closed. -/
def finish (b : Builder) : Document :=
  let nodes := (b.closeMany b.openDepth).nodes
  ⟨nodes.modify Document.root fun n => { n with stop := nodes.size }⟩

end Builder

end Gleaner
