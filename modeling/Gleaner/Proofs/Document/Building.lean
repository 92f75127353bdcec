import Gleaner.Document.Builder
import Gleaner.Proofs.Document.Forest

/-!
# What a builder builds

The nodes that a builder has are those of a tree that is open on the right: an
open element has its children so far, the last of them being the next open
element, and no range yet. `OpenForest` is such a tree without places, read
from the innermost open element outwards. Each operation of the builder does to
the nodes what the operation of the same name does to the tree, so the document
in the end is the one of a forest, and tiled.

* `OpenForest.toBuilder`: the builder with the nodes of an open forest;
* `toBuilder_openElement`, `toBuilder_addText`, `toBuilder_close`,
  `toBuilder_closeTag`: one operation;
* `Builder.Operation`, `toBuilder_perform`: any operation;
* `toBuilder_finish`: the end of building;
* `Builder.wellFormed_build`: documents keep the rules, however they are built.
-/

namespace Gleaner

/-- An element that is not closed yet, with what stands before it in the
element around it. -/
structure OpenElement where
  type : String
  attributes : List (String × String)
  before : Forest
  deriving DecidableEq, Repr

/-- A forest some of whose elements are open. -/
structure OpenForest where
  /-- What is in the innermost open element so far, or on the top level when
  none is open. -/
  current : Forest
  /-- The open elements, the innermost first. -/
  opened : List OpenElement
  deriving DecidableEq, Repr

namespace OpenForest

/-! ## Operations on open forests -/

def empty : OpenForest := ⟨.empty, []⟩

def openElement (o : OpenForest) (type : String) (attributes : List (String × String)) :
    OpenForest :=
  ⟨.empty, ⟨Text.lower type, attributes.map fun (name, value) => (Text.lower name, value),
    o.current⟩ :: o.opened⟩

def addText (o : OpenForest) (s : String) : OpenForest :=
  { o with current := o.current.append (.text s .empty) }

def close (o : OpenForest) : OpenForest :=
  match o.opened with
  | [] => o
  | e :: rest => ⟨e.before.append (.element e.type e.attributes o.current .empty), rest⟩

def closeMany (o : OpenForest) : Nat → OpenForest
  | 0 => o
  | n + 1 => o.close.closeMany n

def closeTag (o : OpenForest) (type : String) : OpenForest :=
  if o.opened.any (Text.sameName ·.type type) then
    o.closeMany (o.opened.findIdx (Text.sameName ·.type type) + 1)
  else o

def element (o : OpenForest) (type : String) (attributes : List (String × String)) (s : String) :
    OpenForest :=
  let o := o.openElement type attributes
  (if s.isEmpty then o else o.addText s).close

/-- The forest, with all that is open closed. -/
def finish (o : OpenForest) : Forest :=
  (o.closeMany o.opened.length).current

/-! ## Places -/

/-- What the innermost open element is, or the root when none is open. -/
def content : List OpenElement → NodeContent
  | [] => .element "#document" []
  | e :: _ => .element e.type e.attributes

/-- The place of the innermost open element, or of the root. -/
def place : List OpenElement → Nat
  | [] => Document.root
  | e :: rest => place rest + 1 + e.before.size

/-- The places of the open elements. -/
def places : List OpenElement → List NodeId
  | [] => []
  | e :: rest => place (e :: rest) :: places rest

/-- The nodes before the innermost open element. -/
def around : List OpenElement → List Node
  | [] => []
  | e :: rest =>
    around rest ++
      ⟨content rest, e.before.roots (place rest + 1) ++ [place (e :: rest)], place rest + 1⟩ ::
        e.before.layout (place rest + 1)

/-- All nodes, if the innermost open element has some children and ends at
`stop`, and `below` is what stands behind it. -/
def nodes (opened : List OpenElement) (children : List NodeId) (stop : Nat) (below : List Node) :
    List Node :=
  around opened ++ ⟨content opened, children, stop⟩ :: below

/-- The builder that has the nodes of an open forest. -/
def toBuilder (o : OpenForest) : Builder where
  nodes := (nodes o.opened (o.current.roots (place o.opened + 1)) (place o.opened + 1)
    (o.current.layout (place o.opened + 1))).toArray
  opened := places o.opened

theorem length_around : ∀ opened : List OpenElement, (around opened).length = place opened
  | [] => rfl
  | e :: rest => by
    rw [around, List.length_append, List.length_cons, Forest.length_layout, length_around rest,
      place, Nat.add_assoc, Nat.add_comm 1]

theorem length_places : ∀ opened : List OpenElement, (places opened).length = opened.length
  | [] => rfl
  | _ :: rest => congrArg (· + 1) (length_places rest)

theorem parent_toBuilder (o : OpenForest) : o.toBuilder.parent = place o.opened := by
  obtain ⟨current, _ | ⟨e, rest⟩⟩ := o <;> rfl

theorem next_toBuilder (o : OpenForest) :
    o.toBuilder.next = place o.opened + 1 + o.current.size := by
  rw [Builder.next, toBuilder, List.size_toArray, nodes, List.length_append, List.length_cons,
    Forest.length_layout, length_around, Nat.add_assoc, Nat.add_comm 1]

theorem modify_length {α : Type} (f : α → α) (a : α) (bs : List α) :
    ∀ as : List α, (as ++ a :: bs).modify as.length f = as ++ f a :: bs
  | [] => rfl
  | c :: as => by
    rw [List.cons_append, List.length_cons, List.modify_succ_cons, modify_length f a bs as,
      List.cons_append]

theorem modify_children (f : List NodeId → List NodeId) (opened : List OpenElement)
    (children : List NodeId) (stop : Nat) (below : List Node) :
    (nodes opened children stop below).toArray.modify (place opened)
        (fun n => { n with children := f n.children }) =
      (nodes opened (f children) stop below).toArray := by
  rw [← Array.toList_inj, Array.toList_modify, ← length_around]
  exact modify_length _ _ _ _

theorem modify_stop (opened : List OpenElement) (children : List NodeId) (a b : Nat)
    (below : List Node) :
    (nodes opened children a below).toArray.modify (place opened)
        (fun n => { n with stop := b }) =
      (nodes opened children b below).toArray := by
  rw [← Array.toList_inj, Array.toList_modify, ← length_around]
  exact modify_length _ _ _ _

theorem push_nodes (opened : List OpenElement) (children : List NodeId) (stop : Nat)
    (below : List Node) (n : Node) :
    (nodes opened children stop below).toArray.push n =
      (nodes opened children stop (below ++ [n])).toArray := by
  rw [List.push_toArray, nodes, nodes, List.append_assoc, List.cons_append]

/-! ## One operation -/

/-- A node is added behind all others and becomes the last child of the
innermost open element. -/
theorem add_toBuilder (o : OpenForest) (c : NodeContent) :
    o.toBuilder.add c =
      ⟨(nodes o.opened
          (o.current.roots (place o.opened + 1) ++ [place o.opened + 1 + o.current.size])
          (place o.opened + 1)
          (o.current.layout (place o.opened + 1) ++
            [⟨c, [], place o.opened + 1 + o.current.size + 1⟩])).toArray,
        places o.opened⟩ := by
  rw [Builder.add, parent_toBuilder, next_toBuilder, toBuilder,
    modify_children (· ++ [place o.opened + 1 + o.current.size]), push_nodes]

theorem toBuilder_addText (o : OpenForest) (s : String) :
    o.toBuilder.addText s = (o.addText s).toBuilder := by
  rw [Builder.addText, add_toBuilder, toBuilder, addText, Forest.roots_append,
    Forest.layout_append, Forest.roots, Forest.roots, Forest.layout, Forest.layout]

theorem toBuilder_openElement (o : OpenForest) (type : String)
    (attributes : List (String × String)) :
    o.toBuilder.openElement type attributes = (o.openElement type attributes).toBuilder := by
  rw [Builder.openElement, add_toBuilder, next_toBuilder, toBuilder, openElement, nodes, nodes,
    ← List.cons_append, ← List.append_assoc]
  rfl

/-- Closing gives the innermost open element its range. It then stands closed
behind what was before it. -/
theorem toBuilder_close (o : OpenForest) : o.toBuilder.close = o.close.toBuilder := by
  obtain ⟨current, _ | ⟨e, rest⟩⟩ := o
  · rfl
  · have hsize : (toBuilder ⟨current, e :: rest⟩).nodes.size =
        place (e :: rest) + 1 + current.size := next_toBuilder _
    show (⟨(toBuilder ⟨current, e :: rest⟩).nodes.modify (place (e :: rest)) fun n =>
        { n with stop := (toBuilder ⟨current, e :: rest⟩).nodes.size }, places rest⟩ : Builder) = _
    rw [hsize, toBuilder, modify_stop, close, toBuilder, Forest.roots_append, Forest.layout_append]
    simp only [nodes, around, place, content, Forest.roots, Forest.layout, List.append_assoc,
      List.cons_append, List.append_nil]

theorem toBuilder_closeMany : ∀ (n : Nat) (o : OpenForest),
    o.toBuilder.closeMany n = (o.closeMany n).toBuilder
  | 0, _ => rfl
  | n + 1, o => by
    rw [Builder.closeMany, toBuilder_close, toBuilder_closeMany n, closeMany]

/-- The builder finds the type of each open element at its place. -/
theorem map_hasType_places (type : String) {b : Builder} :
    ∀ {opened : List OpenElement} {children : List NodeId} {stop : Nat} {below : List Node},
      b.nodes.toList = nodes opened children stop below →
        (places opened).map (b.hasType type) = opened.map (Text.sameName ·.type type)
  | [], _, _, _, _ => rfl
  | e :: rest, children, stop, below, h => by
    have hnode : b.nodes[place (e :: rest)]? = some ⟨content (e :: rest), children, stop⟩ := by
      rw [← length_around]
      exact Document.node?_length (d := ⟨b.nodes⟩) h
    have hrest : (places rest).map (b.hasType type) = rest.map (Text.sameName ·.type type) := by
      rw [nodes, around, List.append_assoc, List.cons_append] at h
      exact map_hasType_places type h
    rw [places, List.map_cons, List.map_cons, hrest, Builder.hasType, hnode]
    rfl

theorem toBuilder_closeTag (o : OpenForest) (type : String) :
    o.toBuilder.closeTag type = (o.closeTag type).toBuilder := by
  have hmap : o.toBuilder.opened.map (o.toBuilder.hasType type) =
      o.opened.map (Text.sameName ·.type type) := map_hasType_places type rfl
  have hopen : o.toBuilder.isOpen type = o.opened.any (Text.sameName ·.type type) := by
    have := congrArg (List.any · id) hmap
    rw [List.any_map, List.any_map] at this
    exact this
  have hidx : o.toBuilder.opened.findIdx (o.toBuilder.hasType type) =
      o.opened.findIdx (Text.sameName ·.type type) := by
    have := congrArg (List.findIdx id) hmap
    rw [List.findIdx_map, List.findIdx_map] at this
    exact this
  rw [Builder.closeTag, closeTag, hopen, hidx, toBuilder_closeMany]
  split <;> rfl

theorem toBuilder_element (o : OpenForest) (type : String) (attributes : List (String × String))
    (s : String) :
    o.toBuilder.element type attributes s = (o.element type attributes s).toBuilder := by
  rw [Builder.element, element, toBuilder_openElement]
  split
  · exact toBuilder_close _
  · rw [toBuilder_addText, toBuilder_close]

theorem opened_closeMany : ∀ (n : Nat) (o : OpenForest),
    (o.closeMany n).opened = o.opened.drop n
  | 0, _ => rfl
  | n + 1, ⟨_, []⟩ => by
    rw [closeMany, opened_closeMany n, close, List.drop_nil, List.drop_nil]
  | n + 1, ⟨_, e :: rest⟩ => by
    rw [closeMany, opened_closeMany n, close, List.drop_succ_cons]

/-- In the end the root gets its range as well. -/
theorem toBuilder_finish (o : OpenForest) :
    o.toBuilder.finish = Document.ofForest o.finish := by
  have hopened : (o.closeMany o.opened.length).opened = [] := by
    rw [opened_closeMany, List.drop_length]
  have hdepth : o.toBuilder.openDepth = o.opened.length := length_places _
  rw [Builder.finish, hdepth, toBuilder_closeMany, finish]
  generalize o.closeMany o.opened.length = c at hopened ⊢
  have hsize : c.toBuilder.nodes.size = place [] + 1 + c.current.size := by
    rw [← hopened]
    exact next_toBuilder c
  rw [hsize, toBuilder, hopened, show Document.root = place [] from rfl, modify_stop,
    Document.ofForest, Forest.layout, Forest.layout, List.append_nil]
  rfl

end OpenForest

/-! ## Any operations -/

namespace Builder

/-- What can be asked of a builder. -/
inductive Operation where
  | openElement (type : String) (attributes : List (String × String))
  | addText (s : String)
  | element (type : String) (attributes : List (String × String)) (s : String)
  | close
  | closeTag (type : String)
  deriving DecidableEq, Repr

/-- The builder after one more operation. -/
def perform (b : Builder) : Operation → Builder
  | .openElement type attributes => b.openElement type attributes
  | .addText s => b.addText s
  | .element type attributes s => b.element type attributes s
  | .close => b.close
  | .closeTag type => b.closeTag type

/-- The document of some operations, from the empty builder on. -/
def build (operations : List Operation) : Document :=
  (operations.foldl perform empty).finish

end Builder

namespace OpenForest

/-- The open forest after one more operation. -/
def perform (o : OpenForest) : Builder.Operation → OpenForest
  | .openElement type attributes => o.openElement type attributes
  | .addText s => o.addText s
  | .element type attributes s => o.element type attributes s
  | .close => o.close
  | .closeTag type => o.closeTag type

theorem toBuilder_perform (o : OpenForest) (operation : Builder.Operation) :
    o.toBuilder.perform operation = (o.perform operation).toBuilder := by
  cases operation with
  | openElement type attributes => exact o.toBuilder_openElement type attributes
  | addText s => exact o.toBuilder_addText s
  | element type attributes s => exact o.toBuilder_element type attributes s
  | close => exact o.toBuilder_close
  | closeTag type => exact o.toBuilder_closeTag type

theorem toBuilder_foldl (operations : List Builder.Operation) (o : OpenForest) :
    operations.foldl Builder.perform o.toBuilder = (operations.foldl perform o).toBuilder := by
  induction operations generalizing o with
  | nil => rfl
  | cons operation operations ih =>
    rw [List.foldl_cons, List.foldl_cons, toBuilder_perform, ih]

end OpenForest

namespace Builder

/-- The document of any operations is the one of the forest that the same
operations give. -/
theorem build_eq_ofForest (operations : List Operation) :
    build operations =
      Document.ofForest (operations.foldl OpenForest.perform OpenForest.empty).finish := by
  have hempty : empty = OpenForest.empty.toBuilder := rfl
  rw [build, hempty, OpenForest.toBuilder_foldl, OpenForest.toBuilder_finish]

/-- Closing the list closes its item; there is no paragraph to close. -/
example :
    build [.openElement "UL" [], .openElement "li" [], .addText "a", .closeTag "ul",
        .closeTag "p", .close, .addText "b"] =
      Document.ofForest (.element "ul" [] (.element "li" [] (.text "a" .empty) .empty)
        (.text "b" .empty)) := by
  decide

/-- Documents keep the rules, whatever the operations are: elements may stay
open in the end, and what is closed need not be open. -/
theorem wellFormed_build (operations : List Operation) : (build operations).WellFormed := by
  rw [build_eq_ofForest]
  exact (Document.tiled_ofForest _).wellFormed

end Builder

end Gleaner
