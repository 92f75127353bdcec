import Gleaner.Hierarchy.Render
import Gleaner.Proofs.Hierarchy.Preorder

/-!
# Reading a rendered hierarchy

The JSON form of a hierarchy keeps the leaves and the children of each level in
two lists of their own, and only the first list of leaves. Read in the order of
`Json.captions`, an object's own text first, then its leaves, then its children,
it shows each node of the hierarchy once and in document order: in a hierarchy
that was built, the leaves of a level stand in one list before the other nodes.

* `Json.Caption`, `Json.captions`: what an object shows, with the types of nodes
  that are no leaves;
* `Hierarchy.Graded.captions_toJson`: a graded hierarchy shows its nodes in order;
* `Hierarchy.build_captions`: the statement for hierarchies that are built.
-/

namespace Gleaner

namespace Json

/-- The text of a node, with its type if the node is no leaf. -/
structure Caption where
  type : Option String
  text : String
  deriving DecidableEq, Repr

/-- The string that a value is, if it is one. -/
def text? : Json → Option String
  | text s => some s
  | _ => none

/-- The caption of an object itself, if it has a text. -/
def ownCaption? (j : Json) : Option Caption :=
  ((j.field? "text").bind text?).map (⟨(j.field? "type").bind text?, ·⟩)

/-- The captions of the strings of the leaf array of an object. -/
def leafCaptions (j : Json) : List Caption :=
  (((j.field? "leaf").map items).getD []).filterMap fun item => item.text?.map (⟨none, ·⟩)

mutual

/-- What an object shows: itself, then its leaves, then its children. -/
def captions : Json → List Caption
  | record fields =>
    (record fields).ownCaption?.toList ++ (record fields).leafCaptions ++ childCaptions fields
  | _ => []

/-- What the children show that are found in some fields. -/
def childCaptions : List (String × Json) → List Caption
  | [] => []
  | (name, j) :: rest => if name = "children" then itemCaptions j else childCaptions rest

/-- What the items of an array show. -/
def itemCaptions : Json → List Caption
  | list items => listCaptions items
  | _ => []

/-- What some objects show, one after the other. -/
def listCaptions : List Json → List Caption
  | [] => []
  | j :: rest => j.captions ++ listCaptions rest

end

end Json

namespace Hierarchy

open Json

variable {d : Document} {rank : NodeId → Nat} {leafRank : Nat}

/-- The caption of a node in a hierarchy whose leaves have a rank. -/
def caption (d : Document) (rank : NodeId → Nat) (leafRank : Nat) (n : NodeId) : Caption :=
  ⟨if rank n = leafRank then none else some (d.nodeType n), label d n⟩

/-- The captions of leaves. -/
def leafCaptions (d : Document) (ns : List NodeId) : List Caption :=
  ns.map fun n => ⟨none, label d n⟩

theorem leafCaptions_toJson (d : Document) (t : Hierarchy) :
    (t.toJson d).leafCaptions = leafCaptions d t.leafList := by
  show ((t.leafList.map (label d)).map text).filterMap
    (fun item => item.text?.map (Caption.mk none)) = _
  rw [List.map_map, List.filterMap_map]
  exact congrFun (List.filterMap_eq_map (f := fun n => Caption.mk none (label d n))) t.leafList

/-- A hierarchy shows the leaves of its top level and then its children. -/
theorem captions_toJson (d : Document) (t : Hierarchy) :
    (t.toJson d).captions = leafCaptions d t.leafList ++ listCaptions (t.childRecords d) := by
  rw [← leafCaptions_toJson]
  rfl

/-- The first child shows itself and then what is below it. -/
theorem listCaptions_node (d : Document) (key : NodeId) (below rest : Hierarchy) :
    listCaptions ((node key below rest).childRecords d) =
      ⟨some (d.nodeType key), label d key⟩ ::
        ((below.toJson d).captions ++ listCaptions (rest.childRecords d)) := rfl

theorem leafList_eq_nil : ∀ {t : Hierarchy}, t.hasLeaves = false → t.leafList = []
  | empty, _ => rfl
  | node _ _ rest, h => leafList_eq_nil (t := rest) h

/-- Without leaves on its top level a hierarchy shows its children only. -/
theorem listCaptions_of_hasLeaves {t : Hierarchy} (h : t.hasLeaves = false) :
    listCaptions (t.childRecords d) = (t.toJson d).captions := by
  rw [captions_toJson, leafList_eq_nil h]
  rfl

theorem leafCaptions_eq {ns : List NodeId} (h : ∀ n ∈ ns, rank n = leafRank) :
    leafCaptions d ns = ns.map (caption d rank leafRank) :=
  List.map_congr_left fun n hn => by rw [caption, if_pos (h n hn)]

/-- A graded hierarchy shows its nodes in order: only the first list of leaves is
shown, but there is no other one, and no node stands before it. -/
theorem Graded.captions_toJson {t : Hierarchy} (h : t.Graded rank leafRank) :
    (t.toJson d).captions = t.nodes.map (caption d rank leafRank) := by
  induction t with
  | empty => rfl
  | leaves ns rest ih =>
    obtain ⟨-, hns, hrest, hgraded⟩ := h
    rw [Hierarchy.captions_toJson, nodes, List.map_append, ← ih hgraded,
      ← listCaptions_of_hasLeaves hrest, ← leafCaptions_eq hns]
    rfl
  | node key below rest ihBelow ihRest =>
    obtain ⟨hkey, -, htops, hbelow, hrest⟩ := h
    -- The leaves would have to come after a node of a smaller rank.
    have hnone : rest.hasLeaves = false := hrest.hasLeaves_eq_false hkey htops
    have hcaption : caption d rank leafRank key = ⟨some (d.nodeType key), label d key⟩ := by
      rw [caption, if_neg (Nat.ne_of_lt hkey)]
    have hchildren : listCaptions ((node key below rest).childRecords d) =
        ((node key below rest).toJson d).captions := listCaptions_of_hasLeaves hnone
    rw [← hchildren, listCaptions_node, ihBelow hbelow, listCaptions_of_hasLeaves hnone,
      ihRest hrest, nodes, List.map_cons, List.map_append, hcaption]

/-- The JSON form of a hierarchy that is built shows the nodes of the slice that
have a level, each once and in document order, by their texts in normal form. With
the nodes that are no leaves it shows their types. -/
theorem build_captions {root : NodeId} {start stop : Option Marker} {levels : Levels}
    {t : Hierarchy} (h : build d root start stop levels = .ok t) :
    ∃ slice found, d.slice root start stop = .ok slice ∧
      found = (slice.filter fun n => (levels.levelIn? d n).isSome) ∧
      found.Pairwise (· < ·) ∧
      (t.toJson d).captions.map (·.text) = found.map (fun n => Text.normalize (d.text n)) ∧
      (t.toJson d).captions.map (·.type) = found.map fun n =>
        if levels.levelIn? d n = some levels.leafLevel then none else some (d.nodeType n) := by
  obtain ⟨slice, hslice, ha⟩ := arranges_build h
  have hcaptions := ha.graded.captions_toJson (d := d)
  refine ⟨slice, t.nodes, hslice, ha.nodes_eq, ha.pairwise_nodes, ?_, ?_⟩
  · rw [hcaptions, List.map_map]
    rfl
  · rw [hcaptions, List.map_map]
    refine List.map_congr_left fun n hn => ?_
    rw [ha.level_eq hn, Function.comp_apply, caption]
    simp only [Option.some.injEq]

/-- A page with two sections, the second of which has a table before its first
heading of the next level. -/
def catalogPage : Document :=
  ([("h2", " Compute\n units "), ("table", "A"), ("p", "note"), ("h2", "Storage"), ("table", "B"),
    ("h3", "Cold"), ("table", "C")].foldl
      (fun b element => b.element element.1 [] element.2) Builder.empty).finish

def catalogLevels : Levels :=
  .ofPath "h2.h3.table"

/-- The hierarchy of the page. -/
def catalog : Hierarchy :=
  node 1 (leaves [3] empty) (node 7 (leaves [9] (node 11 (leaves [13] empty) empty)) empty)

/-- The note has no level and is left out, and the text of the first heading is in
normal form. -/
theorem build_captions_catalog :
    build catalogPage Document.root none none catalogLevels = .ok catalog ∧
      (catalog.toJson catalogPage).captions.map (·.text) =
        ["Compute units", "A", "Storage", "B", "Cold", "C"] ∧
      (catalog.toJson catalogPage).captions.map (·.type) =
        [some "h2", none, some "h2", none, some "h3", none] := by
  have hbuild : build catalogPage Document.root none none catalogLevels = .ok catalog := by
    decide +kernel
  obtain ⟨slice, found, hslice, hfound, -, htexts, htypes⟩ := build_captions hbuild
  have hall : catalogPage.slice Document.root none none = .ok [1, 3, 5, 7, 9, 11, 13] := by
    decide +kernel
  cases hslice.symm.trans hall
  rw [htexts, htypes, hfound]
  refine ⟨hbuild, ?_, ?_⟩ <;> decide +kernel

end Hierarchy

end Gleaner
