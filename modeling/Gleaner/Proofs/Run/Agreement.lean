import Gleaner.Proofs.Run.Elements

/-!
# Documents that agree

Two documents agree if the second gives the same answers about the elements of
the first one, whatever it says of any other index (`Document.Agrees`). Each
function that reads a document gives the same on both, as long as the nodes in
its arguments are elements: the functions ask about elements only.
-/

namespace Gleaner

variable {d d' : Document}

/-- Two continuations of a step need to agree on its result only. -/
theorem bind_congr_ok {α β : Type} {r : Except Fault α} {k k' : α → Except Fault β}
    (h : ∀ a, r = .ok a → k a = k' a) : r >>= k = r >>= k' := by
  cases r with
  | ok a => exact h a rfl
  | error f => rfl

theorem map_congr_ok {α β : Type} {r : Except Fault α} {g g' : α → β}
    (h : ∀ a, r = .ok a → g a = g' a) : r.map g = r.map g' := by
  cases r with
  | ok a => exact congrArg Except.ok (h a rfl)
  | error f => rfl

/-- Whether a second document answers all questions about the elements of a
document alike. -/
structure Document.Agrees (d d' : Document) : Prop where
  nodeType {i : NodeId} : d.isElement i → d'.nodeType i = d.nodeType i
  attributes {i : NodeId} (name : String) : d.isElement i →
    d'.attribute? i name = d.attribute? i name
  text {i : NodeId} : d.isElement i → d'.text i = d.text i
  children {i : NodeId} : d.isElement i → d'.children i = d.children i
  findAll {i : NodeId} (type : String) (filter : Filter) : d.isElement i →
    d'.findAll i type filter = d.findAll i type filter
  following {i : NodeId} : d.isElement i → d'.following i = d.following i

namespace Document.Agrees

variable (h : d.Agrees d')

include h

theorem isMatch {i : NodeId} (hi : d.isElement i) (type : String) (filter : Filter) :
    d'.isMatch i type filter = d.isMatch i type filter := by
  have hattributes : d'.attribute? i = d.attribute? i := funext fun name => h.attributes name hi
  rw [Document.isMatch, Document.isMatch, h.nodeType hi, hattributes]

theorem findOne {i : NodeId} (hi : d.isElement i) (type : String) (filter : Filter) :
    d'.findOne i type filter = d.findOne i type filter := by
  rw [Document.findOne, Document.findOne, h.findAll type filter hi]

theorem label {i : NodeId} (hi : d.isElement i) : Hierarchy.label d' i = Hierarchy.label d i :=
  congrArg Text.normalize (h.text hi)

theorem map_label {is : List NodeId} (his : ∀ i ∈ is, d.isElement i) :
    is.map (Hierarchy.label d') = is.map (Hierarchy.label d) :=
  List.map_congr_left fun i hi => h.label (his i hi)

end Document.Agrees

theorem Document.isElement_of_mem_children {i j : NodeId} (h : j ∈ d.children i) : d.isElement j :=
  (List.mem_filter.mp h).2

/-! ## Values -/

namespace Hierarchy

theorem mem_nodes_of_mem_leafList {i : NodeId} : ∀ {t : Hierarchy}, i ∈ t.leafList → i ∈ t.nodes
  | leaves _ _, hi => List.mem_append_left _ hi
  | node _ _ _, hi =>
    List.mem_cons_of_mem _ (List.mem_append_right _ (mem_nodes_of_mem_leafList hi))

theorem childRecords_eq (h : d.Agrees d') : ∀ {t : Hierarchy}, (∀ i ∈ t.nodes, d.isElement i) →
    t.childRecords d' = t.childRecords d
  | empty, _ => rfl
  | leaves _ rest, ht => childRecords_eq h (t := rest) fun i hi => ht i (List.mem_append_right _ hi)
  | node key below rest, ht => by
    have hkey := ht key List.mem_cons_self
    have hbelow : ∀ i ∈ below.nodes, d.isElement i := fun i hi =>
      ht i (List.mem_cons_of_mem _ (List.mem_append_left _ hi))
    have hrest : ∀ i ∈ rest.nodes, d.isElement i := fun i hi =>
      ht i (List.mem_cons_of_mem _ (List.mem_append_right _ hi))
    have hleaves := h.map_label fun i hi => hbelow i (mem_nodes_of_mem_leafList hi)
    rw [childRecords, childRecords, childRecords_eq h hbelow, childRecords_eq h hrest, hleaves,
      h.label hkey, h.nodeType hkey]

theorem toJson_eq (h : d.Agrees d') {t : Hierarchy} (ht : ∀ i ∈ t.nodes, d.isElement i) :
    t.toJson d' = t.toJson d := by
  have hleaves := h.map_label fun i hi => ht i (mem_nodes_of_mem_leafList hi)
  rw [toJson, toJson, childRecords_eq h ht, hleaves]

end Hierarchy

namespace Value

mutual

theorem toJson_eq (h : d.Agrees d') : ∀ {v : Value}, v.Within d → v.toJson d' = v.toJson d
  | null, _ | text _, _ | table _, _ => rfl
  | node _, hv => congrArg Json.text (h.label (within_node.mp hv))
  | nodes _, hv => congrArg Json.texts (h.map_label (within_nodes.mp hv))
  | branch _, hv => congrArg Json.texts (h.map_label (within_branch.mp hv))
  | hierarchy _, hv => Hierarchy.toJson_eq h (within_hierarchy.mp hv)
  | list _, hv => congrArg Json.list (itemsToJson_eq h (within_list.mp hv))
  | mapping _, hv => congrArg Json.record (fieldsToJson_eq h (within_mapping.mp hv))

theorem itemsToJson_eq (h : d.Agrees d') : ∀ {vs : List Value}, (∀ v ∈ vs, v.Within d) →
    itemsToJson d' vs = itemsToJson d vs
  | [], _ => rfl
  | v :: vs, hvs => by
    obtain ⟨hv, hrest⟩ := List.forall_mem_cons.mp hvs
    rw [itemsToJson, itemsToJson, toJson_eq h hv, itemsToJson_eq h hrest]

theorem fieldsToJson_eq (h : d.Agrees d') : ∀ {fields : List (String × Value)},
    (∀ f ∈ fields, f.2.Within d) → fieldsToJson d' fields = fieldsToJson d fields
  | [], _ => rfl
  | (name, v) :: rest, hfields => by
    obtain ⟨hv, hrest⟩ := List.forall_mem_cons.mp hfields
    rw [fieldsToJson, fieldsToJson, toJson_eq h hv, fieldsToJson_eq h hrest]

end

theorem cell_eq (h : d.Agrees d') {v : Value} (hv : v.Within d) : v.cell d' = v.cell d := by
  cases v with
  | null | text => rfl
  | node i => exact h.label (within_node.mp hv)
  | nodes | branch | hierarchy | table | list | mapping =>
    exact congrArg Json.compact (toJson_eq h hv)

theorem field?_eq (h : d.Agrees d') {v : Value} (hv : v.Within d) (segment : String) :
    v.field? d' segment = v.field? d segment := by
  cases v with
  | node i =>
    have hi := within_node.mp hv
    rw [field?, field?, h.text hi, h.attributes segment hi]
  | null | text | nodes | branch | hierarchy | table | list | mapping => rfl

end Value

/-! ## Variables and columns -/

namespace Store

theorem access_eq (h : d.Agrees d') (name : String) : ∀ {segments : List String} {v : Value},
    v.Within d → access d' name v segments = access d name v segments
  | [], _, _ => rfl
  | segment :: rest, v, hv => by
    rw [access, access, Value.field?_eq h hv]
    split
    · rename_i w hw
      exact access_eq h name (hv.field hw)
    · rfl

theorem resolve_eq (h : d.Agrees d') {s : Store} (hs : s.Within d) (o : Operand) :
    s.resolve d' o = s.resolve d o := by
  cases o with
  | literal | var | pop => rfl
  | path name segments =>
    exact bind_congr_ok fun v hv => by rw [access_eq h name (hs.value hv)]

end Store

namespace Column

theorem resolve_eq (h : d.Agrees d') {s : Store} (hs : s.Within d) (c : Column) :
    c.resolve d' s = c.resolve d s := by
  have hresolve := Store.resolve_eq h hs c.source
  cases hr : s.resolve d c.source with
  | error f => rw [resolve_of_error hr, resolve_of_error (hresolve.trans hr)]
  | ok r =>
    rw [resolve_of_ok hr, resolve_of_ok (hresolve.trans hr), Value.cell_eq h (hs.resolve hr).1]

theorem within_resolve {s : Store} (hs : s.Within d) (c : Column) : (c.resolve d s).2.Within d := by
  change (Store.Change.resolve d c.source s).2.Within d
  rw [Store.Change.resolve_eq]
  exact Store.Change.snd_whole hs fun v s' h => (hs.resolve h).2

theorem resolveAll_eq (h : d.Agrees d') : ∀ {columns : List Column} {s : Store}, s.Within d →
    resolveAll d' s columns = resolveAll d s columns
  | [], _, _ => rfl
  | c :: rest, s, hs => by
    have hrest := within_resolve hs c
    rw [resolveAll, resolveAll, resolve_eq h hs]
    split
    · rfl
    · rename_i text s' hr
      rw [hr] at hrest
      rw [resolveAll_eq h hrest]

end Column

/-! ## Tables -/

namespace Document

theorem tableAt_eq (h : d.Agrees d') {source : NodeId} (hs : d.isElement source) (filter : Filter) :
    d'.tableAt source filter = d.tableAt source filter := by
  rw [tableAt, tableAt, h.isMatch hs, h.findOne hs, h.nodeType hs]

theorem isElement_of_tableAt {source i : NodeId} {filter : Filter} (hs : d.isElement source)
    (hi : d.tableAt source filter = .ok i) : d.isElement i := by
  unfold tableAt at hi
  split at hi
  · cases hi
    exact hs
  · split at hi
    · rename_i j hj
      cases hi
      exact isElement_of_mem_findAll (List.mem_of_head? hj)
    · cases hi

end Document

namespace Table

theorem headerCells_eq (h : d.Agrees d') {row : NodeId} (hrow : d.isElement row) :
    headerCells d' row = headerCells d row := by
  rw [headerCells, headerCells, h.children hrow]
  refine List.map_congr_left fun i hi => ?_
  rw [h.text (Document.isElement_of_mem_children hi)]

theorem dataCells_eq (h : d.Agrees d') {row : NodeId} (hrow : d.isElement row) :
    dataCells d' row = dataCells d row := by
  rw [dataCells, dataCells, h.children hrow]
  exact h.map_label fun i hi => Document.isElement_of_mem_children hi

theorem isKept_eq (h : d.Agrees d') {row : NodeId} (hrow : d.isElement row)
    (enforce : Option Nat) : isKept d' enforce row = isKept d enforce row := by
  have hcount : dataCellCount d' row = dataCellCount d row := by
    rw [dataCellCount, dataCellCount, h.children hrow]
    refine congrArg List.length (List.filter_congr fun i hi => ?_)
    rw [h.nodeType (Document.isElement_of_mem_children hi)]
  cases enforce with
  | none => rfl
  | some n => exact congrArg (· == n) hcount

theorem project_eq (h : d.Agrees d') {source : NodeId} (hs : d.isElement source) (filter : Filter)
    (constants : List (String × String)) (enforce : Option Nat) :
    project d' source filter constants enforce = project d source filter constants enforce := by
  rw [project, project, Document.tableAt_eq h hs]
  refine bind_congr_ok fun table ht => ?_
  have hrows : ∀ row ∈ d.findAll table "tr" .any, d.isElement row := fun row hrow =>
    Document.isElement_of_mem_findAll hrow
  dsimp only
  rw [h.findAll "tr" .any (Document.isElement_of_tableAt hs ht)]
  split
  · rfl
  · rename_i first rows he
    rw [he] at hrows
    obtain ⟨hfirst, hrows⟩ := List.forall_mem_cons.mp hrows
    have hkept : rows.filter (isKept d' enforce) = rows.filter (isKept d enforce) :=
      List.filter_congr fun row hrow => isKept_eq h (hrows row hrow) enforce
    have hdata : (rows.filter (isKept d enforce)).map
          (fun row => constants.map (·.2) ++ dataCells d' row) =
        (rows.filter (isKept d enforce)).map fun row => constants.map (·.2) ++ dataCells d row :=
      List.map_congr_left fun row hrow => by
        rw [dataCells_eq h (hrows row (List.mem_filter.mp hrow).1)]
    rw [headerCells_eq h hfirst, hkept, hdata]

theorem ofNodes_eq (h : d.Agrees d') {is : List NodeId} (his : ∀ i ∈ is, d.isElement i)
    (filter : Filter) (constants : List (String × String)) (enforce : Option Nat) :
    ofNodes d' is filter constants enforce = ofNodes d is filter constants enforce := by
  have hmap : (is.mapM fun i => project d' i filter constants enforce) =
      is.mapM fun i => project d i filter constants enforce := by
    induction is with
    | nil => rw [List.mapM_nil, List.mapM_nil]
    | cons i is ih =>
      obtain ⟨hi, his⟩ := List.forall_mem_cons.mp his
      rw [List.mapM_cons, List.mapM_cons, project_eq h hi, ih his]
  rw [ofNodes, ofNodes, hmap]

theorem isElement_of_nodeOf {column : String} {branch : List NodeId} {index : Nat} {i : NodeId}
    (hb : ∀ i ∈ branch, d.isElement i) (hi : nodeOf column branch index = .ok i) :
    d.isElement i := by
  unfold nodeOf at hi
  split at hi
  · rename_i j hj
    cases hi
    exact hb _ (List.mem_of_getElem? hj)
  · cases hi

variable {branch : List NodeId}

theorem branchValue_eq (h : d.Agrees d') (hb : ∀ i ∈ branch, d.isElement i) {s : Store}
    (hs : s.Within d) (c : Column) : branchValue d' s branch c = branchValue d s branch c := by
  rw [branchValue, branchValue]
  split
  · exact congrArg (·, s) (map_congr_ok fun i hi => h.label (isElement_of_nodeOf hb hi))
  · exact c.resolve_eq h hs

theorem within_branchValue {s : Store} (hs : s.Within d) (branch : List NodeId) (c : Column) :
    (branchValue d s branch c).2.Within d := by
  unfold branchValue
  split
  · exact hs
  · exact Column.within_resolve hs c

theorem branchValues_eq (h : d.Agrees d') (hb : ∀ i ∈ branch, d.isElement i) :
    ∀ {columns : List Column} {s : Store}, s.Within d →
      branchValues d' s branch columns = branchValues d s branch columns
  | [], _, _ => rfl
  | c :: rest, s, hs => by
    have hrest := within_branchValue hs branch c
    rw [branchValues, branchValues, branchValue_eq h hb hs]
    split
    · rfl
    · rename_i text s' hv
      rw [hv] at hrest
      rw [branchValues_eq h hb hrest]

theorem ofBranchWith_eq (h : d.Agrees d') (hb : ∀ i ∈ branch, d.isElement i)
    (tableIndex : Option Nat) (constants : List (String × String)) :
    ofBranchWith d' branch tableIndex constants = ofBranchWith d branch tableIndex constants := by
  cases tableIndex with
  | none =>
    have htypes : branch.map d'.nodeType = branch.map d.nodeType :=
      List.map_congr_left fun i hi => h.nodeType (hb i hi)
    rw [ofBranchWith, ofBranchWith, branchRow, branchRow, htypes, h.map_label hb]
  | some index =>
    rw [ofBranchWith, ofBranchWith]
    refine bind_congr_ok fun i hi => ?_
    have hi := isElement_of_nodeOf hb hi
    rw [h.nodeType hi, project_eq h hi]

theorem ofBranch_eq (h : d.Agrees d') (hb : ∀ i ∈ branch, d.isElement i) {s : Store}
    (hs : s.Within d) (tableIndex : Option Nat) (columns : List Column) :
    ofBranch d' s branch tableIndex columns = ofBranch d s branch tableIndex columns := by
  have hwith : ofBranchWith d' branch tableIndex = ofBranchWith d branch tableIndex :=
    funext fun constants => ofBranchWith_eq h hb tableIndex constants
  rw [ofBranch, ofBranch, branchValues_eq h hb hs, hwith]

end Table

/-! ## Queries and hierarchies -/

theorem NodeQuery.result_eq (h : d.Agrees d') {scope : NodeId} (hs : d.isElement scope)
    (q : NodeQuery) : q.result d' scope = q.result d scope := by
  have hnodes : q.nodes d' scope = q.nodes d scope := by
    rw [nodes, nodes, h.findAll _ _ hs]
    refine List.filter_congr fun i hi => ?_
    have hattributes : d'.attribute? i = d.attribute? i :=
      funext fun name => h.attributes name (Document.isElement_of_mem_findAll hi)
    rw [hattributes]
  rw [result, result, hnodes]

theorem Marker.find_eq (h : d.Agrees d') {is : List NodeId} (his : ∀ i ∈ is, d.isElement i)
    (m : Marker) (start : Nat) : m.find d' is start = m.find d is start := by
  have hfind : ∀ {is : List NodeId}, (∀ i ∈ is, d.isElement i) →
      is.findIdx? (fun i => d'.isMatch i m.type m.filter) =
        is.findIdx? fun i => d.isMatch i m.type m.filter := by
    intro is his
    induction is with
    | nil => rw [List.findIdx?_nil, List.findIdx?_nil]
    | cons i is ih =>
      obtain ⟨hi, his⟩ := List.forall_mem_cons.mp his
      rw [List.findIdx?_cons, List.findIdx?_cons, h.isMatch hi, ih his]
  rw [find, find, hfind fun i hi => his i (List.mem_of_mem_drop hi)]

theorem Document.slice_eq (h : d.Agrees d') {root : NodeId} (hr : d.isElement root)
    (start stop : Option Marker) : d'.slice root start stop = d.slice root start stop := by
  have hfind : ∀ (m : Marker) (i : Nat), m.find d' (d.following root) i =
      m.find d (d.following root) i :=
    fun m i => m.find_eq h (fun j hj => isElement_of_mem_following hj) i
  simp only [slice, h.following hr, hfind]

theorem Hierarchy.build_eq (h : d.Agrees d') {root : NodeId} (hr : d.isElement root)
    (start stop : Option Marker) (levels : Levels) :
    build d' root start stop levels = build d root start stop levels := by
  rw [build, build, Document.slice_eq h hr]
  refine bind_congr_ok fun is hslice => ?_
  have his : ∀ i ∈ is, d.isElement i := fun i hi =>
    Document.isElement_of_mem_following ((Document.slice_sublist hslice).subset hi)
  have hnodes : ofNodes levels.leafLevel (fun i => levels.levelOf? (d'.nodeType i)) is =
      ofNodes levels.leafLevel (fun i => levels.levelOf? (d.nodeType i)) is :=
    congrArg Owners.finish (List.foldl_ext _ _ _ fun o i hi => by
      simp only [h.nodeType (his i hi)])
  rw [hnodes]

end Gleaner
