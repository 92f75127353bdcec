import Gleaner.Proofs.Document.Queries
import Gleaner.Proofs.Markup.Loading
import Gleaner.Proofs.Run.Alike
import Gleaner.Proofs.Run.Calls

/-!
# Runs stay within their document

From variables that mention elements only, a run never comes to an index that is
no element: not in a value that an action takes or gives, not in a variable and
not in a question to the document. The ranges that the document reads for an
element lie in the list of its nodes.

* `Flow.StaysWithin`: all of it, of one run;
* `Document.agrees_push`: nothing that stands behind the last node matters;
* `Flow.staysWithin`: documents that are built or loaded.
-/

namespace Gleaner

open Run Contract

variable {σ : Type} {d : Document}

/-! ## Ranges of elements -/

namespace Document

theorem lt_size {i : NodeId} {n : Node} (h : d.node? i = some n) : i < d.size :=
  (Array.getElem?_eq_some_iff.mp h).1

theorem exists_node_of_isElement {i : NodeId} (h : d.isElement i) :
    ∃ n, d.node? i = some n ∧ n.isElement := by
  unfold isElement at h
  cases hn : d.node? i with
  | none =>
    rw [hn] at h
    cases h
  | some n =>
    rw [hn] at h
    exact ⟨n, rfl, h⟩

namespace Tiled

variable (h : d.Tiled)

include h

theorem isElement_root : d.isElement root := by
  obtain ⟨children, hn⟩ := h.root_node
  rw [isElement, hn]
  rfl

/-- The range below an element and its children lie in the document. -/
theorem bounds {i : NodeId} (hi : d.isElement i) : ∃ n, d.node? i = some n ∧ i + 1 ≤ n.stop ∧
    n.stop ≤ d.size ∧ ∀ c ∈ n.children, c < d.size := by
  obtain ⟨n, hn, -⟩ := exists_node_of_isElement hi
  refine ⟨n, hn, (h.tiles hn).le, h.stop_le hn, fun c hc => ?_⟩
  obtain ⟨-, hlt, hle⟩ := (h.tiles hn).bounds hc
  exact Nat.lt_of_lt_of_le hlt (Nat.le_trans hle (h.stop_le hn))

end Tiled

/-! ## What stands behind the last node -/

theorem node?_push_of_lt (n : Node) {i : Nat} (hi : i < d.size) :
    node? ⟨d.nodes.push n⟩ i = d.node? i :=
  (Array.getElem?_push_lt hi).trans (Array.getElem?_eq_getElem hi).symm

theorem isElement_push {n : Node} (hn : n.isElement = false) (i : Nat) :
    isElement ⟨d.nodes.push n⟩ i = d.isElement i := by
  rcases Nat.lt_trichotomy i d.size with hi | rfl | hi
  · rw [isElement, isElement, node?_push_of_lt n hi]
  · have hnew : node? ⟨d.nodes.push n⟩ d.size = some n := Array.getElem?_push_size
    have hold : d.node? d.size = none := Array.getElem?_eq_none (Nat.le_refl _)
    rw [isElement, isElement, hnew, hold]
    exact hn
  · have hnew : node? ⟨d.nodes.push n⟩ i = none :=
      Array.getElem?_eq_none (by rw [Array.size_push]; exact hi)
    have hold : d.node? i = none := Array.getElem?_eq_none (Nat.le_of_lt hi)
    rw [isElement, isElement, hnew, hold]

/-- A document agrees with the one that has a further node behind its last one,
if this is no element, whatever its text, its children and its range are. -/
theorem agrees_push (h : d.Tiled) {n : Node} (hn : n.isElement = false) :
    d.Agrees ⟨d.nodes.push n⟩ := by
  have hnode {i : Nat} (hi : d.isElement i) : node? ⟨d.nodes.push n⟩ i = d.node? i := by
    obtain ⟨m, hm, -⟩ := exists_node_of_isElement hi
    exact node?_push_of_lt n (lt_size hm)
  have hstop {i : Nat} (hi : d.isElement i) : d.stop i ≤ d.size := by
    obtain ⟨m, hm, -, hle, -⟩ := h.bounds hi
    rwa [stop_eq hm]
  have hplaces {i j : Nat} (hi : d.isElement i) (hj : j ∈ places (i + 1) (d.stop i)) :
      node? ⟨d.nodes.push n⟩ j = d.node? j :=
    node?_push_of_lt n (Nat.lt_of_lt_of_le (mem_places.mp hj).2 (hstop hi))
  have hsame : isElement ⟨d.nodes.push n⟩ = d.isElement := funext (isElement_push hn)
  refine
    { nodeType := fun hi => by rw [nodeType, nodeType, hnode hi]
      attributes := fun name hi => by rw [attribute?, attribute?, hnode hi]
      children := fun hi => by rw [children, children, hnode hi, hsame]
      text := fun {i} hi => ?_
      findAll := fun {i} type filter hi => ?_
      following := fun {i} hi => ?_ }
  · have htexts : (places (i + 1) (d.stop i)).filterMap
          (fun j => (node? ⟨d.nodes.push n⟩ j).bind Node.text?) =
        (places (i + 1) (d.stop i)).filterMap fun j => (d.node? j).bind Node.text? :=
      List.filterMap_congr fun j hj => by rw [hplaces hi hj]
    rw [text, text, hnode hi, stop, hnode hi, ← stop, htexts]
  · rw [findAll, findAll, stop, hnode hi, ← stop, hsame]
    refine List.filter_congr fun j hj => ?_
    rw [isMatch, isMatch, nodeType, hplaces hi hj, ← nodeType]
    have hattributes : attribute? ⟨d.nodes.push n⟩ j = d.attribute? j := funext fun name => by
      rw [attribute?, attribute?, hplaces hi hj]
    rw [hattributes]
  · obtain ⟨m, hm, -⟩ := exists_node_of_isElement hi
    have hsize : size ⟨d.nodes.push n⟩ = d.size + 1 := Array.size_push _
    have hlast : d.isElement d.size = false := by
      have hold : d.node? d.size = none := Array.getElem?_eq_none (Nat.le_refl _)
      rw [isElement, hold]
      rfl
    -- The walk goes on to the new index, which is no element in either document.
    rw [following, following, hsame, hsize,
      ← places_append (lt_size hm) (Nat.le_succ d.size), List.filter_append]
    simp [places, hlast]

end Document

/-! ## Runs -/

/-- Whether the run of a flow on a document, from a machine on, comes to no other
index than those of elements. -/
structure Flow.StaysWithin (f : Flow) (d : Document) (sink : Sink σ) (m : Machine σ) : Prop where
  /-- Each action finds elements only, in its input and in the variables. -/
  input : ∀ call, f.Makes ⟨d, sink⟩ m call → call.input.Within d ∧ call.machine.store.Within d
  /-- Each action leaves and gives elements only, whether it succeeds or not. -/
  outcome : ∀ call, f.Makes ⟨d, sink⟩ m call → (call.outcome ⟨d, sink⟩).2.store.Within d ∧
    ∀ v, (call.outcome ⟨d, sink⟩).1 = .ok v → v.Within d
  store : ((f.run ⟨d, sink⟩).start m).2.store.Within d
  result : ∀ v, ((f.run ⟨d, sink⟩).start m).1 = .ok v → v.Within d
  /-- The actions, and so the run, ask the document about elements only: all is
  the same on a document that answers otherwise about anything else. -/
  asks : ∀ d', d.Agrees d' → (f.run ⟨d', sink⟩).start m = (f.run ⟨d, sink⟩).start m ∧
    ∀ call, f.Makes ⟨d, sink⟩ m call → call.outcome ⟨d', sink⟩ = call.outcome ⟨d, sink⟩
  /-- The document answers with elements. -/
  answers : ∀ i j type filter,
    j ∈ d.children i ∨ j ∈ d.findAll i type filter ∨ j ∈ d.following i → d.isElement j
  /-- What the document reads for an element is there. -/
  bounds : ∀ i, d.isElement i → ∃ n, d.node? i = some n ∧ i + 1 ≤ n.stop ∧ n.stop ≤ d.size ∧
    ∀ c ∈ n.children, c < d.size

/-- From variables that mention elements only, runs stay within a document that
was built or loaded. -/
theorem Flow.staysWithin (hd : (∃ operations, d = Builder.build operations) ∨
      ∃ source, Document.parse source = .ok d)
    (f : Flow) (sink : Sink σ) {m : Machine σ} (hm : m.store.Within d) :
    f.StaysWithin d sink m := by
  have htiled : d.Tiled := Document.IsMade.tiled hd
  have hc := closed_within d
  have hroot : (Value.node Document.root).Within d := Value.within_node.mpr htiled.isElement_root
  have hall (g : Flow) := all_of_forall (allows_within d) g
  have hcall {call : Call σ} (h : f.Makes ⟨d, sink⟩ m call) :=
    Calls.contract hc h (hall f.atTop) hroot hm
  have hasks {d' : Document} (h : d.Agrees d') {call : Call σ} (hmakes : f.Makes ⟨d, sink⟩ m call) :
      call.outcome ⟨d', sink⟩ = call.outcome ⟨d, sink⟩ := by
    obtain ⟨-, hin, hs⟩ := hcall hmakes
    exact Action.alike_apply h sink hin call.action call.machine hs
  obtain ⟨hstore, hresult⟩ := keeps_run (e := ⟨d, sink⟩) hc (hall f) hroot m hm
  exact
    { input := fun call h => (hcall h).2
      outcome := fun call h => by
        obtain ⟨hs, ho⟩ := Call.contract (e := ⟨d, sink⟩) hc (hcall h)
        exact ⟨hs, fun v hv => ho.of_ok hv⟩
      store := hstore
      result := fun v hv => hresult.of_ok hv
      asks := fun d' h => ⟨start_run_congr fun call => hasks h, fun call => hasks h⟩
      answers := fun i j type filter h => by
        rcases h with h | h | h
        · exact Document.isElement_of_mem_children h
        · exact Document.isElement_of_mem_findAll h
        · exact Document.isElement_of_mem_following h
      bounds := fun i hi => htiled.bounds hi }

/-- The operations for a page with two items and a text. -/
def itemOperations : List Builder.Operation :=
  [.openElement "ul" [], .element "li" [] "a", .element "li" [] "b", .addText "c"]

/-- The steps that collect the items of a page in the variable `seen`. -/
def collectingFlow : Flow :=
  .step (.find ⟨.multi, "li", .any, []⟩) .atomic
    (.step (.add ⟨"seen", .list, none, none⟩) .loop .nil .nil) .nil

/-- A machine whose variable `seen` already holds the list. -/
def collectingMachine (seen : List Value) : Machine (List Saved) :=
  ⟨⟨[("seen", ⟨.list, .list (.node 1 :: seen)⟩)]⟩, []⟩

/-- The second item, node 4, is collected after the first one, node 2. A text
behind the document does not matter. -/
theorem collecting_staysWithin :
    (collectingMachine []).store.Within (Builder.build itemOperations) ∧
      collectingFlow.Makes ⟨Builder.build itemOperations, .listing⟩ (collectingMachine [])
        ⟨.add ⟨"seen", .list, none, none⟩, .node 4, collectingMachine [.node 2]⟩ ∧
      (Value.node 4).Within (Builder.build itemOperations) ∧
      (collectingFlow.run ⟨⟨(Builder.build itemOperations).nodes.push ⟨.text "d", [0], 9⟩⟩,
          .listing⟩).start (collectingMachine []) =
        (collectingFlow.run ⟨Builder.build itemOperations, .listing⟩).start
          (collectingMachine []) := by
  have hm : (collectingMachine []).store.Within (Builder.build itemOperations) := by
    unfold Store.Within Value.Within
    decide
  have hmakes : collectingFlow.Makes ⟨Builder.build itemOperations, .listing⟩
      (collectingMachine [])
      ⟨.add ⟨"seen", .list, none, none⟩, .node 4, collectingMachine [.node 2]⟩ :=
    .inner rfl .here (by rfl) (.self rfl (.later (by rfl) .here))
  have h := Flow.staysWithin (.inl ⟨itemOperations, rfl⟩) collectingFlow Sink.listing hm
  refine ⟨hm, hmakes, (h.input _ hmakes).1, (h.asks _ (Document.agrees_push ?_ rfl)).1⟩
  rw [Builder.build_eq_ofForest]
  exact Document.tiled_ofForest _

end Gleaner
