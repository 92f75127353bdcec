import Gleaner.Proofs.Document.Building

/-!
# What an end tag closes

An end tag is looked up among the open elements by its place, counted from the
outermost one, and then elements are closed for as long as there are more open ones
than that place leaves. The root is at the bottom of the open elements: it is passed
over by the search, and is never closed. This comes to the same as counting from the
innermost element, which is how `Builder.closeTag` goes.

* `Builder.openStack`, `Builder.endTag`: the open elements with the root, and closing
  by the place, with whether there was something to close;
* `lastPlace?_cases`: what the search finds;
* `Builder.closeBeyond_eq_closeMany`: what the loop closes;
* `Builder.getElem?_closeMany`: which nodes closing changes, and how;
* `Builder.endTag_eq`: both ways of closing come to the same;
* `Builder.endTag_closes`: the statement.
-/

namespace Gleaner

/-- The place of the last element of a list that satisfies a predicate. -/
def lastPlace? {α : Type} (p : α → Bool) : List α → Option Nat
  | [] => none
  | a :: as =>
    match lastPlace? p as with
    | some i => some (i + 1)
    | none => if p a then some 0 else none

/-- Either no element satisfies the predicate, or the place cuts the list before the
last one that does. -/
theorem lastPlace?_cases {α : Type} (p : α → Bool) (as : List α) :
    (lastPlace? p as = none ∧ ∀ a ∈ as, p a = false) ∨
      ∃ before a after, as = before ++ a :: after ∧ lastPlace? p as = some before.length ∧
        p a = true ∧ ∀ b ∈ after, p b = false := by
  induction as with
  | nil => exact .inl ⟨rfl, nofun⟩
  | cons a as ih =>
    rcases ih with ⟨hnone, has⟩ | ⟨before, b, after, rfl, hsome, hb, hafter⟩
    · cases ha : p a with
      | false => exact .inl ⟨by rw [lastPlace?, hnone, ha]; rfl, List.forall_mem_cons.mpr ⟨ha, has⟩⟩
      | true => exact .inr ⟨[], a, as, rfl, by rw [lastPlace?, hnone, ha]; rfl, ha, has⟩
    · exact .inr ⟨a :: before, b, after, rfl, by rw [lastPlace?, hsome]; rfl, hb, hafter⟩

namespace Builder

/-- The elements that the next node is in, with the root, the outermost first. -/
def openStack (b : Builder) : List NodeId :=
  Document.root :: b.opened.reverse

/-- Closes the innermost element while there are more elements on the stack than those up
to a place behind the root. -/
def closeBeyond (b : Builder) (place : Nat) : Builder :=
  if place + 1 < b.openStack.length then b.close.closeBeyond place else b
termination_by b.opened.length
decreasing_by
  obtain ⟨nodes, _ | ⟨i, rest⟩⟩ := b
  · simp [openStack] at *
  · exact Nat.lt_succ_self rest.length

/-- Closes the innermost open element of a type and all elements inside it, and says
whether there was one. -/
def endTag (b : Builder) (type : String) : Bool × Builder :=
  match lastPlace? (b.hasType type) b.openStack.tail with
  | none => (false, b)
  | some place => (true, b.closeBeyond place)

variable {b : Builder} {closed left : List NodeId}

/-! ## Closing elements -/

theorem opened_close (b : Builder) : b.close.opened = b.opened.tail := by
  obtain ⟨nodes, _ | ⟨i, rest⟩⟩ := b <;> rfl

theorem size_close (b : Builder) : b.close.nodes.size = b.nodes.size := by
  obtain ⟨nodes, _ | ⟨i, rest⟩⟩ := b
  · rfl
  · exact Array.size_modify

theorem size_closeMany : ∀ (n : Nat) (b : Builder), (b.closeMany n).nodes.size = b.nodes.size
  | 0, _ => rfl
  | n + 1, b => by rw [closeMany, size_closeMany n, size_close]

/-- An element that is closed ends with the last node so far. -/
theorem getElem?_close {i : NodeId} (h : b.opened = i :: left) (j : NodeId) :
    b.close.nodes[j]? =
      if i = j then (b.nodes[j]?).map fun n => { n with stop := b.nodes.size } else b.nodes[j]? := by
  rw [close, h]
  exact Array.getElem?_modify

theorem opened_closeMany_length (h : b.opened = closed ++ left) :
    (b.closeMany closed.length).opened = left := by
  induction closed generalizing b with
  | nil => exact h
  | cons i closed ih => exact ih (by rw [opened_close, h]; rfl)

/-- The elements that are closed end with the last node so far, and nothing else changes. -/
theorem getElem?_closeMany (h : b.opened = closed ++ left) (j : NodeId) :
    (b.closeMany closed.length).nodes[j]? =
      if j ∈ closed then (b.nodes[j]?).map fun n => { n with stop := b.nodes.size }
      else b.nodes[j]? := by
  induction closed generalizing b with
  | nil => rfl
  | cons i closed ih =>
    have hnext : b.close.opened = closed ++ left := by rw [opened_close, h]; rfl
    rw [List.length_cons, closeMany, ih hnext, size_close, getElem?_close h]
    by_cases hij : i = j
    · -- Closed twice or once, the element ends at the same place.
      subst hij
      rw [if_pos rfl, if_pos List.mem_cons_self, Option.map_map]
      split <;> rfl
    · have hmem : j ∈ i :: closed ↔ j ∈ closed :=
        List.mem_cons.trans (or_iff_right fun hji => hij hji.symm)
      rw [if_neg hij]
      exact if_congr hmem.symm rfl rfl

/-- The loop closes what is inside the place, and stops before the root at the latest. -/
theorem closeBeyond_eq_closeMany (h : b.opened = closed ++ left) :
    b.closeBeyond left.length = b.closeMany closed.length := by
  have hlength : b.openStack.length = closed.length + left.length + 1 := by
    rw [openStack, List.length_cons, List.length_reverse, h, List.length_append]
  induction closed generalizing b with
  | nil =>
    rw [closeBeyond, if_neg (by rw [hlength]; simp)]
    rfl
  | cons i closed ih =>
    have hnext : b.close.opened = closed ++ left := by rw [opened_close, h]; rfl
    rw [closeBeyond, if_pos (by rw [hlength, List.length_cons]; omega), ih hnext]
    · rfl
    · rw [openStack, List.length_cons, List.length_reverse, hnext, List.length_append]

/-! ## Both ways of closing -/

/-- What an end tag finds among the open elements: none of its type, or the innermost one,
with the elements inside it before it. -/
theorem endTag_cases (b : Builder) (type : String) :
    (b.endTag type = (false, b) ∧ ∀ i ∈ b.opened, b.hasType type i = false) ∨
      ∃ inside i around, b.opened = inside ++ i :: around ∧ b.hasType type i = true ∧
        (∀ j ∈ inside, b.hasType type j = false) ∧
        b.endTag type = (true, b.closeMany (inside ++ [i]).length) := by
  rcases lastPlace?_cases (b.hasType type) b.opened.reverse with
    ⟨hnone, hall⟩ | ⟨before, i, after, hsplit, hsome, hi, hafter⟩
  · refine .inl ⟨?_, fun i hi => hall i (List.mem_reverse.mpr hi)⟩
    rw [endTag, openStack, List.tail_cons, hnone]
  · have hopened : b.opened = after.reverse ++ i :: before.reverse := by
      rw [← List.reverse_reverse b.opened, hsplit]
      simp
    refine .inr ⟨after.reverse, i, before.reverse, hopened, hi,
      fun j hj => hafter j (List.mem_reverse.mp hj), ?_⟩
    have hclose : b.opened = (after.reverse ++ [i]) ++ before.reverse := by rw [hopened]; simp
    rw [endTag, openStack, List.tail_cons, hsome, ← closeBeyond_eq_closeMany hclose,
      List.length_reverse]

/-- The search from the outermost element on finds the same element as the one from the
innermost, and the same elements are closed. -/
theorem endTag_eq (b : Builder) (type : String) :
    b.endTag type = (b.isOpen type, b.closeTag type) := by
  rcases endTag_cases b type with ⟨hend, hall⟩ | ⟨inside, i, around, hopened, hi, hinside, hend⟩
  · have hclosed : b.isOpen type = false := List.any_eq_false.mpr fun i hi => by simp [hall i hi]
    rw [hend, closeTag, hclosed]
    rfl
  · have hopen : b.isOpen type = true :=
      List.any_eq_true.mpr ⟨i, by rw [hopened]; simp, hi⟩
    have hidx : b.opened.findIdx (b.hasType type) = inside.length := by
      have hnone : ¬inside.findIdx (b.hasType type) < inside.length := fun hlt => by
        obtain ⟨j, hj, htype⟩ := List.findIdx_lt_length.mp hlt
        rw [hinside j hj] at htype
        cases htype
      rw [hopened, List.findIdx_append, if_neg hnone, List.findIdx_cons, hi, cond_true,
        Nat.zero_add]
    rw [hend, closeTag, hopen, hidx, List.length_append]
    rfl

end Builder

/-! ## Reachable builders -/

/-- The open elements have places behind the root. -/
theorem OpenForest.bounds_of_mem_places {i : Nat} :
    ∀ {opened : List OpenElement}, i ∈ places opened → 0 < i ∧ i ≤ place opened
  | e :: rest, h => by
    have hplace : place (e :: rest) = place rest + 1 + e.before.size := rfl
    rcases List.mem_cons.mp h with rfl | h
    · rw [hplace]
      omega
    · have hrest := bounds_of_mem_places h
      omega

namespace Builder

/-- Whatever is done to a builder, its open elements are nodes that it has, and not the
root. -/
theorem bounds_of_mem_opened {operations : List Operation} {i : Nat}
    (h : i ∈ (operations.foldl perform empty).opened) :
    0 < i ∧ i < (operations.foldl perform empty).nodes.size := by
  have hforest : operations.foldl perform empty =
      (operations.foldl OpenForest.perform OpenForest.empty).toBuilder :=
    OpenForest.toBuilder_foldl operations OpenForest.empty
  rw [hforest] at h ⊢
  generalize operations.foldl OpenForest.perform OpenForest.empty = o at h ⊢
  have hbounds := OpenForest.bounds_of_mem_places h
  have hsize : o.toBuilder.nodes.size = OpenForest.place o.opened + 1 + o.current.size :=
    o.next_toBuilder
  omega

/-- An end tag does nothing to a builder, and says so, exactly if no element of its type is
open. Otherwise it closes the innermost one and all elements inside it: these end with the
last node so far, no other node changes, and the stack is cut below that element, so that
the root stays on it. -/
theorem endTag_closes (operations : List Operation) (type : String) {b : Builder}
    (hb : operations.foldl perform empty = b) :
    (b.endTag type = (false, b) ↔ ∀ i ∈ b.openStack.tail, b.hasType type i = false) ∧
      (∀ i ∈ b.openStack.tail, b.hasType type i = true →
        ∃ around j inside b', b.endTag type = (true, b') ∧ b' = b.closeTag type ∧
          b.openStack = around ++ j :: inside ∧ b.hasType type j = true ∧
          (∀ k ∈ inside, b.hasType type k = false) ∧
          b'.openStack = around ∧ around.head? = some Document.root ∧
          b'.nodes.size = b.nodes.size ∧
          (∀ k ∈ j :: inside, k ≠ Document.root ∧ ∃ n, b.nodes[k]? = some n ∧
            b'.nodes[k]? = some { n with stop := b.nodes.size }) ∧
          ∀ k, k ∉ j :: inside → b'.nodes[k]? = b.nodes[k]?) := by
  have hstack : ∀ i, i ∈ b.openStack.tail ↔ i ∈ b.opened := fun i => by
    rw [openStack, List.tail_cons, List.mem_reverse]
  rcases endTag_cases b type with ⟨hend, hall⟩ | ⟨inside, j, around, hopened, hj, hinside, hend⟩
  · have hnone : ∀ i ∈ b.openStack.tail, b.hasType type i = false :=
      fun i hi => hall i ((hstack i).mp hi)
    refine ⟨iff_of_true hend hnone, fun i hi htype => ?_⟩
    rw [hnone i hi] at htype
    cases htype
  · have hmem : j ∈ b.openStack.tail := (hstack j).mpr (by rw [hopened]; simp)
    refine ⟨iff_of_false (fun he => ?_) fun hall => ?_, fun _ _ _ => ?_⟩
    · rw [hend] at he
      cases he
    · rw [hall j hmem] at hj
      cases hj
    have hclosed : b.opened = (inside ++ [j]) ++ around := by rw [hopened]; simp
    have hin : ∀ k, k ∈ j :: inside.reverse ↔ k ∈ inside ++ [j] := fun k => by
      rw [List.mem_cons, List.mem_reverse, List.mem_append, List.mem_singleton, or_comm]
    refine ⟨Document.root :: around.reverse, j, inside.reverse, _, hend, ?_, ?_, hj,
      fun k hk => hinside k (List.mem_reverse.mp hk), ?_, rfl, size_closeMany _ b,
      fun k hk => ?_, fun k hk => ?_⟩
    · exact (congrArg Prod.snd (hend.symm.trans (endTag_eq b type)))
    · rw [openStack, hopened]
      simp
    · rw [openStack, opened_closeMany_length hclosed]
    · have hk := (hin k).mp hk
      have hbounds : 0 < k ∧ k < b.nodes.size := by
        subst hb
        exact bounds_of_mem_opened (by rw [hclosed]; exact List.mem_append_left _ hk)
      obtain ⟨n, hnode⟩ : ∃ n, b.nodes[k]? = some n := ⟨_, Array.getElem?_eq_getElem hbounds.2⟩
      refine ⟨Nat.ne_of_gt hbounds.1, _, hnode, ?_⟩
      rw [getElem?_closeMany hclosed, if_pos hk, hnode]
      rfl
    · rw [getElem?_closeMany hclosed, if_neg fun hk' => hk ((hin k).mpr hk')]

/-- Paragraphs one inside the other, with other elements around and in them. -/
def nestedParagraphs : List Operation :=
  [.openElement "DIV" [], .openElement "p" [], .addText "a", .openElement "b" [],
    .openElement "P" [], .openElement "i" []]

/-- The end tag of a paragraph closes the inner one, whatever the case of its letters, and
what is open in it. The outer one stays open, and has not ended. -/
theorem endTag_closes_inner_paragraph :
    ((nestedParagraphs.foldl perform empty).endTag "P").1 = true ∧
      ((nestedParagraphs.foldl perform empty).endTag "P").2.openStack = [0, 1, 2, 4] ∧
      (((nestedParagraphs.foldl perform empty).endTag "P").2.nodes.map (·.stop)).toList =
        [1, 2, 3, 4, 5, 7, 7] := by
  have hopen : 5 ∈ (nestedParagraphs.foldl perform empty).openStack.tail := by decide
  have htype : (nestedParagraphs.foldl perform empty).hasType "P" 5 = true := by decide +kernel
  obtain ⟨around, j, inside, b', hend, hclose, -⟩ :=
    (endTag_closes nestedParagraphs "P" rfl).2 5 hopen htype
  rw [hend, hclose]
  exact ⟨rfl, by decide +kernel, by decide +kernel⟩

end Builder

end Gleaner
