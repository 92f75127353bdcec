import Gleaner.Proofs.Text.Numeral
import Gleaner.Value.Render

/-!
# Sequences and their elements

A list, a collection of nodes and a branch are sequences: loops run over their elements,
access reads an element by the numeral of its place, and the JSON form lists the forms
of all elements. These are three ways to see the same elements.

* `Value.elements?_isSome_iff`: which values are sequences;
* `Value.at?`: the element at a place, with `field?_numeral`: it is what access reads;
* `Value.toJson_of_elements?`: the JSON form of a sequence.
-/

namespace Gleaner.Value

variable {v : Value} {vs : List Value} {i : Nat}

theorem elements?_isSome_iff : v.elements?.isSome ↔
    (∃ is, v = nodes is) ∨ (∃ is, v = branch is) ∨ ∃ items, v = list items := by
  cases v <;> simp [elements?]

/-! ## Elements by their place -/

/-- The element of a sequence at a place, counted from zero. -/
def at? (v : Value) (i : Nat) : Option Value :=
  v.elements?.bind (·[i]?)

theorem at?_of_elements? (h : v.elements? = some vs) (i : Nat) : v.at? i = vs[i]? := by
  rw [at?, h, Option.bind_some]

theorem at?_eq_none_iff : v.at? i = none ↔ ∀ vs, v.elements? = some vs → vs.length ≤ i := by
  simp only [at?, Option.bind_eq_none_iff, List.getElem?_eq_none_iff]

/-- Whether a value has parts that are read by names: the fields of a mapping, or the
attributes of a node. -/
def HasNames : Value → Prop
  | node _ | mapping _ => True
  | _ => False

theorem not_hasNames_of_elements? (h : v.elements? = some vs) : ¬v.HasNames := by
  cases v with
  | node | mapping => cases h
  | _ => exact id

/-- The numeral of a place reads the element there, unless it is a name to the value. -/
theorem field?_numeral (d : Document) (hv : ¬v.HasNames) (hi : i < Text.wordSize) :
    v.field? d (Text.numeral i) = v.at? i := by
  have hplace : Text.unsigned? (Text.numeral i) = some i :=
    (Text.unsigned?_numeral i).trans (if_pos hi)
  cases v with
  | node | mapping => exact (hv trivial).elim
  | nodes is | branch is =>
    rw [field?, hplace, Option.bind_some]
    exact List.getElem?_map.symm
  | list items => rw [field?, hplace, Option.bind_some, at?_of_elements? rfl]
  | null | text | hierarchy | table => rfl

/-! ## The JSON form -/

theorem itemsToJson_eq_map (d : Document) (vs : List Value) :
    itemsToJson d vs = vs.map (toJson d) := by
  induction vs with
  | nil => rfl
  | cons v vs ih => rw [itemsToJson, ih, List.map_cons]

/-- The text of a node in a collection is the JSON form of the node. -/
theorem texts_labels (d : Document) (is : List NodeId) :
    Json.texts (is.map (Hierarchy.label d)) = .list ((is.map node).map (toJson d)) := by
  rw [Json.texts, List.map_map, List.map_map]
  refine congrArg _ (List.map_congr_left fun i _ => ?_)
  rw [Function.comp_apply, Function.comp_apply, toJson]

/-- The JSON form of a sequence lists the forms of its elements, in order. -/
theorem toJson_of_elements? (d : Document) (h : v.elements? = some vs) :
    v.toJson d = .list (vs.map (toJson d)) := by
  cases v with
  | nodes is | branch is =>
    cases h
    rw [toJson, texts_labels]
  | list items =>
    cases h
    rw [toJson, itemsToJson_eq_map]
  | null | text | node | hierarchy | table | mapping => cases h

end Gleaner.Value
