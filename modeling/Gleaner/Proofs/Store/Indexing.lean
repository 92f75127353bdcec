import Gleaner.Proofs.Run.Branches
import Gleaner.Proofs.Store.Refusal
import Gleaner.Proofs.Value.Operand
import Gleaner.Proofs.Value.Sequence

/-!
# Reading nested sequences by places

The reference `$x.3.1` reads what a loop over the value of `x`, with a loop over its
elements inside it, gives to its turns three and one. If there are not so many elements,
the fault names the first place at which there is none.

* `Value.reach`: the value reached by taking an element at each level;
* `Store.leads_numerals_iff`, `Store.access_numerals_eq_error_iff`: what access by numerals
  gives, and the place at which it fails;
* `Operand.parse_numerals`: the text of such a reference;
* `Value.Shows`, `Store.Reads`: what loops, access and the JSON form show of the elements
  of a sequence, and what the places after the name of a variable read;
* `Store.sequence_views`: the statement for all values.
-/

namespace Gleaner

/-! ## Elements of elements -/

namespace Value

/-- The value reached by taking the element at a place, then the element of that one at
the next place, and so on. -/
def reach (v : Value) (places : List Nat) : Option Value :=
  places.foldlM at? v

theorem reach_cons (v : Value) (i : Nat) (places : List Nat) :
    v.reach (i :: places) = (v.at? i).bind (·.reach places) :=
  List.foldlM_cons

/-- Whether no value in which a place is looked up has names for its parts: to such a value
a numeral is a name as well. -/
def IsIndexed : Value → List Nat → Prop
  | _, [] => True
  | v, i :: places => ¬v.HasNames ∧ ∀ w, v.at? i = some w → w.IsIndexed places

theorem IsIndexed.not_hasNames {i : Nat} {rest : List Nat} {part : Value} :
    ∀ {before : List Nat} {v : Value}, v.IsIndexed (before ++ i :: rest) →
      v.reach before = some part → ¬part.HasNames
  | [], _, h, hreach => by
    cases hreach
    exact h.1
  | j :: before, v, h, hreach => by
    rw [reach_cons, Option.bind_eq_some_iff] at hreach
    obtain ⟨w, hw, hreach⟩ := hreach
    exact (h.2 w hw).not_hasNames hreach

theorem IsIndexed.of_append {rest : List Nat} :
    ∀ {before : List Nat} {v : Value}, v.IsIndexed (before ++ rest) → v.IsIndexed before
  | [], _, _ => trivial
  | _ :: _, _, h => ⟨h.1, fun w hw => (h.2 w hw).of_append⟩

end Value

/-! ## What numerals lead to -/

namespace Store

variable {d : Document} {s : Store} {name : String} {u : Variable} {v w : Value}
  {places : List Nat} {f : Fault}

/-- Access by numerals takes elements, level by level. -/
theorem leads_numerals_iff (hv : v.IsIndexed places) (hplaces : ∀ i ∈ places, i < Text.wordSize) :
    Leads d v (places.map Text.numeral) w ↔ v.reach places = some w := by
  induction places generalizing v with
  | nil =>
    constructor
    · intro h
      cases h
      rfl
    · intro h
      cases h
      exact .nil
  | cons i places ih =>
    obtain ⟨hi, hplaces⟩ := List.forall_mem_cons.mp hplaces
    rw [List.map_cons, leads_cons_iff, Value.field?_numeral d hv.1 hi, Value.reach_cons,
      Option.bind_eq_some_iff]
    exact exists_congr fun part => and_congr_right fun hpart => ih (hv.2 part hpart) hplaces

/-- Access by numerals fails at the first place at which there is no element. -/
theorem access_numerals_eq_error_iff (hv : v.IsIndexed places)
    (hplaces : ∀ i ∈ places, i < Text.wordSize) :
    access d name v (places.map Text.numeral) = .error f ↔
      ∃ before i rest part, places = before ++ i :: rest ∧ v.reach before = some part ∧
        part.at? i = none ∧ f = .entryNotFound name (Text.numeral i) := by
  have hleads : ∀ {before i rest part}, places = before ++ i :: rest →
      (Leads d v (before.map Text.numeral) part ↔ v.reach before = some part) := by
    rintro before i rest part rfl
    exact leads_numerals_iff hv.of_append fun j hj => hplaces j (List.mem_append_left _ hj)
  have hfield : ∀ {before i rest part}, places = before ++ i :: rest →
      v.reach before = some part → part.field? d (Text.numeral i) = part.at? i := by
    rintro before i rest part rfl hreach
    exact Value.field?_numeral d (hv.not_hasNames hreach) (hplaces i (by simp))
  rw [access_eq_error_iff]
  constructor
  · rintro ⟨_, _, _, part, hsegments, hbefore, hnone, hf⟩
    obtain ⟨before, _, hsplit, rfl, hrest⟩ := List.map_eq_append_iff.mp hsegments
    obtain ⟨i, rest, rfl, rfl, rfl⟩ := List.map_eq_cons_iff.mp hrest
    have hreach := (hleads hsplit).mp hbefore
    exact ⟨before, i, rest, part, hsplit, hreach, (hfield hsplit hreach).symm.trans hnone, hf⟩
  · rintro ⟨before, i, rest, part, hsplit, hreach, hnone, hf⟩
    refine ⟨before.map Text.numeral, Text.numeral i, rest.map Text.numeral, part, ?_,
      (hleads hsplit).mpr hreach, (hfield hsplit hreach).trans hnone, hf⟩
    rw [hsplit, List.map_append, List.map_cons]

end Store

/-! ## The texts of references -/

namespace Operand

variable {name : String} {places : List Nat}

/-- What ends in a digit does not end in a brace. -/
theorem not_isBraced_append_numeral (before : String) (i : Nat) :
    ¬IsBraced (before ++ Text.numeral i).toList := by
  rintro ⟨inner, -, hbraced⟩
  have hne : (Text.numeral i).toList ≠ [] := by
    rw [Text.numeral, String.toList_ofList]
    exact Nat.toDigits_ne_nil
  have hlast : (Text.numeral i).toList.getLast? = some '\x7d' := by
    rw [← List.getLast?_append_of_ne_nil before.toList hne, ← String.toList_append, hbraced,
      ← List.cons_append, List.getLast?_concat]
  exact absurd (Text.isAsciiDigit_of_mem_numeral (List.mem_of_getLast? hlast)) (by decide)

theorem ofSegments_numerals (name : String) (h : places ≠ []) :
    ofSegments name (places.map Text.numeral) = path name (places.map Text.numeral) := by
  unfold ofSegments
  split
  · rename_i hnil
    exact (h (List.map_eq_nil_iff.mp hnil)).elim
  · rename_i hpop
    obtain ⟨i, -, -, hi, -⟩ := List.map_eq_cons_iff.mp hpop
    have hp : 'p' ∈ (Text.numeral i).toList := by
      rw [hi]
      decide
    exact absurd (Text.isAsciiDigit_of_mem_numeral hp) (by decide)
  · rfl

/-- A name without dots and the numerals of some places are read as they are written. -/
theorem parse_numerals (hname : name ≠ "") (hdot : '.' ∉ name.toList) (hplaces : places ≠ []) :
    parse ("$" ++ ".".intercalate (name :: places.map Text.numeral)) =
      path name (places.map Text.numeral) := by
  rw [← ofSegments_numerals name hplaces]
  refine parse_intercalate hname (fun part hpart => ?_) ?_
  · rcases List.mem_cons.mp hpart with rfl | hpart
    · exact hdot
    · obtain ⟨i, -, rfl⟩ := List.mem_map.mp hpart
      exact fun hmem => absurd (Text.isAsciiDigit_of_mem_numeral hmem) (by decide)
  · obtain ⟨front, i, rfl⟩ := List.eq_nil_or_concat' places |>.resolve_left hplaces
    rw [List.map_append, List.map_singleton, ← List.cons_append,
      String.intercalate_append_of_ne_nil (List.cons_ne_nil _ _) (List.cons_ne_nil _ _),
      String.intercalate_singleton]
    exact not_isBraced_append_numeral _ i

end Operand

/-! ## The statement -/

/-- What can be seen of the elements of a sequence: they are the same from all sides. -/
structure Value.Shows (d : Document) (v : Value) (vs : List Value) : Prop where
  /-- The JSON form lists the forms of the elements, in order. -/
  json : v.toJson d = .list (vs.map (toJson d))
  /-- The numeral of a place reads the element there, or nothing if there are not so many. -/
  field : ∀ i < Text.wordSize, v.field? d (Text.numeral i) = vs[i]?
  /-- A loop gives its turn at a place the element there. -/
  turn : ∀ {i : Nat} {w : Value}, vs[i]? = some w →
    ∀ {σ : Type} (name : String) (body : Value → Run σ Value),
      Mode.loop.spread name v body = (do
        let _ ← Run.each body .null (vs.take i)
        let last ← body w
        Run.each body last (vs.drop (i + 1)))

theorem Value.shows_of_elements? (d : Document) {v : Value} {vs : List Value}
    (h : v.elements? = some vs) : v.Shows d vs where
  json := toJson_of_elements? d h
  field i hi := by rw [field?_numeral d (not_hasNames_of_elements? h) hi, at?_of_elements? h]
  turn hw σ name body := by
    have hinputs : Mode.loop.inputs? v = some vs := h
    rw [Mode.spread_of_some hinputs]
    exact Run.each_of_getElem? body hw .null

/-- What the places after the name of a variable read from its value. -/
structure Store.Reads (d : Document) (s : Store) (name : String) (v : Value) (places : List Nat) :
    Prop where
  /-- No variable changes. -/
  unchanged : (Change.resolve d (.path name (places.map Text.numeral)) s).2 = s
  /-- The element of the element and so on is read. -/
  ok_iff : ∀ w, (Change.resolve d (.path name (places.map Text.numeral)) s).1 = .ok w ↔
    v.reach places = some w
  /-- The fault names the first place at which there is no element. -/
  error_iff : ∀ f, (Change.resolve d (.path name (places.map Text.numeral)) s).1 = .error f ↔
    ∃ before i rest part, places = before ++ i :: rest ∧ v.reach before = some part ∧
      (∀ vs, part.elements? = some vs → vs.length ≤ i) ∧
      f = .entryNotFound name (Text.numeral i)

namespace Store

theorem reads_of_isIndexed (d : Document) {s : Store} {name : String} {u : Variable}
    {places : List Nat} (hu : s.get? name = some u) (hv : u.value.IsIndexed places)
    (hplaces : ∀ i ∈ places, i < Text.wordSize) : s.Reads d name u.value places where
  unchanged := rfl
  ok_iff w := by
    rw [Change.fst_resolve_path d hu, access_eq_ok_iff, leads_numerals_iff hv hplaces]
  error_iff f := by
    simp only [← Value.at?_eq_none_iff]
    rw [Change.fst_resolve_path d hu, access_numerals_eq_error_iff hv hplaces]

/-- Lists, collections of nodes and branches are what has elements, and loops, reading by
places and the JSON form show the same ones. In nested sequences reading by places takes
an element at each level, and fails at the first place at which there is none. -/
theorem sequence_views (d : Document) :
    (∀ v : Value, v.elements?.isSome ↔
      (∃ is, v = .nodes is) ∨ (∃ is, v = .branch is) ∨ ∃ items, v = .list items) ∧
    (∀ (v : Value) (vs : List Value), v.elements? = some vs → v.Shows d vs) ∧
    ∀ (s : Store) (x : String) (u : Variable) (places : List Nat), s.get? x = some u →
      (∀ i ∈ places, i < Text.wordSize) →
      (x ≠ "" → '.' ∉ x.toList → places ≠ [] →
        Operand.parse ("$" ++ ".".intercalate (x :: places.map Text.numeral)) =
          .path x (places.map Text.numeral)) ∧
      (u.value.IsIndexed places → s.Reads d x u.value places) :=
  ⟨fun _ => Value.elements?_isSome_iff, fun _ _ => Value.shows_of_elements? d,
    fun _ _ _ _ hu hplaces =>
      ⟨Operand.parse_numerals, fun hv => reads_of_isIndexed d hu hv hplaces⟩⟩

/-- A variable with a list in which there is another list, and a collection of nodes. -/
def twoShelves : Store :=
  ⟨[("shelves", ⟨.list, .list [.list [.text "a", .text "b"], .nodes [0]]⟩)]⟩

/-- The second element of the first list is read. The collection of nodes has no second
element, and the place after that one does not count. -/
theorem sequence_views_shelves :
    Operand.parse "$shelves.0.1" = .path "shelves" ["0", "1"] ∧
      Change.resolve Builder.empty.finish (.path "shelves" ["0", "1"]) twoShelves =
        (.ok (.text "b"), twoShelves) ∧
      Change.resolve Builder.empty.finish (.path "shelves" ["1", "1", "7"]) twoShelves =
        (.error (.entryNotFound "shelves" "1"), twoShelves) ∧
      (Value.list [.text "a", .text "b"]).toJson Builder.empty.finish =
        .list [.text "a", .text "b"] := by
  obtain ⟨-, hshows, hreads⟩ := sequence_views Builder.empty.finish
  have hget : twoShelves.get? "shelves" =
      some ⟨.list, .list [.list [.text "a", .text "b"], .nodes [0]]⟩ := by rfl
  obtain ⟨hparse, hfound⟩ := hreads twoShelves "shelves" _ [0, 1] hget (by decide)
  obtain ⟨-, hmissing⟩ := hreads twoShelves "shelves" _ [1, 1, 7] hget (by decide)
  refine ⟨hparse (by decide) (by decide) (by decide), ?_, ?_, ?_⟩
  · have hread := hfound ⟨id, fun w hw => by
      cases hw
      exact ⟨id, fun w hw => by cases hw; trivial⟩⟩
    exact Prod.ext ((hread.ok_iff (.text "b")).mpr rfl) hread.unchanged
  · have hread := hmissing ⟨id, fun w hw => by
      cases hw
      exact ⟨id, fun w hw => by cases hw⟩⟩
    refine Prod.ext ((hread.error_iff _).mpr ⟨[1], 1, [7], .nodes [0], rfl, rfl, ?_, rfl⟩)
      hread.unchanged
    intro vs hvs
    cases hvs
    decide
  · exact (hshows (.list [.text "a", .text "b"]) [.text "a", .text "b"] rfl).json

end Store

end Gleaner
