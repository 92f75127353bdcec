import Mathlib.Data.List.Forall2
import Gleaner.Hierarchy.Build
import Gleaner.Proofs.Markup.Loading
import Gleaner.Proofs.Text.Words
import Gleaner.Table.Projection

/-!
# Names of attributes in filters

An attribute is looked up by its name in any case. So names in a filter may be written in another
case, with one exception: the value of an attribute is read as words only if the filter calls it
exactly `class`, and is compared as a whole under any other spelling of this name.

* `Filter.HasWord`, `Filter.meets_iff`: when the value of an attribute meets a constraint;
* `Filter.Recases`: constraints that differ in the case of the name;
* `Filter.SameRule`, `Filter.accepts_congr`: those that read the value in the same way;
* `Document.isMatch_congr` and the lemmas after it: what is found with a filter;
* `Filter.recasing`: the whole statement.
-/

namespace Gleaner

theorem Text.sameName_congr {a b : String} (h : sameName a b) (s : String) :
    sameName s a = sameName s b := by
  rw [sameName, sameName, sameName_iff.mp h]

theorem Node.attribute?_congr {a b : String} (h : Text.sameName a b) (n : Node) :
    n.attribute? a = n.attribute? b := by
  obtain ⟨content, children, stop⟩ := n
  cases content with
  | element type attributes =>
    simp only [attribute?, Text.sameName_congr h]
  | text s => rfl

/-- An attribute is found under any spelling of its name. -/
theorem Document.attribute?_congr {a b : String} (h : Text.sameName a b) (d : Document)
    (i : NodeId) : d.attribute? i a = d.attribute? i b :=
  congrArg (d.node? i).bind (funext (Node.attribute?_congr h))

namespace Filter

variable {f g : Filter} {p q : String × String} {name expected actual : String}

/-! ## Constraints -/

/-- Whether a text is one of the words of another one. -/
def HasWord (actual expected : String) : Prop :=
  ∃ ws, Text.AreWords actual.toList ws ∧ expected.toList ∈ ws

theorem contains_words_iff : (Text.words actual).contains expected ↔ HasWord actual expected := by
  rw [List.contains_iff_mem, Text.words, List.mem_map]
  constructor
  · rintro ⟨w, hw, rfl⟩
    exact ⟨_, Text.areWords_splitWords _, by rwa [String.toList_ofList]⟩
  · rintro ⟨ws, hws, hmem⟩
    exact ⟨_, hws.splitWords_eq ▸ hmem, String.ofList_toList⟩

theorem meets_iff : meets name expected actual ↔
    if name = "class" then HasWord actual expected else actual = expected := by
  unfold meets
  split
  · exact contains_words_iff
  · exact beq_iff_eq

/-- Whether two constraints ask for the same value of the same attribute, whose name may be written
in another case. -/
structure Recases (p q : String × String) : Prop where
  name : Text.sameName p.1 q.1
  value : p.2 = q.2

/-- Whether they also agree on whether the name is exactly `class`. -/
structure SameRule (p q : String × String) : Prop extends Recases p q where
  isClass : p.1 = "class" ↔ q.1 = "class"

theorem SameRule.meets_eq (h : SameRule p q) (actual : String) :
    meets p.1 p.2 actual = meets q.1 q.2 actual := by
  rw [Bool.eq_iff_iff, meets_iff, meets_iff, h.value]
  simp only [h.isClass]

/-- Filters with the same rules accept the same attributes, if these are looked up in any case. -/
theorem accepts_congr {lookup : String → Option String}
    (hlookup : ∀ a b, Text.sameName a b → lookup a = lookup b)
    (h : List.Forall₂ SameRule f.pairs g.pairs) : f.accepts lookup = g.accepts lookup := by
  obtain ⟨ps⟩ := f
  obtain ⟨qs⟩ := g
  unfold accepts
  dsimp only at h
  induction h with
  | nil => rfl
  | @cons p q ps qs hpq _ ih =>
    rw [List.all_cons, List.all_cons, ih]
    dsimp only
    rw [hlookup _ _ hpq.name]
    cases lookup q.1 with
    | none => rfl
    | some actual => dsimp only; rw [hpq.meets_eq]

/-- A single constraint on `class`, in any spelling. -/
theorem accepts_class_iff (hname : Text.sameName name "class") (d : Document) (i : NodeId) :
    (⟨[(name, expected)]⟩ : Filter).accepts (d.attribute? i) ↔
      ∃ actual, d.attribute? i "class" = some actual ∧
        if name = "class" then HasWord actual expected else actual = expected := by
  unfold accepts
  rw [List.all_cons, List.all_nil, Bool.and_true]
  dsimp only
  rw [d.attribute?_congr hname]
  cases d.attribute? i "class" with
  | none => simp
  | some actual => simp [meets_iff]

end Filter

/-! ## What is found -/

namespace Document

variable {f g : Filter} (h : List.Forall₂ Filter.SameRule f.pairs g.pairs) (d : Document)

include h

theorem isMatch_congr (i : NodeId) (type : String) : d.isMatch i type f = d.isMatch i type g := by
  unfold isMatch
  rw [Filter.accepts_congr (fun _ _ hname => d.attribute?_congr hname i) h]

theorem findAll_congr (scope : NodeId) (type : String) :
    d.findAll scope type f = d.findAll scope type g := by
  unfold findAll
  simp only [isMatch_congr h]

theorem tableAt_congr (source : NodeId) : d.tableAt source f = d.tableAt source g := by
  unfold tableAt findOne
  rw [isMatch_congr h, findAll_congr h]

/-- The same place is found, while the fault for no place shows the filter as it is written. -/
theorem find_congr (type : String) (nodes : List NodeId) (start i : Nat) :
    Marker.find ⟨type, f⟩ d nodes start = .ok i ↔ Marker.find ⟨type, g⟩ d nodes start = .ok i := by
  unfold Marker.find
  simp only [isMatch_congr h]
  split
  · exact Iff.rfl
  · exact iff_of_false nofun nofun

end Document

/-! ## The exception -/

namespace Filter

variable {p q : String × String}

/-- A page with one paragraph of some class. -/
def classPage (cls : String) : Document :=
  Builder.build [.openElement "p" [("class", cls)]]

theorem node?_classPage (cls : String) : (classPage cls).node? 1 =
    some ⟨.element (Text.lower "p") [(Text.lower "class", cls)], [], 2⟩ :=
  rfl

theorem isMatch_classPage_iff {name expected : String} (hname : Text.sameName name "class")
    (cls : String) : (classPage cls).isMatch 1 "p" ⟨[(name, expected)]⟩ ↔
      if name = "class" then HasWord cls expected else cls = expected := by
  have htype : Text.sameName ((classPage cls).nodeType 1) "p" := by
    rw [Document.nodeType, node?_classPage]
    exact (by decide : Text.sameName (Text.lower "p") "p" = true)
  have hattribute : (classPage cls).attribute? 1 "class" = some cls := by
    have hclass : Text.sameName (Text.lower "class") "class" = true := by decide
    simp only [Document.attribute?, node?_classPage, Option.bind_some, Node.attribute?,
      List.find?_cons, hclass, Option.map_some]
  rw [Document.isMatch, htype, Bool.true_and, accepts_class_iff hname, hattribute]
  simp

/-- Not every text has just itself as a word. -/
theorem exists_not_hasWord_iff (expected : String) :
    ∃ cls, ¬(HasWord cls expected ↔ cls = expected) := by
  by_cases h : HasWord expected expected
  · -- The word twice has the word in it.
    obtain ⟨ws, hws, hmem⟩ := h
    have hword : ∀ w ∈ [expected.toList, expected.toList], Text.IsWord w := by
      simpa using hws.isWord _ hmem
    have hcut := Text.areWords_join hword
    refine ⟨String.ofList ([' '].intercalate [expected.toList, expected.toList]), fun hiff => ?_⟩
    have heq := hiff.mp ⟨_, by rwa [String.toList_ofList], List.mem_cons_self⟩
    have hlength := congrArg (fun s : String => s.toList.length) heq
    rw [String.toList_ofList, List.intercalate_cons_cons, List.intercalate_singleton,
      List.length_append, List.length_append, List.length_singleton] at hlength
    omega
  · exact ⟨expected, fun hiff => h (hiff.mpr rfl)⟩

/-- Names that differ in case both mean the class if one of them does. -/
theorem Recases.sameName_class (h : Recases p q) (hclass : p.1 = "class" ∨ q.1 = "class") :
    Text.sameName p.1 "class" ∧ Text.sameName q.1 "class" := by
  have hname := h.name
  rcases hclass with hp | hq
  · rw [hp, Text.sameName_comm] at hname
    exact ⟨hp ▸ Text.sameName_self _, hname⟩
  · rw [hq] at hname
    exact ⟨hname, hq ▸ Text.sameName_self _⟩

/-- The case of a name makes no difference exactly if it does not decide whether the name is
`class`. -/
theorem Recases.isMatch_eq_iff (h : Recases p q) :
    (∀ d : Document, d.IsMade → ∀ i type, d.isMatch i type ⟨[p]⟩ = d.isMatch i type ⟨[q]⟩) ↔
      (p.1 = "class" ↔ q.1 = "class") := by
  constructor
  · intro heq
    by_contra hdiffer
    have hone : ¬p.1 = "class" ↔ q.1 = "class" := not_iff.mp hdiffer
    obtain ⟨hp, hq⟩ := h.sameName_class (or_iff_not_imp_left.mpr hone.mp)
    -- On a page where words and the whole value differ, only one of the two names matches.
    obtain ⟨cls, hcls⟩ := exists_not_hasWord_iff p.2
    have hmatch := heq (classPage cls) (.inl ⟨_, rfl⟩) 1 "p"
    rw [Bool.eq_iff_iff, isMatch_classPage_iff hp, isMatch_classPage_iff hq, ← h.value] at hmatch
    by_cases hclass : p.1 = "class"
    · rw [if_pos hclass, if_neg fun hq => hone.mpr hq hclass] at hmatch
      exact hcls hmatch
    · rw [if_neg hclass, if_pos (hone.mp hclass)] at hmatch
      exact hcls hmatch.symm
  · intro hclass d _ i type
    have hrule : SameRule p q := ⟨h, hclass⟩
    exact Document.isMatch_congr (.cons hrule .nil) d i type

/-- Names in a filter may be written in another case, as long as none becomes `class` or was it
before: the same elements match, so the same elements, tables and markers are found. A constraint
on the class of an element is met by its words under the name `class`, and by its whole value under
any other spelling. So for one constraint, matches stay the same in just these cases. -/
theorem recasing (f g : Filter) (d : Document) :
    (List.Forall₂ SameRule f.pairs g.pairs →
      (∀ i type, d.isMatch i type f = d.isMatch i type g) ∧
      (∀ scope type, d.findAll scope type f = d.findAll scope type g) ∧
      (∀ source, d.tableAt source f = d.tableAt source g) ∧
      ∀ type nodes start i, Marker.find ⟨type, f⟩ d nodes start = .ok i ↔
        Marker.find ⟨type, g⟩ d nodes start = .ok i) ∧
    (∀ name expected i, Text.sameName name "class" →
      ((⟨[(name, expected)]⟩ : Filter).accepts (d.attribute? i) ↔
        ∃ actual, d.attribute? i "class" = some actual ∧
          if name = "class" then HasWord actual expected else actual = expected)) ∧
    ∀ p q, Recases p q →
      ((∀ d : Document, d.IsMade → ∀ i type, d.isMatch i type ⟨[p]⟩ = d.isMatch i type ⟨[q]⟩) ↔
        (p.1 = "class" ↔ q.1 = "class")) := by
  refine ⟨fun h => ?_, fun name expected i hname => accepts_class_iff hname d i,
    fun p q h => h.isMatch_eq_iff⟩
  exact ⟨d.isMatch_congr h, d.findAll_congr h, d.tableAt_congr h, d.find_congr h⟩

/-- The name of an id may be written in capitals. Under a name in capitals, a class is met as a
whole. -/
theorem recasing_capitals :
    List.Forall₂ SameRule [("ID", "main"), ("class", "a")] [("id", "main"), ("class", "a")] ∧
    (classPage "a b").isMatch 1 "p" ⟨[("ID", "main"), ("class", "a")]⟩ =
      (classPage "a b").isMatch 1 "p" ⟨[("id", "main"), ("class", "a")]⟩ ∧
    Text.sameName "CLASS" "class" ∧
    (⟨[("CLASS", "a b")]⟩ : Filter).accepts ((classPage "a b").attribute? 1) ∧
    Recases ("CLASS", "a") ("class", "a") ∧
    ¬∀ d : Document, d.IsMade → ∀ i type,
      d.isMatch i type ⟨[("CLASS", "a")]⟩ = d.isMatch i type ⟨[("class", "a")]⟩ := by
  have hid : SameRule ("ID", "main") ("id", "main") := ⟨⟨by decide, rfl⟩, by decide⟩
  have hsame : SameRule ("class", "a") ("class", "a") := ⟨⟨by decide, rfl⟩, Iff.rfl⟩
  have hrules : List.Forall₂ SameRule [("ID", "main"), ("class", "a")]
      [("id", "main"), ("class", "a")] := .cons hid (.cons hsame .nil)
  have hname : Text.sameName "CLASS" "class" := by decide
  have hrecases : Recases ("CLASS", "a") ("class", "a") := ⟨hname, rfl⟩
  obtain ⟨hcongr, hclass, hexact⟩ := recasing ⟨[("ID", "main"), ("class", "a")]⟩
    ⟨[("id", "main"), ("class", "a")]⟩ (classPage "a b")
  refine ⟨hrules, (hcongr hrules).1 1 "p", hname, ?_, hrecases, ?_⟩
  · refine (hclass "CLASS" "a b" 1 hname).mpr ⟨"a b", by decide +kernel, ?_⟩
    rw [if_neg (by decide)]
  · exact fun heq => absurd ((hexact _ _ hrecases).mp heq) (by decide)

/-- In capitals, the name of the class does not ask for one word of it. -/
theorem recasing_class :
    Recases ("class", "a") ("CLASS", "a") ∧ HasWord "a b" "a" ∧
      (Document.parse "<p class=\"a b\">x</p>").map (fun d =>
        (d.isMatch 1 "p" ⟨[("class", "a")]⟩, d.isMatch 1 "p" ⟨[("CLASS", "a")]⟩,
          d.findAll Document.root "p" ⟨[("CLASS", "a")]⟩)) = .ok (true, false, []) := by
  refine ⟨⟨by decide, rfl⟩, contains_words_iff.mp (by decide), ?_⟩
  decide +kernel

end Filter

end Gleaner
