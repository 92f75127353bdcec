import Gleaner.Proofs.Markup.Loading

/-!
# Strict markup

Markup is strict if each start tag has its own end tag, elements do not
overlap, and void elements are written without an end tag. Such markup stands
for a forest, which can be read off it without a stack. The loader, which takes
any markup, reads strict markup as it stands.

* `Denotes`: strict markup and the forest it stands for;
* `Denotes.unique`: it stands for one forest;
* `Denotes.ofEvents_eq`: the loader builds the document of this forest;
* `Denotes.voidsEmpty`: void elements have nothing below them.
-/

namespace Gleaner

namespace Text

theorem toLower_toLower (c : Char) : c.toLower.toLower = c.toLower := by
  have hsmall : ¬(c.toLower.val ≥ 'A'.val ∧ c.toLower.val ≤ 'Z'.val) := by
    unfold Char.toLower
    split
    · rename_i h
      simp only [UInt32.le_iff_toNat_le, ge_iff_le, Char.reduceVal, UInt32.reduceToNat,
        UInt32.toNat_add, UInt32.reduceSub] at h ⊢
      omega
    · assumption
  exact dif_neg hsmall

@[simp] theorem lower_lower (s : String) : lower (lower s) = lower s := by
  simp only [lower, String.toList_ofList, List.map_map]
  exact congrArg String.ofList (List.map_congr_left fun c _ => toLower_toLower c)

theorem sameName_lower (s : String) : sameName (lower s) s = true :=
  sameName_iff.mpr (lower_lower s)

end Text

/-! ## Forests -/

namespace Forest

@[simp] theorem append_empty : ∀ f : Forest, f.append empty = f
  | empty => rfl
  | text s rest => congrArg (text s) (append_empty rest)
  | element type attributes below rest =>
    congrArg (element type attributes below) (append_empty rest)

theorem append_assoc (g h : Forest) :
    ∀ f : Forest, (f.append g).append h = f.append (g.append h)
  | empty => rfl
  | text s rest => congrArg (text s) (append_assoc g h rest)
  | element type attributes below rest =>
    congrArg (element type attributes below) (append_assoc g h rest)

/-- Whether the void elements of a forest have nothing below them. -/
def VoidsEmpty : Forest → Prop
  | empty => True
  | text _ rest => rest.VoidsEmpty
  | element type _ below rest =>
    (Markup.isVoid type → below = empty) ∧ below.VoidsEmpty ∧ rest.VoidsEmpty

/-- A void element of the layout has no children. -/
theorem VoidsEmpty.children_eq_nil {n : Node} :
    ∀ {f : Forest} {start : Nat}, f.VoidsEmpty → n ∈ f.layout start → Markup.isVoid n.type →
      n.children = []
  | empty, _, _, hn, _ => by
    rw [layout] at hn
    cases hn
  | text s rest, start, h, hn, hv => by
    rw [layout, List.mem_cons] at hn
    rcases hn with rfl | hn
    · rfl
    · exact VoidsEmpty.children_eq_nil (f := rest) h hn hv
  | element type attributes below rest, start, ⟨hb, hbelow, hrest⟩, hn, hv => by
    rw [layout, List.mem_cons, List.mem_append] at hn
    rcases hn with rfl | hn | hn
    · rw [hb hv]
      rfl
    · exact hbelow.children_eq_nil hn hv
    · exact hrest.children_eq_nil hn hv

end Forest

namespace Markup

/-! ## Strict markup -/

/-- The attributes of a tag as they stand in a document. -/
def attributesOf (attributes : List (String × String)) : List (String × String) :=
  attributes.map fun (name, value) => (Text.lower name, value)

/-- Whether some events, inside an element or not, are strict markup, and the
forest they stand for. Outside of all elements, text of nothing but blanks
stands for nothing. -/
inductive Denotes : Bool → List Event → Forest → Prop where
  | nil {inside : Bool} : Denotes inside [] .empty
  | text {inside : Bool} {s : String} {rest : List Event} {f : Forest} :
    inside ∨ ¬ Text.isBlankText s → Denotes inside rest f →
      Denotes inside (.text s :: rest) (.text s f)
  | blank {s : String} {rest : List Event} {f : Forest} :
    Text.isBlankText s → Denotes false rest f → Denotes false (.text s :: rest) f
  | cdata {inside : Bool} {s : String} {rest : List Event} {f : Forest} :
    Denotes inside rest f → Denotes inside (.cdata s :: rest) (.text s f)
  | empty {inside : Bool} {type : String} {attributes : List (String × String)}
      {rest : List Event} {f : Forest} : Denotes inside rest f →
    Denotes inside (.empty type attributes :: rest)
      (.element (Text.lower type) (attributesOf attributes) .empty f)
  | element {inside : Bool} {type : String} {attributes : List (String × String)}
      {inner rest : List Event} {below f : Forest} : ¬ isVoid (Text.lower type) →
    Denotes true inner below → Denotes inside rest f →
      Denotes inside (.start type attributes :: (inner ++ .stop type :: rest))
        (.element (Text.lower type) (attributesOf attributes) below f)

/-- The void types are in small letters. -/
theorem isVoid_lower {type : String} (h : isVoid type) : isVoid (Text.lower type) := by
  have hall : ∀ t ∈ voidTypes, Text.lower t = t := by decide
  rwa [hall type (List.contains_iff_mem.mp h)]

/-- An end tag closes the innermost open element if this has its type. -/
theorem feed_stop {type : String} {current : Forest} {e : OpenElement} {outer : List OpenElement}
    (h : Text.sameName e.type type) :
    OpenForest.feed ⟨current, e :: outer⟩ (.stop type) =
      ⟨e.before.append (.element e.type e.attributes current .empty), outer⟩ := by
  rw [OpenForest.feed, OpenForest.closeTag, List.any_cons, h, Bool.true_or, if_pos rfl,
    List.findIdx_cons, h]
  rfl

/-- The loader adds the forest of strict markup to the innermost open element,
or to the top level. -/
theorem Denotes.foldl_feed {inside : Bool} {events : List Event} {f : Forest}
    (h : Denotes inside events f) :
    ∀ o : OpenForest, (inside = true ↔ o.opened ≠ []) →
      events.foldl OpenForest.feed o = { o with current := o.current.append f } := by
  induction h with
  | nil =>
    intro o _
    rw [Forest.append_empty]
    rfl
  | @text inside s rest f hs _ ih =>
    intro o ho
    have hfeed : o.feed (.text s) = o.addText s := by
      refine if_neg fun ⟨hlen, hb⟩ => ?_
      rcases hs with hi | hs
      · exact ho.mp hi (List.length_eq_zero_iff.mp hlen)
      · exact hs hb
    rw [List.foldl_cons, hfeed, ih (o.addText s) ho, OpenForest.addText, Forest.append_assoc]
    rfl
  | blank hs _ ih =>
    intro o ho
    have hempty : o.opened = [] := not_not.mp fun hne => Bool.false_ne_true (ho.mpr hne)
    have hfeed : o.feed (.text _) = o := if_pos ⟨List.length_eq_zero_iff.mpr hempty, hs⟩
    rw [List.foldl_cons, hfeed, ih o ho]
  | @cdata inside s rest f _ ih =>
    intro o ho
    rw [List.foldl_cons, OpenForest.feed, ih (o.addText s) ho, OpenForest.addText,
      Forest.append_assoc]
    rfl
  | @empty inside type attributes rest f _ ih =>
    intro o ho
    have hfeed : o.feed (.empty type attributes) =
        ⟨o.current.append (.element (Text.lower type) (attributesOf attributes) .empty .empty),
          o.opened⟩ := rfl
    rw [List.foldl_cons, hfeed,
      ih ⟨o.current.append (.element (Text.lower type) (attributesOf attributes) .empty .empty),
        o.opened⟩ ho, Forest.append_assoc]
    rfl
  | @element inside type attributes inner rest below f hv _ _ ihInner ihRest =>
    intro o ho
    have hstart : o.feed (.start type attributes) = o.openElement type attributes :=
      if_neg fun h => hv (isVoid_lower h)
    -- The forest before the element waits in `e`, while `inner` builds the one below it.
    let e : OpenElement := ⟨Text.lower type, attributesOf attributes, o.current⟩
    have hinner : inner.foldl OpenForest.feed ⟨.empty, e :: o.opened⟩ = ⟨below, e :: o.opened⟩ :=
      ihInner ⟨.empty, e :: o.opened⟩ (iff_of_true rfl (List.cons_ne_nil _ _))
    have hstop : OpenForest.feed ⟨below, e :: o.opened⟩ (.stop type) =
        ⟨o.current.append (.element e.type e.attributes below .empty), o.opened⟩ :=
      feed_stop (Text.sameName_lower type)
    have hrest := ihRest ⟨o.current.append (.element e.type e.attributes below .empty), o.opened⟩ ho
    rw [Forest.append_assoc] at hrest
    rw [List.foldl_cons, hstart, List.foldl_append, List.foldl_cons]
    exact (congrArg (fun o' => rest.foldl OpenForest.feed (o'.feed (.stop type))) hinner).trans
      ((congrArg (rest.foldl OpenForest.feed) hstop).trans hrest)

/-- Strict markup stands for one forest. -/
theorem Denotes.unique {events : List Event} {f g : Forest} (hf : Denotes false events f)
    (hg : Denotes false events g) : g = f := by
  have ho : (false = true ↔ OpenForest.empty.opened ≠ []) := by simp [OpenForest.empty]
  exact congrArg OpenForest.current
    ((hg.foldl_feed OpenForest.empty ho).symm.trans (hf.foldl_feed OpenForest.empty ho))

/-- The document of strict markup is the one of its forest. -/
theorem Denotes.ofEvents_eq {events : List Event} {f : Forest} (h : Denotes false events f) :
    Document.ofEvents events = Document.ofForest f := by
  have ho : (false = true ↔ OpenForest.empty.opened ≠ []) := by simp [OpenForest.empty]
  rw [Document.ofEvents_eq_ofForest, h.foldl_feed _ ho]
  rfl

/-! ## Void elements -/

/-- Void elements of strict markup have nothing below them. -/
theorem Denotes.voidsEmpty {inside : Bool} {events : List Event} {f : Forest}
    (h : Denotes inside events f) : f.VoidsEmpty := by
  induction h with
  | nil => trivial
  | text _ _ ih | blank _ _ ih | cdata _ ih => exact ih
  | empty _ ih => exact ⟨fun _ => rfl, trivial, ih⟩
  | element hv _ _ ihInner ihRest => exact ⟨fun hv' => absurd hv' hv, ihInner, ihRest⟩

/-- The void elements of a document whose forest leaves them empty. -/
theorem children_eq_nil_of_isVoid {f : Forest} (h : f.VoidsEmpty) {i : NodeId} {n : Node}
    (hn : (Document.ofForest f).node? i = some n) (hv : isVoid n.type) :
    n.children = [] ∧ n.stop = i + 1 := by
  have hmem : n ∈ (Forest.element "#document" [] f .empty).layout 0 := by
    have := Array.mem_of_getElem? hn
    exact List.mem_toArray.mp this
  have hroot : (Forest.element "#document" [] f .empty).VoidsEmpty :=
    ⟨fun hv => absurd hv (by decide), h, trivial⟩
  have hc := hroot.children_eq_nil hmem hv
  exact ⟨hc, (Document.tiled_ofForest f).wellFormed.childless hn hc⟩

end Markup

end Gleaner
