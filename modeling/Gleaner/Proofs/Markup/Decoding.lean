import Mathlib.Data.List.Basic
import Gleaner.Proofs.Fault.Results
import Gleaner.Proofs.Markup.Strict

/-!
# Decoded references

One rule would treat each `&` of a run by itself: a known reference becomes its character, and any
other `&` stays. The loader has another one. It decodes a run only if every `&` in it starts a known
reference, so a run with references of both kinds stays as it is.

* `Decodes`, `existsUnique_decodes`: runs decoded reference by reference;
* `Decodes.decode?_eq`: when a run is decoded as a whole;
* `StoredAs`, `StoredAs.decodes_iff`: what becomes of a run, and when the two rules agree;
* `Piece.Shows`, `Event.shows_of_ofPiece`: the runs in pieces and in events;
* `Builder.addedBy`, `Document.contents_ofEvents`: the contents of the nodes that are built;
* `decoding`: the whole statement.
-/

namespace Gleaner

namespace Markup

variable {name cs ds run stored : List Char} {c : Char} {P : List Char → Prop}

/-! ## Reference by reference -/

/-- Whether a name, which ends at a semicolon, refers to a character. -/
structure Refers (name : List Char) (c : Char) : Prop where
  noAmpersand : '&' ∉ name
  noSemicolon : ';' ∉ name
  referent : referent? name = some c

/-- Whether what stands behind an `&` makes it the start of a known reference. -/
def StartsReference (cs : List Char) : Prop :=
  ∃ name c rest, Refers name c ∧ cs = name ++ ';' :: rest

/-- A run and what it is when each `&` is treated by itself. -/
inductive Decodes : List Char → List Char → Prop where
  | nil : Decodes [] []
  | plain {c : Char} {cs ds : List Char} : c ≠ '&' → Decodes cs ds → Decodes (c :: cs) (c :: ds)
  | reference {name : List Char} {c : Char} {cs ds : List Char} : Refers name c → Decodes cs ds →
    Decodes ('&' :: (name ++ ';' :: cs)) (c :: ds)
  | stray {cs ds : List Char} : ¬StartsReference cs → Decodes cs ds →
    Decodes ('&' :: cs) ('&' :: ds)

theorem not_startsReference_nil : ¬StartsReference [] := by
  rintro ⟨name, c, rest, -, h⟩
  exact absurd h.symm (List.append_ne_nil_of_right_ne_nil _ (List.cons_ne_nil _ _))

theorem exists_decodes (cs : List Char) : ∃ ds, Decodes cs ds := by
  induction hn : cs.length using Nat.strong_induction_on generalizing cs with
  | h n ih =>
    subst hn
    cases cs with
    | nil => exact ⟨[], .nil⟩
    | cons c cs =>
      by_cases hc : c = '&'
      · subst hc
        by_cases hs : StartsReference cs
        · obtain ⟨name, c, rest, hname, rfl⟩ := hs
          obtain ⟨ds, hds⟩ := ih rest.length (by simp; omega) rest rfl
          exact ⟨_, .reference hname hds⟩
        · obtain ⟨ds, hds⟩ := ih cs.length (by simp) cs rfl
          exact ⟨_, .stray hs hds⟩
      · obtain ⟨ds, hds⟩ := ih cs.length (by simp) cs rfl
        exact ⟨_, .plain hc hds⟩

theorem Refers.takeWhile_eq (h : Refers name c) (cs : List Char) :
    (name ++ ';' :: cs).takeWhile (· ≠ ';') = name := by
  have hne : ∀ a ∈ name, decide (a ≠ ';') = true := fun a ha =>
    decide_eq_true fun he => h.noSemicolon (he ▸ ha)
  rw [List.takeWhile_append_of_pos hne, List.takeWhile_cons_of_neg (by decide), List.append_nil]

/-- A reference ends at the first semicolon, so there is one way to read it. -/
theorem Refers.unique {name' cs' : List Char} {c' : Char} (h : Refers name c)
    (h' : Refers name' c') (heq : name ++ ';' :: cs = name' ++ ';' :: cs') : c = c' ∧ cs = cs' := by
  have hname := congrArg (List.takeWhile (· ≠ ';')) heq
  rw [h.takeWhile_eq, h'.takeWhile_eq] at hname
  subst hname
  exact ⟨Option.some.inj (h.referent.symm.trans h'.referent),
    (List.cons.inj (List.append_cancel_left heq)).2⟩

theorem Decodes.unique (h : Decodes cs ds) : ∀ {ds' : List Char}, Decodes cs ds' → ds = ds' := by
  induction h with
  | nil =>
    intro ds' h'
    cases h'
    rfl
  | plain hc _ ih =>
    intro ds' h'
    cases h' with
    | plain _ h' => rw [ih h']
    | reference | stray => exact absurd rfl hc
  | @reference name c cs ds hname _ ih =>
    intro ds' h'
    generalize hcs : name ++ ';' :: cs = cs' at h'
    cases h' with
    | plain hc => exact absurd rfl hc
    | reference hname' h' =>
      obtain ⟨rfl, rfl⟩ := hname.unique hname' hcs
      rw [ih h']
    | stray hs => exact absurd ⟨_, _, _, hname, hcs.symm⟩ hs
  | @stray cs ds hs _ ih =>
    intro ds' h'
    generalize hcs : cs = cs' at h'
    cases h' with
    | plain hc => exact absurd rfl hc
    | reference hname => exact absurd ⟨_, _, _, hname, hcs⟩ hs
    | stray _ h' => rw [ih (hcs ▸ h')]

theorem existsUnique_decodes (cs : List Char) : ∃! ds, Decodes cs ds :=
  (exists_decodes cs).imp fun _ h => ⟨h, fun _ h' => h'.unique h⟩

theorem Decodes.length_le (h : Decodes cs ds) : ds.length ≤ cs.length := by
  induction h with
  | nil => exact le_rfl
  | plain _ _ ih | stray _ _ ih => exact Nat.succ_le_succ ih
  | reference _ _ ih => simp only [List.length_cons, List.length_append]; omega

/-! ## All references of a run -/

/-- Whether what stands behind each `&` of a run is as given. -/
def EachAmpersand (P : List Char → Prop) (run : List Char) : Prop :=
  ∀ rest, '&' :: rest <:+ run → P rest

theorem eachAmpersand_nil : EachAmpersand P [] :=
  fun _ h => absurd (List.suffix_nil.mp h) (List.cons_ne_nil _ _)

theorem eachAmpersand_cons_of_ne (hc : c ≠ '&') :
    EachAmpersand P (c :: cs) ↔ EachAmpersand P cs := by
  refine forall_congr' fun rest => imp_congr_left ?_
  rw [List.suffix_cons_iff]
  exact or_iff_right fun h => hc (List.cons.inj h).1.symm

theorem eachAmpersand_ampersand : EachAmpersand P ('&' :: cs) ↔ P cs ∧ EachAmpersand P cs := by
  simp only [EachAmpersand, List.suffix_cons_iff, List.cons.injEq, true_and, or_imp, forall_and,
    forall_eq]

/-- The name of a reference has no `&` in it. -/
theorem eachAmpersand_name (hname : '&' ∉ name) :
    EachAmpersand P (name ++ ';' :: cs) ↔ EachAmpersand P cs := by
  induction name with
  | nil => exact eachAmpersand_cons_of_ne (by decide)
  | cons a name ih =>
    obtain ⟨ha, hname⟩ := List.ne_and_not_mem_of_not_mem_cons hname
    rw [List.cons_append, eachAmpersand_cons_of_ne (Ne.symm ha), ih hname]

theorem Refers.eachAmpersand_iff (h : Refers name c) :
    EachAmpersand StartsReference ('&' :: (name ++ ';' :: cs)) ↔
      EachAmpersand StartsReference cs := by
  rw [eachAmpersand_ampersand, eachAmpersand_name h.noAmpersand]
  exact and_iff_right ⟨_, _, _, h, rfl⟩

/-- Nothing in a run is decoded exactly if no `&` in it starts a known reference. -/
theorem Decodes.eq_self_iff (h : Decodes cs ds) :
    ds = cs ↔ EachAmpersand (¬StartsReference ·) cs := by
  induction h with
  | nil => exact iff_of_true rfl eachAmpersand_nil
  | plain hc _ ih => rw [eachAmpersand_cons_of_ne hc, List.cons.injEq, eq_self, true_and, ih]
  | @reference name c cs ds hname h ih =>
    refine iff_of_false (fun heq => ?_) fun hnone => ?_
    · have hlength := congrArg List.length heq
      have := h.length_le
      simp only [List.length_cons, List.length_append] at hlength
      omega
    · exact (eachAmpersand_ampersand.mp hnone).1 ⟨_, _, _, hname, rfl⟩
  | stray hs _ ih =>
    rw [eachAmpersand_ampersand, List.cons.injEq, eq_self, true_and, ih]
    exact (and_iff_right hs).symm

/-! ## Runs as a whole -/

/-- Inside a reference, up to its semicolon. The first characters of its name are in `acc`. -/
theorem decodeFrom?_name : ∀ {name : List Char} (acc : List Char), '&' ∉ name → ';' ∉ name →
    decodeFrom? (some acc) (name ++ ';' :: cs) =
      (referent? (acc.reverse ++ name)).bind fun c => (decode? cs).map (c :: ·)
  | [], acc, _, _ => by
    rw [List.nil_append, List.append_nil, decodeFrom?, if_neg (by decide), if_pos rfl]
    cases referent? acc.reverse <;> rfl
  | a :: name, acc, hamp, hsemi => by
    obtain ⟨hamp, hamps⟩ := List.ne_and_not_mem_of_not_mem_cons hamp
    obtain ⟨hsemi, hsemis⟩ := List.ne_and_not_mem_of_not_mem_cons hsemi
    rw [List.cons_append, decodeFrom?, if_neg (Ne.symm hamp), if_neg (Ne.symm hsemi),
      decodeFrom?_name (a :: acc) hamps hsemis, List.reverse_cons, List.append_assoc]
    rfl

/-- A reference that is decoded has a name, up to a semicolon, that refers to a character. -/
theorem exists_of_decodeFrom? : ∀ {cs : List Char} {acc : List Char},
    decodeFrom? (some acc) cs = some ds → ∃ name c rest, '&' ∉ name ∧ ';' ∉ name ∧
      referent? (acc.reverse ++ name) = some c ∧ cs = name ++ ';' :: rest
  | [], _, h => by
    rw [decodeFrom?] at h
    cases h
  | a :: cs, acc, h => by
    rw [decodeFrom?] at h
    split at h
    · cases h
    · rename_i hamp
      split at h
      · rename_i hsemi
        subst hsemi
        cases hc : referent? acc.reverse with
        | none =>
          rw [hc] at h
          cases h
        | some c =>
          exact ⟨[], c, cs, List.not_mem_nil, List.not_mem_nil, by rwa [List.append_nil], rfl⟩
      · rename_i hsemi
        obtain ⟨name, c, rest, hamps, hsemis, hc, rfl⟩ := exists_of_decodeFrom? h
        rw [List.reverse_cons, List.append_assoc] at hc
        exact ⟨a :: name, c, rest, List.not_mem_cons_of_ne_of_not_mem (Ne.symm hamp) hamps,
          List.not_mem_cons_of_ne_of_not_mem (Ne.symm hsemi) hsemis, hc, rfl⟩

theorem decode?_cons_of_ne (hc : c ≠ '&') : decode? (c :: cs) = (decode? cs).map (c :: ·) := by
  rw [decode?, decodeFrom?, if_neg hc, decode?]

theorem decode?_ampersand : decode? ('&' :: cs) = decodeFrom? (some []) cs := by
  rw [decode?, decodeFrom?, if_pos rfl]

theorem Refers.decode?_eq (h : Refers name c) :
    decode? ('&' :: (name ++ ';' :: cs)) = (decode? cs).map (c :: ·) := by
  rw [decode?_ampersand, decodeFrom?_name [] h.noAmpersand h.noSemicolon, List.reverse_nil,
    List.nil_append, h.referent, Option.bind_some]

theorem decode?_stray (h : ¬StartsReference cs) : decode? ('&' :: cs) = none := by
  rw [decode?_ampersand, Option.eq_none_iff_forall_ne_some]
  intro ds hds
  obtain ⟨name, c, rest, hamp, hsemi, hc, rfl⟩ := exists_of_decodeFrom? hds
  exact h ⟨name, c, rest, ⟨hamp, hsemi, hc⟩, rfl⟩

open Classical in
/-- A run is decoded as a whole exactly if every `&` in it starts a known reference. -/
theorem Decodes.decode?_eq (h : Decodes cs ds) :
    decode? cs = if EachAmpersand StartsReference cs then some ds else none := by
  induction h with
  | nil => rw [if_pos eachAmpersand_nil]; rfl
  | plain hc _ ih =>
    simp only [decode?_cons_of_ne hc, ih, eachAmpersand_cons_of_ne hc]
    split <;> rfl
  | reference hname _ ih =>
    simp only [hname.decode?_eq, ih, hname.eachAmpersand_iff]
    split <;> rfl
  | stray hs _ _ =>
    rw [decode?_stray hs, if_neg fun hall => hs (eachAmpersand_ampersand.mp hall).1]

/-- A run and what the loader keeps of it: what it is when each `&` is treated by itself, if all of
them start known references, and otherwise the run as it is. -/
def StoredAs (run stored : List Char) : Prop :=
  (EachAmpersand StartsReference run ∧ Decodes run stored) ∨
    (¬EachAmpersand StartsReference run ∧ stored = run)

theorem storedAs_decode (run : List Char) : StoredAs run (decode run) := by
  obtain ⟨ds, hds⟩ := exists_decodes run
  rw [decode, hds.decode?_eq]
  by_cases hall : EachAmpersand StartsReference run
  · rw [if_pos hall]
    exact .inl ⟨hall, hds⟩
  · rw [if_neg hall]
    exact .inr ⟨hall, rfl⟩

theorem StoredAs.unique {stored' : List Char} (h : StoredAs run stored)
    (h' : StoredAs run stored') : stored = stored' := by
  obtain ⟨hall, hdecodes⟩ | ⟨hall, rfl⟩ := h
  · obtain ⟨-, hdecodes'⟩ | ⟨hnot, -⟩ := h'
    · exact hdecodes.unique hdecodes'
    · exact absurd hall hnot
  · obtain ⟨hall', -⟩ | ⟨-, rfl⟩ := h'
    · exact absurd hall' hall
    · rfl

/-- Each `&` of a run is treated by itself exactly if all of them start known references or none
does. -/
theorem StoredAs.decodes_iff (h : StoredAs run stored) : Decodes run stored ↔
    EachAmpersand StartsReference run ∨ EachAmpersand (¬StartsReference ·) run := by
  obtain ⟨hall, hdecodes⟩ | ⟨hall, rfl⟩ := h
  · exact iff_of_true hdecodes (.inl hall)
  · rw [or_iff_right hall]
    obtain ⟨ds, hds⟩ := exists_decodes stored
    exact ⟨fun h => h.eq_self_iff.mp rfl, fun hnone => hds.eq_self_iff.mpr hnone ▸ hds⟩

/-! ## Runs in tags and texts -/

/-- Whether the attributes of a tag, as it is written, are these. -/
def TagShows (content : List Char) (attributes : List (String × String)) : Prop :=
  ∃ written, Attribute.scan [] .between (String.ofList (Attribute.tagName content)).utf8ByteSize
      (content.drop (Attribute.tagName content).length) = .ok written ∧
    List.Forall₂ (fun w a => a.1 = String.ofList w.1 ∧ StoredAs w.2 a.2.toList) written attributes

theorem tagShows_of_ofTag {content : List Char} {attributes : List (String × String)}
    (h : Attribute.ofTag content = .ok attributes) : TagShows content attributes := by
  obtain ⟨written, hscan, hmap⟩ := bind_eq_ok.mp h
  refine ⟨written, hscan, ?_⟩
  cases hmap
  rw [List.forall₂_map_right_iff, List.forall₂_same]
  intro w _
  refine ⟨rfl, ?_⟩
  rw [String.toList_ofList]
  exact storedAs_decode w.2

/-- A piece of the source and its event: the runs in it are those that are stored. -/
inductive Piece.Shows : Piece → Event → Prop where
  | text {raw : List Char} {s : String} : StoredAs raw s.toList → Shows (.text raw) (.text s)
  | cdata {content : List Char} : Shows (.cdata content) (.cdata (String.ofList content))
  | startTag {content : List Char} {attributes : List (String × String)} :
    TagShows content attributes → Shows (.startTag content)
      (.start (Text.lower (String.ofList (Attribute.tagName content))) attributes)
  | emptyTag {content : List Char} {attributes : List (String × String)} :
    TagShows content attributes → Shows (.emptyTag content)
      (.empty (Text.lower (String.ofList (Attribute.tagName content))) attributes)
  | endTag {name : List Char} : Shows (.endTag name) (.stop (Text.lower (String.ofList name)))

theorem Event.shows_of_ofPiece {p : Piece} {e : Event} (h : ofPiece p = .ok e) : p.Shows e := by
  cases p with
  | text raw =>
    cases h
    refine .text ?_
    rw [String.toList_ofList]
    exact storedAs_decode raw
  | cdata content =>
    cases h
    exact .cdata
  | startTag content =>
    obtain ⟨attributes, hattributes, h⟩ := bind_eq_ok.mp h
    cases h
    exact .startTag (tagShows_of_ofTag hattributes)
  | emptyTag content =>
    obtain ⟨attributes, hattributes, h⟩ := bind_eq_ok.mp h
    cases h
    exact .emptyTag (tagShows_of_ofTag hattributes)
  | endTag name =>
    cases h
    exact .endTag

theorem Event.exists_pieces {source : String} {events : List Event}
    (h : ofSource source = .ok events) :
    ∃ pieces, Piece.ofSource source = (pieces, none) ∧ List.Forall₂ Piece.Shows pieces events := by
  rw [ofSource] at h
  generalize Piece.ofSource source = read at h ⊢
  obtain ⟨pieces, fault⟩ := read
  obtain ⟨events', hevents, h⟩ := bind_eq_ok.mp h
  cases fault with
  | some fault => cases h
  | none =>
    cases h
    refine ⟨pieces, rfl, ?_⟩
    cases hm : pieces.mapM ofPiece with
    | error f =>
      rw [hm] at hevents
      cases hevents
    | ok events'' =>
      rw [hm] at hevents
      cases hevents
      exact (mapM_eq_ok_iff.mp hm).imp fun _ _ => shows_of_ofPiece

end Markup

open Markup

/-! ## Contents of the nodes -/

namespace Builder

variable (b : Builder)

/-- What the nodes are, in document order. -/
def contents : List NodeContent :=
  b.nodes.toList.map Node.content

/-- The contents of the nodes that an event adds. -/
def added : Event → List NodeContent
  | .start type attributes | .empty type attributes =>
    [.element (Text.lower type) (attributesOf attributes)]
  | .stop _ => []
  | .text s => if b.openDepth = 0 ∧ Text.isBlankText s then [] else [.text s]
  | .cdata s => [.text s]

/-- The contents of the nodes that some events add. -/
def addedBy : Builder → List Event → List NodeContent
  | _, [] => []
  | b, e :: events => b.added e ++ (b.feed e).addedBy events

theorem map_content_modify (nodes : Array Node) (i : Nat) {f : Node → Node}
    (hf : ∀ n, (f n).content = n.content) :
    (nodes.modify i f).toList.map Node.content = nodes.toList.map Node.content := by
  refine List.ext_getElem? fun j => ?_
  rw [List.getElem?_map, List.getElem?_map, Array.getElem?_toList, Array.getElem?_toList,
    Array.getElem?_modify]
  split
  · rw [Option.map_map]
    exact congrArg (Option.map · _) (funext hf)
  · rfl

theorem contents_add (content : NodeContent) :
    (b.add content).contents = b.contents ++ [content] := by
  rw [contents, add, Array.toList_push, List.map_append]
  exact congrArg (· ++ [content]) (map_content_modify _ _ fun _ => rfl)

theorem contents_openElement (type : String) (attributes : List (String × String)) :
    (b.openElement type attributes).contents =
      b.contents ++ [.element (Text.lower type) (attributesOf attributes)] :=
  b.contents_add _

theorem contents_close : b.close.contents = b.contents := by
  obtain ⟨nodes, opened⟩ := b
  cases opened with
  | nil => rfl
  | cons i rest => exact map_content_modify _ _ fun _ => rfl

theorem contents_closeMany : ∀ (n : Nat) (b : Builder), (b.closeMany n).contents = b.contents
  | 0, _ => rfl
  | n + 1, b => by rw [closeMany, contents_closeMany n, contents_close]

theorem contents_closeTag (type : String) : (b.closeTag type).contents = b.contents := by
  unfold closeTag
  split
  · exact contents_closeMany _ b
  · rfl

theorem contents_feed (e : Event) : (b.feed e).contents = b.contents ++ b.added e := by
  cases e with
  | start type attributes =>
    rw [feed, added, ← contents_openElement]
    split
    · exact contents_close _
    · rfl
  | empty type attributes => rw [feed, contents_close, contents_openElement, added]
  | stop type => rw [feed, contents_closeTag, added, List.append_nil]
  | text s =>
    rw [feed, added]
    split
    · rw [List.append_nil]
    · exact b.contents_add _
  | cdata s => exact b.contents_add _

theorem contents_foldl_feed : ∀ (events : List Event) (b : Builder),
    (events.foldl feed b).contents = b.contents ++ b.addedBy events
  | [], b => (List.append_nil _).symm
  | e :: events, b => by
    rw [List.foldl_cons, contents_foldl_feed events, contents_feed, addedBy, List.append_assoc]

/-- The end of building changes no contents. -/
theorem contents_finish : b.finish.nodes.toList.map Node.content = b.contents := by
  rw [← contents_closeMany b.openDepth b]
  exact map_content_modify _ _ fun _ => rfl

end Builder

theorem Document.contents_ofEvents (events : List Event) :
    (ofEvents events).nodes.toList.map Node.content =
      .element "#document" [] :: Builder.empty.addedBy events := by
  rw [ofEvents, Builder.contents_finish, Builder.contents_foldl_feed]
  rfl

namespace Markup

/-- The nodes of a loaded document are those of the texts and tags of its source, in order. A run of
text, or the value of an attribute, is stored with its references decoded if every `&` in it starts
a known reference, and as it is written if not. So known references are decoded whatever else stands
in a run, and other `&` are kept, exactly in runs where all `&` start known references or none
does. -/
theorem decoding (source : String) (run : List Char) :
    (∀ d, Document.parse source = .ok d → ∃ pieces events,
      Piece.ofSource source = (pieces, none) ∧ List.Forall₂ Piece.Shows pieces events ∧
      d.nodes.toList.map Node.content =
        .element "#document" [] :: Builder.empty.addedBy events) ∧
    (∃! ds, Decodes run ds) ∧ (∃! stored, StoredAs run stored) ∧
    ∀ stored, StoredAs run stored → (Decodes run stored ↔
      EachAmpersand StartsReference run ∨ EachAmpersand (¬StartsReference ·) run) := by
  refine ⟨fun d h => ?_, existsUnique_decodes run,
    ⟨decode run, storedAs_decode run, fun _ h => h.unique (storedAs_decode run)⟩,
    fun stored h => h.decodes_iff⟩
  obtain ⟨events, hevents, rfl⟩ := map_eq_ok.mp h
  obtain ⟨pieces, hpieces, hshows⟩ := Event.exists_pieces hevents
  exact ⟨pieces, events, hpieces, hshows, Document.contents_ofEvents events⟩

theorem refers_lt : Refers "lt".toList '<' :=
  ⟨by decide, by decide, by decide⟩

/-- The value of the title is decoded. The text has an `&` that starts no reference, so it is kept
as it is written, with the reference in it. -/
theorem decoding_paragraph :
    (∃ d, Document.parse "<p title=\"a &amp; b\">&lt; &</p>" = .ok d ∧
      d.nodes.toList.map Node.content =
        [.element "#document" [], .element "p" [("title", "a & b")], .text "&lt; &"] ∧
      ∃ pieces events, Piece.ofSource "<p title=\"a &amp; b\">&lt; &</p>" = (pieces, none) ∧
        List.Forall₂ Piece.Shows pieces events ∧
        d.nodes.toList.map Node.content =
          .element "#document" [] :: Builder.empty.addedBy events) ∧
    StoredAs "&lt; &".toList "&lt; &".toList ∧ ¬Decodes "&lt; &".toList "&lt; &".toList := by
  obtain ⟨hloaded, -, -, hrules⟩ :=
    decoding "<p title=\"a &amp; b\">&lt; &</p>" "&lt; &".toList
  have hparse : Document.parse "<p title=\"a &amp; b\">&lt; &</p>" =
      .ok (Document.ofEvents [.start "p" [("title", "a & b")], .text "&lt; &", .stop "p"]) := by
    decide +kernel
  have hstored : StoredAs "&lt; &".toList "&lt; &".toList := by
    have := storedAs_decode "&lt; &".toList
    rwa [show decode "&lt; &".toList = "&lt; &".toList by decide] at this
  refine ⟨⟨_, hparse, by decide, hloaded _ hparse⟩, hstored, fun hdecodes => ?_⟩
  rcases (hrules _ hstored).mp hdecodes with hall | hnone
  · exact not_startsReference_nil (hall [] (by decide))
  · exact hnone "lt; &".toList (by decide) ⟨_, _, " &".toList, refers_lt, by decide⟩

/-- One stray `&` behind it, and a known reference is not decoded, in a text or in an attribute. -/
theorem decoding_stray :
    Decodes "&lt; &".toList "< &".toList ∧ ¬Decodes "&lt; &".toList "&lt; &".toList ∧
    (Document.parse "<p title=\"&lt; &\">&lt; &</p>").map (·.nodes.toList.map Node.content) =
      .ok [.element "#document" [], .element "p" [("title", "&lt; &")], .text "&lt; &"] := by
  have hdecodes : Decodes "&lt; &".toList "< &".toList :=
    .reference refers_lt (.plain (by decide) (.stray not_startsReference_nil .nil))
  refine ⟨hdecodes, fun h => ?_, by decide +kernel⟩
  exact absurd (hdecodes.unique h) (by decide)

end Markup

end Gleaner
