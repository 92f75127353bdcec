import Gleaner.Proofs.Markup.Strict

/-!
# Lenient markup

The loader takes any markup. What it makes of it is what it makes of the
repaired markup, where end tags that are missing are put in and stray ones are
left out, and this is strict.

* `Event.repair`: markup with its end tags put right;
* `exists_denotes_repair`: repaired markup is strict;
* `OpenForest.finish_repairFrom`: repairing does not change what is loaded;
* `Event.ofEvents_repair`: all of it, for the events of any pieces.
-/

namespace Gleaner

namespace Markup

/-! ## The events of pieces -/

/-- Whether the type in an event, if there is one, is in small letters. -/
def Event.IsSmall : Event → Prop
  | start type _ | empty type _ | stop type => Text.lower type = type
  | text _ | cdata _ => True

theorem Event.isSmall_of_ofPiece {p : Piece} {e : Event} (h : ofPiece p = .ok e) : e.IsSmall := by
  cases p with
  | text raw | cdata content =>
    cases h
    trivial
  | endTag name =>
    cases h
    exact Text.lower_lower _
  | startTag content | emptyTag content =>
    rw [ofPiece] at h
    cases ha : Attribute.ofTag content with
    | error f =>
      rw [ha] at h
      cases h
    | ok attributes =>
      rw [ha] at h
      cases h
      exact Text.lower_lower _

theorem Event.isSmall_of_mapM {pieces : List Piece} :
    ∀ {events : List Event}, pieces.mapM ofPiece = .ok events → ∀ e ∈ events, e.IsSmall := by
  induction pieces with
  | nil =>
    intro events h
    cases h
    nofun
  | cons p pieces ih =>
    intro events h
    rw [List.mapM_cons] at h
    cases hp : ofPiece p with
    | error f =>
      rw [hp] at h
      cases h
    | ok e =>
      cases hps : pieces.mapM ofPiece with
      | error f =>
        rw [hp, hps] at h
        cases h
      | ok es =>
        rw [hp, hps] at h
        cases h
        intro e' he'
        rcases List.mem_cons.mp he' with rfl | he'
        · exact isSmall_of_ofPiece hp
        · exact ih hps e' he'

/-! ## Repair -/

/-- The events with end tags put right, if the elements of the types `opened`
are open before them, the innermost first: void elements are closed at once,
an end tag first closes the elements inside the one it closes, an end tag that
closes nothing is left out, and what is open in the end is closed. -/
def Event.repairFrom : List String → List Event → List Event
  | opened, [] => opened.map .stop
  | opened, .start type attributes :: rest =>
    if isVoid type then .empty type attributes :: repairFrom opened rest
    else .start type attributes :: repairFrom (type :: opened) rest
  | opened, .stop type :: rest =>
    if type ∈ opened then
      (opened.takeWhile (· != type)).map .stop ++
        .stop type :: repairFrom (opened.dropWhile (· != type)).tail rest
    else repairFrom opened rest
  | opened, e :: rest => e :: repairFrom opened rest

/-- The events with end tags put right. -/
def Event.repair (events : List Event) : List Event :=
  repairFrom [] events

/-- The end tag of the innermost of several types closes those before it. -/
theorem Event.repairFrom_stop {type : String} {inner outer : List String} {rest : List Event}
    (h : type ∉ inner) :
    repairFrom (inner ++ type :: outer) (.stop type :: rest) =
      inner.map .stop ++ .stop type :: repairFrom outer rest := by
  have hne : ∀ t ∈ inner, (t != type) = true := fun t ht => bne_iff_ne.mpr fun he => h (he ▸ ht)
  have htake : (inner ++ type :: outer).takeWhile (· != type) = inner := by
    rw [List.takeWhile_append_of_pos hne, List.takeWhile_cons_of_neg (by simp), List.append_nil]
  have hdrop : (inner ++ type :: outer).dropWhile (· != type) = type :: outer := by
    rw [List.dropWhile_append_of_pos hne, List.dropWhile_cons_of_neg (by simp)]
  rw [repairFrom, if_pos List.mem_append_cons_self, htake, hdrop, List.tail_cons]

/-! ## Repaired markup is strict -/

/-- Whether some events close open elements of the types given, the innermost
first, with strict markup before, between and behind the end tags. -/
def Closes : List String → List Event → Prop
  | [], events => ∃ f, Denotes false events f
  | type :: outer, events => ∃ inner rest f, events = inner ++ .stop type :: rest ∧
    Denotes true inner f ∧ Closes outer rest

/-- What can stand in front of strict markup can stand in front of events that
close open elements. -/
theorem Closes.append {opened : List String} {events : List Event} (block : List Event)
    (hblock : ∀ inside events f, Denotes inside events f → ∃ g, Denotes inside (block ++ events) g)
    (h : Closes opened events) : Closes opened (block ++ events) := by
  match opened, h with
  | [], ⟨f, hf⟩ => exact hblock false events f hf
  | _ :: _, ⟨inner, rest, f, he, hf, hrest⟩ =>
    obtain ⟨g, hg⟩ := hblock true inner f hf
    exact ⟨block ++ inner, rest, g, by rw [he, List.append_assoc], hg, hrest⟩

theorem Closes.stops {outer : List String} {events : List Event} (h : Closes outer events) :
    ∀ inner : List String, Closes (inner ++ outer) (inner.map .stop ++ events)
  | [] => h
  | _ :: inner => ⟨[], inner.map .stop ++ events, .empty, rfl, .nil, h.stops inner⟩

theorem closes_repairFrom {events : List Event} (hsmall : ∀ e ∈ events, e.IsSmall)
    (opened : List String) : Closes opened (Event.repairFrom opened events) := by
  induction events generalizing opened with
  | nil =>
    have hnil : Closes [] [] := ⟨.empty, .nil⟩
    have h := hnil.stops opened
    rwa [List.append_nil, List.append_nil] at h
  | cons e rest ih =>
    replace ih := ih fun e he => hsmall e (List.mem_cons_of_mem _ he)
    cases e with
    | start type attributes =>
      have htype : Text.lower type = type := hsmall _ List.mem_cons_self
      rw [Event.repairFrom]
      split
      · exact (ih opened).append [_] fun _ _ _ hf => ⟨_, .empty hf⟩
      · rename_i hv
        -- What closes the new element and those around it closes these after the whole element.
        obtain ⟨inner, rest', f, he, hf, hr⟩ := ih (type :: opened)
        have h := hr.append (.start type attributes :: (inner ++ [.stop type]))
          fun inside es g hg => ⟨_, by
            rw [List.cons_append, List.append_assoc]
            exact .element (htype.symm ▸ hv) hf hg⟩
        rwa [List.cons_append, List.append_assoc, List.singleton_append, ← he] at h
    | empty type attributes =>
      exact (ih opened).append [_] fun _ _ _ hf => ⟨_, .empty hf⟩
    | stop type =>
      by_cases hmem : type ∈ opened
      · obtain ⟨inner, outer, rfl, hni⟩ := List.eq_append_cons_of_mem hmem
        have h := (ih outer).stops (inner ++ [type])
        rw [List.map_append, List.append_assoc, List.append_assoc] at h
        rw [Event.repairFrom_stop hni]
        exact h
      · rw [Event.repairFrom, if_neg hmem]
        exact ih opened
    | text s =>
      refine (ih opened).append [_] fun inside _ _ hf => ?_
      by_cases hs : inside ∨ ¬ Text.isBlankText s
      · exact ⟨_, .text hs hf⟩
      · obtain ⟨hi, hb⟩ := not_or.mp hs
        obtain rfl := Bool.eq_false_iff.mpr hi
        exact ⟨_, .blank (not_not.mp hb) hf⟩
    | cdata s => exact (ih opened).append [_] fun _ _ _ hf => ⟨_, .cdata hf⟩

theorem exists_denotes_repair {events : List Event} (hsmall : ∀ e ∈ events, e.IsSmall) :
    ∃ f, Denotes false (Event.repair events) f :=
  closes_repairFrom hsmall []

end Markup

/-! ## Repair does not change what is loaded -/

namespace OpenForest

open Markup

/-- The types of the open elements, the innermost first. -/
def types (o : OpenForest) : List String :=
  o.opened.map (·.type)

theorem types_close (o : OpenForest) : o.close.types = o.types.tail := by
  obtain ⟨current, _ | ⟨e, outer⟩⟩ := o <;> rfl

/-- An end tag of the type of the innermost open element closes it. -/
theorem feed_stop_of_types {o : OpenForest} {type : String} {outer : List String}
    (h : o.types = type :: outer) : o.feed (.stop type) = o.close := by
  obtain ⟨current, _ | ⟨e, es⟩⟩ := o
  · cases h
  · obtain ⟨rfl, -⟩ := List.cons.inj h
    exact feed_stop (Text.sameName_self _)

/-- An end tag of another type that is open closes the innermost open element
first. -/
theorem feed_stop_of_ne {o : OpenForest} {inner type : String} {outer : List String}
    (h : o.types = inner :: outer) (hne : ¬ Text.sameName inner type) (hmem : type ∈ outer) :
    o.feed (.stop type) = o.close.feed (.stop type) := by
  obtain ⟨current, _ | ⟨e, es⟩⟩ := o
  · cases h
  · obtain ⟨rfl, rfl⟩ := List.cons.inj h
    have hany : es.any (Text.sameName ·.type type) = true := by
      obtain ⟨e', he', rfl⟩ := List.mem_map.mp hmem
      exact List.any_eq_true.mpr ⟨e', he', Text.sameName_self _⟩
    rw [feed, feed, closeTag, closeTag, close, List.any_cons, hany, Bool.or_true, if_pos rfl,
      if_pos rfl, List.findIdx_cons, Bool.eq_false_iff.mpr hne, cond_false, closeMany]
    rfl

theorem feed_stop_of_not_mem {o : OpenForest} {type : String}
    (h : ∀ t ∈ o.types, ¬ Text.sameName t type) : o.feed (.stop type) = o := by
  refine if_neg fun hany => ?_
  obtain ⟨e, he, hs⟩ := List.any_eq_true.mp hany
  exact h e.type (List.mem_map_of_mem he) hs

/-- The end tags of the innermost open elements close these. -/
theorem foldl_feed_stops {outer : List String} :
    ∀ {inner : List String} {o : OpenForest}, o.types = inner ++ outer →
      (inner.map .stop).foldl feed o = o.closeMany inner.length
  | [], _, _ => rfl
  | type :: inner, o, h => by
    have hclose : o.close.types = inner ++ outer := by
      rw [types_close, h]
      rfl
    rw [List.map_cons, List.foldl_cons, feed_stop_of_types h, foldl_feed_stops hclose]
    rfl

theorem types_closeMany {inner outer : List String} {o : OpenForest}
    (h : o.types = inner ++ outer) :
    (o.closeMany inner.length).types = outer := by
  rw [types, opened_closeMany, List.map_drop, ← types, h, List.drop_left]

/-- An end tag does the same after the end tags of the elements inside the one
it closes. -/
theorem feed_stop_closeMany {type : String} {outer : List String} :
    ∀ {inner : List String} {o : OpenForest}, o.types = inner ++ type :: outer →
      (∀ t ∈ inner, ¬ Text.sameName t type) →
        o.feed (.stop type) = (o.closeMany inner.length).feed (.stop type)
  | [], _, _, _ => rfl
  | t :: inner, o, h, hne => by
    have hclose : o.close.types = inner ++ type :: outer := by
      rw [types_close, h]
      rfl
    have hmem : type ∈ inner ++ type :: outer := List.mem_append_right _ List.mem_cons_self
    rw [feed_stop_of_ne h (hne t List.mem_cons_self) hmem,
      feed_stop_closeMany hclose fun t ht => hne t (List.mem_cons_of_mem _ ht)]
    rfl

theorem finish_closeMany_length (o : OpenForest) :
    (o.closeMany o.opened.length).finish = o.finish := by
  have hopened : (o.closeMany o.opened.length).opened = [] := by
    rw [opened_closeMany, List.drop_length]
  rw [finish, hopened]
  rfl

/-- From an open forest on, events and repaired events give the same forest. -/
theorem finish_repairFrom {events : List Event} :
    ∀ {o : OpenForest}, (∀ e ∈ events, e.IsSmall) → (∀ t ∈ o.types, Text.lower t = t) →
      ((Event.repairFrom o.types events).foldl feed o).finish = (events.foldl feed o).finish := by
  induction events with
  | nil =>
    intro o _ _
    have h : o.types = o.types ++ [] := (List.append_nil _).symm
    have hlen : o.types.length = o.opened.length := List.length_map _
    rw [Event.repairFrom, foldl_feed_stops h, hlen, finish_closeMany_length]
    rfl
  | cons e rest ih =>
    intro o hsmall ho
    have hrest : ∀ e ∈ rest, e.IsSmall := fun e he => hsmall e (List.mem_cons_of_mem _ he)
    have he : e.IsSmall := hsmall e List.mem_cons_self
    rw [List.foldl_cons]
    cases e with
    | start type attributes =>
      have he : Text.lower type = type := he
      rw [Event.repairFrom]
      by_cases hv : isVoid type
      · have hfeed : o.feed (.start type attributes) = o.feed (.empty type attributes) := if_pos hv
        rw [if_pos hv, List.foldl_cons, hfeed]
        exact ih (o := o.feed (.empty type attributes)) hrest ho
      · have hfeed : o.feed (.start type attributes) = o.openElement type attributes := if_neg hv
        have htypes : (o.openElement type attributes).types = type :: o.types :=
          congrArg (· :: o.types) he
        rw [if_neg hv, List.foldl_cons, hfeed, ← htypes]
        refine ih hrest fun t ht => ?_
        rw [htypes] at ht
        rcases List.mem_cons.mp ht with rfl | ht
        · exact he
        · exact ho t ht
    | empty type attributes => exact ih (o := o.feed (.empty type attributes)) hrest ho
    | stop type =>
      have he : Text.lower type = type := he
      have hsame : ∀ t ∈ o.types, Text.sameName t type → t = type := fun t ht hs => by
        rw [← ho t ht, ← he]
        exact Text.sameName_iff.mp hs
      by_cases hmem : type ∈ o.types
      · obtain ⟨inner, outer, htypes, hni⟩ := List.eq_append_cons_of_mem hmem
        have hne : ∀ t ∈ inner, ¬ Text.sameName t type := fun t ht hs => by
          have : t = type := hsame t (htypes ▸ List.mem_append_left _ ht) hs
          exact hni (this ▸ ht)
        -- The end tags put in leave the element of `type` innermost, and its own one closes it.
        have hin : (o.closeMany inner.length).types = type :: outer := types_closeMany htypes
        have hfeed : (o.feed (.stop type)).types = outer := by
          rw [feed_stop_closeMany htypes hne, feed_stop_of_types hin, types_close, hin]
          rfl
        have houter : ∀ t ∈ outer, Text.lower t = t := fun t ht =>
          ho t (htypes ▸ List.mem_append_right _ (List.mem_cons_of_mem _ ht))
        rw [htypes, Event.repairFrom_stop hni, List.foldl_append, foldl_feed_stops htypes,
          List.foldl_cons, ← feed_stop_closeMany htypes hne, ← hfeed]
        exact ih hrest (hfeed.symm ▸ houter)
      · have hfeed : o.feed (.stop type) = o :=
          feed_stop_of_not_mem fun t ht hs => hmem (hsame t ht hs ▸ ht)
        rw [Event.repairFrom, if_neg hmem, hfeed]
        exact ih hrest ho
    | text s =>
      have htypes : (o.feed (.text s)).types = o.types := by
        rw [feed]
        split <;> rfl
      have h := ih (o := o.feed (.text s)) hrest (htypes.symm ▸ ho)
      rwa [htypes] at h
    | cdata s => exact ih (o := o.feed (.cdata s)) hrest ho

end OpenForest

namespace Markup

/-! ## The statement -/

/-- The events of any pieces give the document that the repaired events give.
These are strict markup: the document is the one of the forest that they stand
for, and its void elements have nothing below them. -/
theorem Event.ofEvents_repair {pieces : List Piece} {events : List Event}
    (h : pieces.mapM ofPiece = .ok events) :
    ∃ f, (∀ g, Denotes false (repair events) g ↔ g = f) ∧
      Document.ofEvents (repair events) = Document.ofForest f ∧
      Document.ofEvents events = Document.ofForest f ∧
      ∀ i n, (Document.ofEvents events).node? i = some n → isVoid n.type →
        n.children = [] ∧ n.stop = i + 1 := by
  have hsmall := isSmall_of_mapM h
  obtain ⟨f, hf⟩ := exists_denotes_repair hsmall
  have hrepair : Document.ofEvents (repair events) = Document.ofForest f := hf.ofEvents_eq
  have hevents : Document.ofEvents events = Document.ofForest f := by
    rw [← hrepair, Document.ofEvents_eq_ofForest, Document.ofEvents_eq_ofForest]
    exact congrArg Document.ofForest
      (OpenForest.finish_repairFrom (o := OpenForest.empty) hsmall nofun).symm
  refine ⟨f, fun g => ⟨hf.unique, fun hg => hg ▸ hf⟩, hrepair, hevents, fun i n hn hv => ?_⟩
  rw [hevents] at hn
  exact children_eq_nil_of_isVoid hf.voidsEmpty hn hv

/-- A list with a void element in its first item, and no end tags of items;
behind it a stray end tag, blanks and a paragraph that stays open. -/
def listPieces : List Piece :=
  [.startTag "UL".toList, .startTag "li class=a".toList, .text "x".toList, .startTag "br".toList,
    .startTag "LI".toList, .text "y".toList, .endTag "ul".toList, .endTag "ul".toList,
    .text "  ".toList, .startTag "p".toList]

/-- The events of the list. -/
def listEvents : List Event :=
  [.start "ul" [], .start "li" [("class", "a")], .text "x", .start "br" [], .start "li" [],
    .text "y", .stop "ul", .stop "ul", .text "  ", .start "p" []]

/-- Both items and the paragraph get their end tags, the stray one goes. -/
theorem Event.repair_list :
    listPieces.mapM ofPiece = .ok listEvents ∧
    repair listEvents = [.start "ul" [], .start "li" [("class", "a")], .text "x", .empty "br" [],
      .start "li" [], .text "y", .stop "li", .stop "li", .stop "ul", .text "  ", .start "p" [],
      .stop "p"] ∧
    ∃ f, (∀ g, Denotes false (repair listEvents) g ↔ g = f) ∧
      Document.ofEvents (repair listEvents) = Document.ofForest f ∧
      Document.ofEvents listEvents = Document.ofForest f ∧
      ∀ i n, (Document.ofEvents listEvents).node? i = some n → isVoid n.type →
        n.children = [] ∧ n.stop = i + 1 :=
  have h : listPieces.mapM ofPiece = .ok listEvents := by decide +kernel
  ⟨h, by decide +kernel, ofEvents_repair h⟩

end Markup

end Gleaner
