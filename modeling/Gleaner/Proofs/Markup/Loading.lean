import Gleaner.Markup.Event
import Gleaner.Proofs.Document.Building

/-!
# What the loader builds

The loader performs one builder operation, or two, for each event. It does to
an open forest what it does to the builder, so the document of some events is
the one of a forest, and tiled.

* `OpenForest.feed`, `toBuilder_feed`: one event;
* `Document.ofEvents_eq_ofForest`: all events;
* `Document.tiled_ofEvents`, `Document.tiled_parse`: loaded documents are tiled, and
  so are all that are made (`Document.IsMade.tiled`).
-/

namespace Gleaner

open Markup

namespace OpenForest

/-- The open forest after one more event. -/
def feed (o : OpenForest) : Event → OpenForest
  | .start type attributes =>
    let o := o.openElement type attributes
    if isVoid type then o.close else o
  | .empty type attributes => (o.openElement type attributes).close
  | .stop type => o.closeTag type
  | .text s => if o.opened.length = 0 ∧ Text.isBlankText s then o else o.addText s
  | .cdata s => o.addText s

theorem toBuilder_feed (o : OpenForest) (e : Event) :
    o.toBuilder.feed e = (o.feed e).toBuilder := by
  cases e with
  | start type attributes =>
    rw [Builder.feed, feed, toBuilder_openElement]
    split
    · exact toBuilder_close _
    · rfl
  | empty type attributes => rw [Builder.feed, feed, toBuilder_openElement, toBuilder_close]
  | stop type => exact o.toBuilder_closeTag type
  | text s =>
    have hdepth : o.toBuilder.openDepth = o.opened.length := length_places _
    rw [Builder.feed, feed, hdepth]
    split
    · rfl
    · exact o.toBuilder_addText s
  | cdata s => exact o.toBuilder_addText s

theorem toBuilder_foldl_feed (events : List Event) (o : OpenForest) :
    events.foldl Builder.feed o.toBuilder = (events.foldl feed o).toBuilder := by
  induction events generalizing o with
  | nil => rfl
  | cons e events ih => rw [List.foldl_cons, List.foldl_cons, toBuilder_feed, ih]

end OpenForest

namespace Document

/-- The document of some events is the one of the forest that the same events
give. -/
theorem ofEvents_eq_ofForest (events : List Event) :
    ofEvents events = ofForest (events.foldl OpenForest.feed OpenForest.empty).finish := by
  have hempty : Builder.empty = OpenForest.empty.toBuilder := rfl
  rw [ofEvents, hempty, OpenForest.toBuilder_foldl_feed, OpenForest.toBuilder_finish]

theorem tiled_ofEvents (events : List Event) : (ofEvents events).Tiled := by
  rw [ofEvents_eq_ofForest]
  exact tiled_ofForest _

theorem tiled_parse {source : String} {d : Document} (h : parse source = .ok d) : d.Tiled := by
  rw [parse] at h
  cases he : Event.ofSource source with
  | error e =>
    rw [he] at h
    cases h
  | ok events =>
    rw [he] at h
    cases h
    exact tiled_ofEvents events

/-- Whether a document was built by some operations, or loaded. -/
def IsMade (d : Document) : Prop :=
  (∃ operations, d = Builder.build operations) ∨ ∃ source, parse source = .ok d

theorem IsMade.tiled {d : Document} (h : d.IsMade) : d.Tiled := by
  rcases h with ⟨operations, rfl⟩ | ⟨source, h⟩
  · rw [Builder.build_eq_ofForest]
    exact tiled_ofForest _
  · exact tiled_parse h

end Document

end Gleaner
