import Gleaner.Document.Builder
import Gleaner.Markup.Piece

/-!
# From markup to documents

The events of a source are its pieces with tags taken apart and text decoded.
A document is built from them without ever failing: an element without an end
tag is closed by the end of the element around it, an end tag without an open
element of its type closes nothing, and void elements such as `br` are closed
as soon as they are opened.

* `Event.ofPiece`: the event of a piece;
* `Builder.feed`: a builder after one more event;
* `Document.ofEvents`: the document of some events;
* `Document.parse`: the document of a source.
-/

namespace Gleaner

namespace Markup

inductive Event where
  | start (type : String) (attributes : List (String × String))
  /-- An element that is closed at once. -/
  | empty (type : String) (attributes : List (String × String))
  | stop (type : String)
  | text (s : String)
  | cdata (s : String)
  deriving DecidableEq, Repr

/-- The types of the elements that hold nothing and have no end tag. -/
def voidTypes : List String :=
  ["area", "base", "br", "col", "embed", "hr", "img", "input", "link", "meta", "source", "track",
    "wbr"]

/-- Whether elements of a type hold nothing. -/
def isVoid (type : String) : Bool :=
  voidTypes.contains type

/-- The event of a piece. -/
def Event.ofPiece : Piece → Except AttributeFault Event
  | .text raw => .ok (.text (String.ofList (decode raw)))
  | .cdata content => .ok (.cdata (String.ofList content))
  | .startTag content => do
    let attributes ← Attribute.ofTag content
    return .start (Text.lower (String.ofList (Attribute.tagName content))) attributes
  | .emptyTag content => do
    let attributes ← Attribute.ofTag content
    return .empty (Text.lower (String.ofList (Attribute.tagName content))) attributes
  | .endTag name => .ok (.stop (Text.lower (String.ofList name)))

/-- The events of a source. A fault in a tag that was read comes before the
fault that stopped the reader. -/
def Event.ofSource (source : String) : Except DocumentFault (List Event) := do
  let (pieces, fault) := Piece.ofSource source
  let events ← (pieces.mapM Event.ofPiece).mapError .badAttribute
  match fault with
  | some (position, fault) => .error (.malformed position fault)
  | none => return events

end Markup

open Markup

/-- The builder after one more event. Text of nothing but blanks counts only
inside an element, where it separates words. -/
def Builder.feed (b : Builder) : Event → Builder
  | .start type attributes =>
    let b := b.openElement type attributes
    if isVoid type then b.close else b
  | .empty type attributes => (b.openElement type attributes).close
  | .stop type => b.closeTag type
  | .text s => if b.openDepth = 0 ∧ Text.isBlankText s then b else b.addText s
  | .cdata s => b.addText s

namespace Document

/-- The document of some events. -/
def ofEvents (events : List Event) : Document :=
  (events.foldl Builder.feed Builder.empty).finish

/-- The document of a source. -/
def parse (source : String) : Except DocumentFault Document :=
  (Event.ofSource source).map ofEvents

end Document

end Gleaner
