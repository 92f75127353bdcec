import Gleaner.Markup.Attribute

/-!
# The pieces of markup

Markup is read as a sequence of pieces: runs of text, CDATA sections and tags.
Comments, processing instructions and the document type are read past, but
they end a run of text. The reader takes one character at a time and always
knows how many bytes it has read, so that a fault can be placed.

* `Reader.step`: the reader after one more character;
* `Reader.finish`: the pieces at the end of the source, and the fault that
  stopped the reader, if one did;
* `Piece.ofSource`: the pieces of a source.

An end tag needs a start tag to pair with, but their names need not agree: the
loader decides what an end tag closes.
-/

namespace Gleaner.Markup

inductive Piece where
  /-- A run of text, not decoded. -/
  | text (raw : List Char)
  | cdata (content : List Char)
  | startTag (content : List Char)
  /-- A tag that ends with a slash, without the slash. -/
  | emptyTag (content : List Char)
  | endTag (name : List Char)
  deriving DecidableEq, Repr

/-- Where the reader stands. What has been read of a piece is kept with its
last character first. -/
inductive ReaderState where
  | text (raw : List Char)
  /-- After `<`. -/
  | opening
  /-- In a start tag, perhaps inside a quote. -/
  | tag (quote : Option Char) (content : List Char)
  /-- In an end tag, perhaps inside a quote. -/
  | endTag (quote : Option Char) (name : List Char)
  /-- After `<?`; the content starts with the question mark. -/
  | instruction (content : List Char)
  /-- After `<!`, whose second byte has a place. -/
  | declaration (place : Nat)
  /-- After `<!-`; the content starts with the exclamation mark at a place. -/
  | comment (place : Nat) (content : List Char)
  /-- After `<![`; the content starts with the exclamation mark. -/
  | cdata (content : List Char)
  /-- After `<!D`, inside as many further angle brackets as given. -/
  | doctype (depth : Nat) (content : List Char)
  | failed (position : Nat) (fault : SyntaxFault)
  deriving DecidableEq, Repr

structure Reader where
  state : ReaderState
  /-- The bytes read so far. -/
  position : Nat
  /-- The start tags that no end tag has been paired with. -/
  unpaired : Nat
  /-- The pieces read so far, the last one first. -/
  pieces : List Piece
  deriving DecidableEq, Repr

namespace Reader

/-- The reader at the start of a source. -/
def start : Reader :=
  ⟨.text [], 0, 0, []⟩

/-- Ends a piece. -/
def emit (r : Reader) (p : Piece) : Reader :=
  { r with state := .text [], pieces := p :: r.pieces }

/-- Stops at the present place. -/
def fail (r : Reader) (fault : SyntaxFault) : Reader :=
  { r with state := .failed r.position fault }

/-- Goes on reading in a state. -/
def goto (r : Reader) (s : ReaderState) : Reader :=
  { r with state := s }

/-- The quote that is open after a character of a tag. -/
def quoteAfter (quote : Option Char) (c : Char) : Option Char :=
  match quote with
  | none => if c = '"' ∨ c = '\x27' then some c else none
  | some q => if c = q then none else some q

/-- Ends a start tag. -/
def closeStart (r : Reader) (content : List Char) : Reader :=
  match content with
  | '/' :: content => r.emit (.emptyTag content.reverse)
  | content => { r.emit (.startTag content.reverse) with unpaired := r.unpaired + 1 }

/-- The name of an end tag, without the spaces after it. A name of nothing but
spaces keeps them. -/
def endName (name : List Char) : List Char :=
  let kept := name.dropWhile Attribute.isSpace
  if kept.isEmpty then name.reverse else kept.reverse

/-- Ends an end tag. -/
def closeEnd (r : Reader) (name : List Char) : Reader :=
  let name := endName name
  if r.unpaired = 0 then r.fail (.unmatchedEnd (String.ofList name))
  else { r.emit (.endTag name) with unpaired := r.unpaired - 1 }

/-- Ends a comment, which must start with two hyphens. -/
def closeComment (r : Reader) (content : List Char) : Reader :=
  if "!--".toList.isPrefixOf content.reverse then r.goto (.text [])
  else r.fail .commentNotClosed

/-- Ends a CDATA section. -/
def closeCdata (r : Reader) (content : List Char) : Reader :=
  let content := content.reverse
  if "![CDATA[".toList.isPrefixOf content then
    r.emit (.cdata ((content.drop 8).take (content.length - 10)))
  else r.fail .cdataNotClosed

/-- Ends a document type, which must have a name. -/
def closeDoctype (r : Reader) (content : List Char) : Reader :=
  let content := content.reverse
  if (content.take 8).map Char.toUpper = "!DOCTYPE".toList then
    if (content.drop 8).all Attribute.isSpace then r.fail .doctypeWithoutName
    else r.goto (.text [])
  else r.fail .doctypeNotClosed

/-- Ends a processing instruction. -/
def closeInstruction (r : Reader) (content : List Char) : Reader :=
  if content.length ≤ 1 then r.fail .instructionNotClosed else r.goto (.text [])

/-- The reader, standing after a character, moved on by that character. -/
def advance (r : Reader) (c : Char) : Reader :=
  match r.state with
  | .text raw =>
    if c = '<' then
      let r := if raw.isEmpty then r else r.emit (.text raw.reverse)
      r.goto .opening
    else r.goto (.text (c :: raw))
  | .opening =>
    if c = '!' then r.goto (.declaration (r.position - 1))
    else if c = '/' then r.goto (.endTag none [])
    else if c = '?' then r.goto (.instruction [c])
    else if c = '>' then r.closeStart []
    else r.goto (.tag (quoteAfter none c) [c])
  | .tag quote content =>
    if c = '>' ∧ quote = none then r.closeStart content
    else r.goto (.tag (quoteAfter quote c) (c :: content))
  | .endTag quote name =>
    if c = '>' ∧ quote = none then r.closeEnd name
    else r.goto (.endTag (quoteAfter quote c) (c :: name))
  | .instruction content =>
    if c = '>' ∧ content.head? = some '?' then r.closeInstruction content
    else r.goto (.instruction (c :: content))
  | .declaration place =>
    if c = '-' then r.goto (.comment place [c, '!'])
    else if c = '[' then r.goto (.cdata [c, '!'])
    else if c = 'D' ∨ c = 'd' then r.goto (.doctype 0 [c, '!'])
    else r.goto (.failed place .unknownMarkup)
  | .comment place content =>
    if c = '>' ∧ place + 6 ≤ r.position ∧ content.take 2 = ['-', '-'] then r.closeComment content
    else r.goto (.comment place (c :: content))
  | .cdata content =>
    if c = '>' ∧ content.take 2 = [']', ']'] then r.closeCdata content
    else r.goto (.cdata (c :: content))
  | .doctype depth content =>
    if c = '>' ∧ depth = 0 then r.closeDoctype content
    else
      let depth := if c = '<' then depth + 1 else if c = '>' then depth - 1 else depth
      r.goto (.doctype depth (c :: content))
  | .failed .. => r

/-- The reader after one more character. -/
def step (r : Reader) (c : Char) : Reader :=
  { r with position := r.position + c.utf8Size }.advance c

/-- The pieces at the end of the source, and the place and kind of the fault
that stopped the reader. -/
def finish (r : Reader) : List Piece × Option (Nat × SyntaxFault) :=
  let broken (fault : SyntaxFault) := (r.pieces.reverse, some (r.position, fault))
  match r.state with
  | .text [] => (r.pieces.reverse, none)
  | .text raw => ((.text raw.reverse :: r.pieces).reverse, none)
  | .opening | .tag .. | .endTag .. => broken .tagNotClosed
  | .instruction _ => broken .instructionNotClosed
  | .declaration place => (r.pieces.reverse, some (place, .unknownMarkup))
  | .comment .. => broken .commentNotClosed
  | .cdata _ => broken .cdataNotClosed
  | .doctype .. => broken .doctypeNotClosed
  | .failed position fault => (r.pieces.reverse, some (position, fault))

end Reader

/-- The pieces of a source up to the fault that stops the reader, if there is
one. A byte order mark at the start is no part of the source. -/
def Piece.ofSource (source : String) : List Piece × Option (Nat × SyntaxFault) :=
  let cs := match source.toList with
    | '\uFEFF' :: cs => cs
    | cs => cs
  (cs.foldl Reader.step Reader.start).finish

end Gleaner.Markup
