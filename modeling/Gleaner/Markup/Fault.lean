import Gleaner.Fault.Code
import Gleaner.Text.Numeral

/-!
# Faults of a document

What can be wrong with a document: its file, its markup or the attributes of
one of its tags. Places are counted in bytes, in the source for markup and
from the start of the tag's name for attributes.
-/

namespace Gleaner

namespace Markup

/-- What makes markup unreadable. -/
inductive SyntaxFault where
  | tagNotClosed
  | unknownMarkup
  | commentNotClosed
  | cdataNotClosed
  | doctypeNotClosed
  | doctypeWithoutName
  | instructionNotClosed
  /-- An end tag stands where no start tag is left to pair with it. -/
  | unmatchedEnd (name : String)
  deriving DecidableEq, Repr

/-- What makes an attribute unreadable. -/
inductive AttributeFault where
  | noValue (position : Nat)
  | quoteNotClosed (position : Nat) (quote : Char)
  | duplicate (position previous : Nat)
  deriving DecidableEq, Repr

namespace SyntaxFault

/-- Whether the markup can be split into tags but these do not fit together. -/
def isIllFormed : SyntaxFault → Bool
  | doctypeWithoutName | unmatchedEnd _ => true
  | _ => false

/-- The wording of a fault without its area. -/
def wording : SyntaxFault → String
  | tagNotClosed => "tag not closed: `>` not found before end of input"
  | unknownMarkup => "unknown or missed symbol in markup"
  | commentNotClosed => "comment not closed: `-->` not found before end of input"
  | cdataNotClosed => "CDATA not closed: `]]>` not found before end of input"
  | doctypeNotClosed => "DOCTYPE not closed: `>` not found before end of input"
  | doctypeWithoutName => "`<!DOCTYPE>` declaration does not contain a name of a document type"
  | instructionNotClosed =>
    "processing instruction or xml declaration not closed: `?>` not found before end of input"
  | unmatchedEnd name => "close tag `</" ++ name ++ ">` does not match any open tag"

/-- The wording of a fault after its area. -/
def text (f : SyntaxFault) : String :=
  (if f.isIllFormed then "ill-formed document: " else "syntax error: ") ++ f.wording

end SyntaxFault

/-- The wording of a fault. -/
def AttributeFault.text : AttributeFault → String
  | noValue p => "position " ++ Text.numeral p ++ ": `=` must be followed by an attribute value"
  | quoteNotClosed p quote =>
    "position " ++ Text.numeral p ++ ": missing closing quote `" ++ String.ofList [quote] ++
      "` in attribute value"
  | duplicate p previous =>
    "position " ++ Text.numeral p ++ ": duplicated attribute, previous declaration at position " ++
      Text.numeral previous

end Markup

/-- What can go wrong while a document is read. -/
inductive DocumentFault where
  | unreadable (path cause : String)
  | malformed (position : Nat) (fault : Markup.SyntaxFault)
  | badAttribute (fault : Markup.AttributeFault)
  deriving DecidableEq, Repr

namespace DocumentFault

def code : DocumentFault → Nat
  | unreadable .. => Code.documentUnreadable
  | _ => Code.documentMalformed

/-- The exit status of a run that ended with the fault. -/
def exitStatus (f : DocumentFault) : Nat :=
  Code.exitStatus f.code

def message (f : DocumentFault) : String :=
  Code.tag f.code ++
    match f with
    | unreadable path _ => "failed to read document " ++ path
    | malformed position fault =>
      "malformed markup at byte " ++ Text.numeral position ++ ": " ++ fault.text
    | badAttribute fault => "malformed attribute: " ++ fault.text

/-- The causes behind a fault, the nearest first. A fault of markup is its own
cause twice: with its area and without. -/
def causes : DocumentFault → List String
  | unreadable _ cause => [cause]
  | malformed _ fault => [fault.text, fault.wording]
  | badAttribute fault => [fault.text]

/-- The message for a user: the area in words, then the message. -/
def userMessage (f : DocumentFault) : String :=
  Code.describe f.code ++ ": " ++ f.message

end DocumentFault

end Gleaner
