import Gleaner.Markup.Fault
import Gleaner.Markup.Reference

/-!
# Attributes of a tag

The text of a tag is a name up to the first space, and attributes after it. An
attribute is a key up to `=` or a space, and a value after `=`, with any spaces
around it: in quotes of either kind, or up to the next space. A key without
`=` has the empty value. A key may stand only once in a tag.

`scan` is the machine that reads the attributes, one character at a time;
`State` says where it stands.
-/

namespace Gleaner.Markup.Attribute

/-- The spaces of markup. -/
def isSpace (c : Char) : Bool :=
  c == ' ' || c == '\t' || c == '\r' || c == '\n'

/-- Where the reader of attributes stands. Keys and values that are being read
are kept with their last character first. -/
inductive State where
  /-- Before a key. -/
  | between
  /-- In a key, which starts at a place. -/
  | key (start : Nat) (name : List Char)
  /-- In the spaces after a key. -/
  | afterKey (name : List Char)
  /-- After `=`, before the value. -/
  | beforeValue (name : List Char)
  | quoted (name : List Char) (quote : Char) (value : List Char)
  | unquoted (name : List Char) (value : List Char)
  deriving DecidableEq, Repr

/-- Refuses a key that is among those already read, with their places. -/
def checkNew (seen : List (List Char × Nat)) (start : Nat) (name : List Char) :
    Except AttributeFault Unit :=
  match seen.find? (·.1 == name) with
  | some (_, previous) => .error (.duplicate start previous)
  | none => .ok ()

/-- The attributes in the rest of a tag, read from a state at a place, after
the keys in `seen`. -/
def scan (seen : List (List Char × Nat)) :
    State → Nat → List Char → Except AttributeFault (List (List Char × List Char))
  | .between, _, [] => .ok []
  | .between, p, c :: cs =>
    if isSpace c then scan seen .between (p + c.utf8Size) cs
    else scan seen (.key p [c]) (p + c.utf8Size) cs
  | .key start name, _, [] => do
    checkNew seen start name
    return [(name.reverse, [])]
  | .key start name, p, c :: cs =>
    if c = '=' then do
      checkNew seen start name
      scan ((name, start) :: seen) (.beforeValue name) (p + c.utf8Size) cs
    else if isSpace c then do
      checkNew seen start name
      scan ((name, start) :: seen) (.afterKey name) (p + c.utf8Size) cs
    else scan seen (.key start (c :: name)) (p + c.utf8Size) cs
  | .afterKey name, _, [] => .ok [(name.reverse, [])]
  | .afterKey name, p, c :: cs =>
    if isSpace c then scan seen (.afterKey name) (p + c.utf8Size) cs
    else if c = '=' then scan seen (.beforeValue name) (p + c.utf8Size) cs
    else return (name.reverse, []) :: (← scan seen (.key p [c]) (p + c.utf8Size) cs)
  | .beforeValue _, p, [] => .error (.noValue p)
  | .beforeValue name, p, c :: cs =>
    if isSpace c then scan seen (.beforeValue name) (p + c.utf8Size) cs
    else if c = '"' || c = '\x27' then scan seen (.quoted name c []) (p + c.utf8Size) cs
    else scan seen (.unquoted name [c]) (p + c.utf8Size) cs
  | .quoted _ quote _, p, [] => .error (.quoteNotClosed p quote)
  | .quoted name quote value, p, c :: cs =>
    if c = quote then
      return (name.reverse, value.reverse) :: (← scan seen .between (p + c.utf8Size) cs)
    else scan seen (.quoted name quote (c :: value)) (p + c.utf8Size) cs
  | .unquoted name value, _, [] => .ok [(name.reverse, value.reverse)]
  | .unquoted name value, p, c :: cs =>
    if isSpace c then
      return (name.reverse, value.reverse) :: (← scan seen .between (p + c.utf8Size) cs)
    else scan seen (.unquoted name (c :: value)) (p + c.utf8Size) cs

/-- The name in the text of a tag. -/
def tagName (content : List Char) : List Char :=
  content.takeWhile (!isSpace ·)

/-- The attributes in the text of a tag, with their values decoded. -/
def ofTag (content : List Char) : Except AttributeFault (List (String × String)) := do
  let name := tagName content
  let start := (String.ofList name).utf8ByteSize
  let attributes ← scan [] .between start (content.drop name.length)
  return attributes.map fun (key, value) => (String.ofList key, String.ofList (decode value))

end Gleaner.Markup.Attribute
