import Gleaner.Text.Numeral

/-!
# Quoted strings of TOML

A string stands between double quotes, where a backslash starts an escape, or
between single quotes, where it stands for itself. Between three quotes of a
kind a string may go over several lines: a line feed right after the opening is
dropped, a backslash at the end of a line drops all blanks up to the next other
character, and up to two quotes may stand right before the closing ones. Other
control characters than the tab have no place in a string.

* `Toml.quoted?`: the string at the start of some characters.
-/

namespace Gleaner.Toml

/-- The blanks within a line. -/
def isSpace (c : Char) : Bool :=
  c == ' ' || c == '\t'

/-- Whether a character may stand within a line: all but the control
characters, and the tab. -/
def isLineChar (c : Char) : Bool :=
  c == '\t' || (' ' ≤ c && c != '\x7f')

/-- The character of an escape of one letter or sign. -/
def escape? : Char → Option Char
  | 'b' => some '\x08'
  | 't' => some '\t'
  | 'n' => some '\n'
  | 'f' => some '\x0c'
  | 'r' => some '\r'
  | 'e' => some '\x1b'
  | '"' => some '"'
  | '\\' => some '\\'
  | _ => none

/-- The number of digits of an escape by number. -/
def codeLength? : Char → Option Nat
  | 'x' => some 2
  | 'u' => some 4
  | 'U' => some 8
  | _ => none

/-- The character of a number, if there is one. -/
def charOf? (n : Nat) : Option Char :=
  if n.isValidChar then some (Char.ofNat n) else none

/-- The kind of a quoted string. -/
structure Form where
  quote : Char
  /-- Whether it stands between three quotes. -/
  lines : Bool

namespace Form

/-- Whether a backslash starts an escape. -/
def escapes (f : Form) : Bool :=
  f.quote == '"'

end Form

/-- Where a reader stands in a string. -/
inductive QuotedState where
  | text
  /-- After some quotes in a row, in a string of several lines. -/
  | quotes (count : Nat)
  /-- After a backslash. -/
  | escape
  /-- Within an escape by number: the digits still to come and the number so
  far. -/
  | code (left n : Nat)
  /-- After a backslash at the end of a line, and whether the line has ended. -/
  | skip (ended : Bool)

namespace QuotedState

/-- The state after a character of the text, and the characters read, the last
one first. -/
def afterText (f : Form) (c : Char) (read : List Char) : Option (QuotedState × List Char) :=
  if f.escapes && c == '\\' then some (escape, read)
  else if f.lines && c == f.quote then some (quotes 1, read)
  else if isLineChar c || (f.lines && c == '\n') then some (text, c :: read)
  else none

/-- The state after the character that follows a backslash. -/
def afterEscape (f : Form) (c : Char) (read : List Char) : Option (QuotedState × List Char) :=
  if f.lines && (isSpace c || c == '\n') then some (skip (c == '\n'), read)
  else
    match codeLength? c with
    | some n => some (code n 0, read)
    | none => (escape? c).map fun c => (text, c :: read)

/-- The state after a digit of an escape by number. -/
def afterDigit (left n : Nat) (c : Char) (read : List Char) : Option (QuotedState × List Char) :=
  (Text.digit? c).bind fun d =>
    let n := 16 * n + d
    if left ≤ 1 then (charOf? n).map fun c => (text, c :: read)
    else some (code (left - 1) n, read)

/-- The state after a character that follows the end of a skipped line, or is
one of the blanks around it. -/
def afterSkip (f : Form) (ended : Bool) (c : Char) (read : List Char) :
    Option (QuotedState × List Char) :=
  if isSpace c then some (skip ended, read)
  else if c == '\n' then some (skip true, read)
  else if ended then afterText f c read
  else none

/-- The state after a character, or nothing if the string is not well formed. -/
def next (f : Form) (state : QuotedState) (c : Char) (read : List Char) :
    Option (QuotedState × List Char) :=
  match state with
  | text => afterText f c read
  | escape => afterEscape f c read
  | code left n => afterDigit left n c read
  | skip ended => afterSkip f ended c read
  | quotes count =>
    if c == f.quote then some (quotes (count + 1), read)
    else afterText f c (List.replicate count f.quote ++ read)

end QuotedState

/-- The quotes of a closing run that belong to the string, if the run closes
it. -/
def closing? : QuotedState → Option Nat
  | .quotes count => if 3 ≤ count then some (count - 3) else none
  | _ => none

/-- The string from a state on, and the characters after its closing quotes. -/
def quotedFrom? (f : Form) : QuotedState → List Char → List Char → Option (String × List Char)
  | state, read, [] =>
    (closing? state).bind fun extra =>
      if extra ≤ 2 then
        some (String.ofList (List.replicate extra f.quote ++ read).reverse, [])
      else none
  | state, read, c :: rest =>
    match closing? state with
    | some extra =>
      if c == f.quote then quotedFrom? f (.quotes (extra + 4)) read rest
      else if extra ≤ 2 then
        some (String.ofList (List.replicate extra f.quote ++ read).reverse, c :: rest)
      else none
    | none =>
      match state, !f.lines && c == f.quote with
      | .text, true => some (String.ofList read.reverse, rest)
      | state, _ =>
        match state.next f c read with
        | some (state, read) => quotedFrom? f state read rest
        | none => none

/-- The characters without a line feed at their start. -/
def dropLineFeed : List Char → List Char
  | '\n' :: cs => cs
  | cs => cs

/-- The string on one line at the start of some characters, and what follows
it. -/
def quotedLine? : List Char → Option (String × List Char)
  | '"' :: cs => quotedFrom? ⟨'"', false⟩ .text [] cs
  | '\x27' :: cs => quotedFrom? ⟨'\x27', false⟩ .text [] cs
  | _ => none

/-- The string at the start of some characters, and what follows it. -/
def quoted? : List Char → Option (String × List Char)
  | '"' :: '"' :: '"' :: cs => quotedFrom? ⟨'"', true⟩ .text [] (dropLineFeed cs)
  | '\x27' :: '\x27' :: '\x27' :: cs => quotedFrom? ⟨'\x27', true⟩ .text [] (dropLineFeed cs)
  | cs => quotedLine? cs

example : quoted? "\"a\\u00e9\" x".toList = some ("aé", " x".toList) := by decide
example : quoted? "'''\na''b'''''".toList = some ("a''b''", []) := by decide

end Gleaner.Toml
