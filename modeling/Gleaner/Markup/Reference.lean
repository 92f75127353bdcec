import Gleaner.Markup.Entity
import Gleaner.Text.Numeral

/-!
# Character references

A reference stands between `&` and `;`: a name, or `#` and the number of a
code point in decimal digits, or `#x` and hexadecimal digits. A run of text is
decoded as a whole: when every `&` in it starts a reference that is known, each
reference is replaced by its character, and otherwise the run stays as it is.

* `decode?`: the decoded run, if every reference in it is known;
* `decode`: the decoded run, or the run itself.
-/

namespace Gleaner.Markup

/-- The character of a code point other than zero. -/
def character? (code : Nat) : Option Char :=
  if code ≠ 0 ∧ code.isValidChar then some (Char.ofNat code) else none

/-- The character that the text between `&` and `;` refers to. -/
def referent? (cs : List Char) : Option Char :=
  match cs with
  | '#' :: 'x' :: ds => (Text.digits? 16 ds).bind character?
  | '#' :: ds => (Text.digits? 10 ds).bind character?
  | name => Entity.lookup? (String.ofList name)

/-- Decodes what follows in a run. Inside a reference, the characters read
since `&` are given, the last one first. -/
def decodeFrom? : Option (List Char) → List Char → Option (List Char)
  | none, [] => some []
  | none, c :: cs =>
    if c = '&' then decodeFrom? (some []) cs else (decodeFrom? none cs).map (c :: ·)
  | some _, [] => none
  | some name, c :: cs =>
    if c = '&' then none
    else if c = ';' then
      match referent? name.reverse with
      | some found => (decodeFrom? none cs).map (found :: ·)
      | none => none
    else decodeFrom? (some (c :: name)) cs

/-- The decoded run, if every `&` in it starts a known reference. -/
def decode? (cs : List Char) : Option (List Char) :=
  decodeFrom? none cs

/-- The decoded run, or the run itself when a reference in it is unknown. -/
def decode (cs : List Char) : List Char :=
  (decode? cs).getD cs

example : decode? "a &lt; b &#x263a;".toList = some "a < b \u263a".toList := by decide
example : decode? "&#0;".toList = none := by decide
example : decode "&lt; &".toList = "&lt; &".toList := by decide

end Gleaner.Markup
