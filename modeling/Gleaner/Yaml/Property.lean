import Gleaner.Text.Numeral
import Gleaner.Yaml.Spot
import Gleaner.Yaml.Token

/-!
# Properties and directives

The signs `&` and `*` stand before the name of an anchor, `!` before a tag and
`%` before a directive. A tag is written as a handle with a suffix or, between
angle brackets, in full. Octets of a tag that are written as `%` with two
digits become the characters of their numbers.

* `Property.name?`, `Property.tag?`, `Property.directive?`: the part after the
  sign, and the spots after it.
-/

namespace Gleaner.Yaml.Property

/-! ## Anchors -/

/-- Whether a character can follow the name of an anchor. -/
def followsName (c : Char) : Bool :=
  isGap c || ['?', ':', ',', ']', '\x7d', '%', '@', '\x60'].contains c

/-- The name after the sign of an anchor or alias. -/
def name? (ss : List Spot) : Option (String × List Spot) :=
  let (cs, rest) := Spot.spanChars isNameChar ss
  if cs.isEmpty || !followsName (Spot.char0 rest) then none
  else some (String.ofList cs, rest)

/-! ## Tags -/

/-- Whether a character can stand in a tag. Commas and square brackets only can
in a tag that is written in full. -/
def isTagChar (full : Bool) (c : Char) : Bool :=
  isNameChar c || ";/?:@&=+$.%!~*'()".toList.contains c || (full && ",[]".toList.contains c)

/-- How many octets a sequence has that starts with an octet. -/
def sequenceLength? (octet : Nat) : Option Nat :=
  if octet < 0x80 then some 1
  else if 0xC0 ≤ octet ∧ octet < 0xE0 then some 2
  else if 0xE0 ≤ octet ∧ octet < 0xF0 then some 3
  else if 0xF0 ≤ octet ∧ octet < 0xF8 then some 4
  else none

/-- Where a reader stands in a tag: how many octets of a sequence are still to
come, and the digits of an octet that are still to come, with the number of
the ones read. -/
structure State where
  octets : Nat
  digits : Nat
  number : Nat

/-- The state between two characters. -/
def State.between : State := ⟨0, 0, 0⟩

/-- The state after the last digit of an octet. -/
def State.afterOctet? (st : State) (octet : Nat) : Option State :=
  if st.octets = 0 then (sequenceLength? octet).map fun n => ⟨n - 1, 0, 0⟩
  else if 0x80 ≤ octet ∧ octet < 0xC0 then some ⟨st.octets - 1, 0, 0⟩
  else none

/-- The characters of a tag from a state on. -/
def tagChars? (full : Bool) : List Spot → State → Option (List Char × List Spot)
  | [], _ => some ([], [])
  | s :: rest, st =>
    let c := s.char
    if st.digits ≠ 0 then
      (Text.digit? c).bind fun d =>
        let n := 16 * st.number + d
        if st.digits = 2 then tagChars? full rest ⟨st.octets, 1, n⟩
        else
          (st.afterOctet? n).bind fun st =>
            (tagChars? full rest st).map fun (cs, rest) => (Char.ofNat n :: cs, rest)
    else if c = '%' then tagChars? full rest ⟨st.octets, 2, 0⟩
    else if st.octets ≠ 0 then none
    else if isTagChar full c then
      (tagChars? full rest st).map fun (cs, rest) => (c :: cs, rest)
    else some ([], s :: rest)

/-- The handle at the start of some spots: an exclamation mark, a name, and
perhaps another exclamation mark. -/
def handle? (ss : List Spot) : Option (List Char × List Spot) :=
  if Spot.char0 ss ≠ '!' then none
  else
    let (cs, rest) := Spot.spanChars isNameChar ss.tail
    if Spot.char0 rest = '!' then some ('!' :: cs ++ ['!'], rest.tail) else some ('!' :: cs, rest)

/-- Whether a handle is closed by a second exclamation mark. -/
def isClosed (handle : List Char) : Bool :=
  1 < handle.length && handle.getLast? == some '!'

/-- The handle and suffix of a tag that is written with a handle. What looks
like an open handle belongs to the suffix, and a lone exclamation mark is a
tag of its own. -/
def shortTag? (ss : List Spot) : Option (Token × List Spot) :=
  (handle? ss).bind fun (handle, ss) =>
    (tagChars? false ss .between).bind fun (cs, ss) =>
      if isClosed handle then
        if cs.isEmpty then none
        else some (.tag (String.ofList handle) (String.ofList cs), ss)
      else
        let suffix := handle.tail ++ cs
        if suffix.isEmpty then some (.tag "" "!", ss)
        else some (.tag "!" (String.ofList suffix), ss)

/-- A tag that is written in full. -/
def fullTag? (ss : List Spot) : Option (Token × List Spot) :=
  (tagChars? true (ss.drop 2) .between).bind fun (cs, ss) =>
    if cs.isEmpty || Spot.char0 ss != '>' then none
    else some (.tag "" (String.ofList cs), ss.tail)

/-- The tag at the start of some spots, which a gap or, between brackets, a
comma follows. -/
def tag? (bracketed : Bool) (ss : List Spot) : Option (Token × List Spot) :=
  (if Spot.char1 ss = '<' then fullTag? ss else shortTag? ss).filter fun (_, ss) =>
    isGap (Spot.char0 ss) || (bracketed && Spot.char0 ss == ',')

/-! ## Directives -/

/-- The number at the start of some spots, of at most nine digits. -/
def number? (ss : List Spot) : Option (Nat × List Spot) :=
  let (cs, rest) := Spot.spanChars Char.isDigit ss
  if 9 < cs.length then none else (Text.digits? 10 cs).map (·, rest)

/-- The directive of a version. -/
def versionDirective? (ss : List Spot) : Option (Token × List Spot) :=
  (number? (Spot.dropChars isSpace ss)).bind fun (major, ss) =>
    if Spot.char0 ss ≠ '.' then none
    else (number? ss.tail).map fun (minor, ss) => (.versionDirective major minor, ss)

/-- The directive of a handle. -/
def tagDirective? (ss : List Spot) : Option (Token × List Spot) :=
  (handle? (Spot.dropChars isSpace ss)).bind fun (handle, ss) =>
    if !(isClosed handle || handle == ['!']) || !isSpace (Spot.char0 ss) then none
    else
      (tagChars? true (Spot.dropChars isSpace ss) .between).bind fun (cs, ss) =>
        if cs.isEmpty || !isGap (Spot.char0 ss) then none
        else some (.tagDirective (String.ofList handle) (String.ofList cs), ss)

/-- The directive after a percent sign, and the spots after its line. -/
def directive? (ss : List Spot) : Option (Token × List Spot) :=
  let (name, rest) := Spot.spanChars isNameChar ss
  if !isGap (Spot.char0 rest) then none
  else
    (match String.ofList name with
      | "YAML" => versionDirective? rest
      | "TAG" => tagDirective? rest
      | _ => none).bind fun (token, ss) =>
      (Spot.endOfLine? ss).map fun ss => (token, Spot.skipBreak ss)

end Gleaner.Yaml.Property
