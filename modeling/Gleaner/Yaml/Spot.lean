/-!
# Characters with their places

YAML counts on lines and columns, so a source is read as a list of characters
with their places. Line breaks are made alike first: a carriage return with or
without a line feed, and the next-line character, stand for a line feed. The
line and paragraph separators break lines too and stay what they are. The list
ends with an end mark, which is no character of a source.

* `Spot.ofSource?`: the characters of a source, unless one is not allowed;
* `Spot.atMarker`: whether a document marker stands at the start of a line.
-/

namespace Gleaner.Yaml

/-- A character with its place in a source. -/
structure Spot where
  char : Char
  line : Nat
  column : Nat
  /-- The number of characters before it. -/
  index : Nat
  deriving Repr

/-! ## Classes of characters -/

/-- The character that stands for the end of a source. -/
def endMark : Char := '\x00'

/-- The mark that may stand at the start of a line and is passed over. -/
def byteOrderMark : Char := '\uFEFF'

/-- Whether a character breaks a line. -/
def isBreak (c : Char) : Bool :=
  c == '\n' || c == '\u2028' || c == '\u2029'

/-- Whether a character is a space or a tab. -/
def isSpace (c : Char) : Bool :=
  c == ' ' || c == '\t'

/-- Whether a character is a space, a tab, a break or the end. -/
def isGap (c : Char) : Bool :=
  isSpace c || isBreak c || c == endMark

/-- Whether a character ends a line. -/
def endsLine (c : Char) : Bool :=
  isBreak c || c == endMark

/-- Whether a character can stand in the name of an anchor, a directive or a
handle. -/
def isNameChar (c : Char) : Bool :=
  c.isAlphanum || c == '_' || c == '-'

/-- Whether a character can stand in a source. -/
def isAllowed (c : Char) : Bool :=
  let n := c.toNat
  n == 0x09 || n == 0x0A || n == 0x0D || (0x20 ≤ n && n ≤ 0x7E) || n == 0x85 ||
    (0xA0 ≤ n && n ≤ 0xFFFD) || 0x10000 ≤ n

/-! ## The characters of a source -/

/-- The characters with the breaks made alike. -/
def unifyBreaks : List Char → List Char
  | '\r' :: '\n' :: rest => '\n' :: unifyBreaks rest
  | c :: rest => (if c = '\r' ∨ c = '\u0085' then '\n' else c) :: unifyBreaks rest
  | [] => []

namespace Spot

/-- Characters from a place on, and the end mark. -/
def place (line column index : Nat) : List Char → List Spot
  | [] => [⟨endMark, line, column, index⟩]
  | c :: rest =>
    ⟨c, line, column, index⟩ ::
      if isBreak c then place (line + 1) 0 (index + 1) rest
      else place line (column + 1) (index + 1) rest

/-- The characters of a source, if all of them are allowed. -/
def ofSource? (s : String) : Option (List Spot) :=
  let cs := s.toList
  if cs.all isAllowed then some (place 0 0 0 (unifyBreaks cs)) else none

/-! ## Looking ahead -/

/-- The first character of some spots. -/
def char0 : List Spot → Char
  | [] => endMark
  | s :: _ => s.char

/-- The second character of some spots. -/
def char1 : List Spot → Char
  | _ :: s :: _ => s.char
  | _ => endMark

/-- Whether some spots start with a character three times and a gap, at the
start of a line. -/
def isMarkerOf (c : Char) : List Spot → Bool
  | a :: b :: d :: rest =>
    a.column == 0 && a.char == c && b.char == c && d.char == c && isGap (char0 rest)
  | _ => false

/-- Whether some spots start with the marker of the start or end of a
document. -/
def atMarker (ss : List Spot) : Bool :=
  isMarkerOf '-' ss || isMarkerOf '.' ss

/-- The characters of some spots up to the first that does not pass a test, and
the spots from there on. -/
def spanChars (p : Char → Bool) : List Spot → List Char × List Spot
  | [] => ([], [])
  | s :: rest =>
    if p s.char then
      let (cs, rest) := spanChars p rest
      (s.char :: cs, rest)
    else ([], s :: rest)

/-- The spots from the first one on that does not pass a test. -/
def dropChars (p : Char → Bool) (ss : List Spot) : List Spot :=
  ss.dropWhile (p ·.char)

/-- The rest of a line that may hold spaces and a comment, from its break or
the end on; `none` if it holds anything else. -/
def endOfLine? (ss : List Spot) : Option (List Spot) :=
  let ss := dropChars isSpace ss
  let ss := if char0 ss = '#' then dropChars (!endsLine ·) ss else ss
  if endsLine (char0 ss) then some ss else none

/-- The spots after a break, if one comes first. -/
def skipBreak : List Spot → List Spot
  | s :: rest => if isBreak s.char then rest else s :: rest
  | [] => []

end Spot

end Gleaner.Yaml
