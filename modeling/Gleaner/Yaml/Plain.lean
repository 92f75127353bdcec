import Gleaner.Yaml.Fold

/-!
# Plain scalars

A scalar without quotes goes on until something that cannot be part of it: a
colon before a gap, a comment after a gap, a document marker, a line that is
not indented enough, or, between brackets, a comma or bracket. Gaps are folded;
the one at its end is no part of it.

* `Plain.read?`: a plain scalar and what follows it.
-/

namespace Gleaner.Yaml.Plain

/-- Whether a character separates or closes things between brackets. -/
def isBracketSign (c : Char) : Bool :=
  c == ',' || c == '[' || c == ']' || c == '\x7b' || c == '\x7d'

/-- Whether a scalar ends at the start of some spots, which is no gap. -/
def endsAt (bracketed : Bool) (ss : List Spot) : Bool :=
  let c := Spot.char0 ss
  c == endMark || (c == ':' && isGap (Spot.char1 ss)) || (bracketed && isBracketSign c)

/-- Whether a scalar ends at the start of some spots after a gap. -/
def endsAfterGap (bracketed : Bool) (indent column : Nat) (ss : List Spot) : Bool :=
  (!bracketed && column < indent) || Spot.atMarker ss || Spot.char0 ss == '#'

/-- Whether a colon stands between brackets where it is neither part of a
scalar nor the end of one. -/
def isStrayColon (bracketed : Bool) (ss : List Spot) : Bool :=
  bracketed && Spot.char0 ss == ':' &&
    (isBracketSign (Spot.char1 ss) || Spot.char1 ss == '?')

/-- A plain scalar, whether a line break follows it, and the spots after that
gap. -/
structure Reading where
  text : String
  broken : Bool
  rest : List Spot

/-- The scalar after the characters read so far and perhaps a gap. A scalar
over several lines is indented by at least `indent`. -/
def readFrom? (bracketed : Bool) (indent : Nat) :
    List Spot → Option Gap → List Char → Option Reading
  | [], gap, read => some ⟨String.ofList read.reverse, gap.any (·.broken), []⟩
  | s :: rest, gap, read =>
    let c := s.char
    if isSpace c || isBreak c then
      if c = '\t' ∧ s.column < indent ∧ gap.any (·.broken) then none
      else readFrom? bracketed indent rest (some ((gap.getD .empty).add c)) read
    else if (gap.isSome && endsAfterGap bracketed indent s.column (s :: rest)) ||
        endsAt bracketed (s :: rest) then
      some ⟨String.ofList read.reverse, gap.any (·.broken), s :: rest⟩
    else if isStrayColon bracketed (s :: rest) then none
    else readFrom? bracketed indent rest none (c :: Gap.foldOnto gap read)

/-- The plain scalar at the start of some spots. -/
def read? (bracketed : Bool) (indent : Nat) (ss : List Spot) : Option Reading :=
  readFrom? bracketed indent ss none []

end Gleaner.Yaml.Plain
