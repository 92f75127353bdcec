import Gleaner.Yaml.Spot

/-!
# Folded gaps

Inside a scalar that goes over several lines, the spaces and breaks between
two characters that are no gaps form a gap, which is folded: a single line
feed becomes a space, of several breaks the first line feed is dropped, and
spaces next to a break are dropped. A gap without a break is kept.

* `Gap.add`: a gap with one more character;
* `Gap.text`: the text that a gap is folded to.
-/

namespace Gleaner.Yaml

structure Gap where
  /-- The spaces before the first break, the last one first. -/
  spaces : List Char
  /-- Whether there is a break. -/
  broken : Bool
  /-- The first break, unless that one is dropped. -/
  first : Option Char
  /-- The other breaks, the last one first. -/
  others : List Char
  deriving Repr

namespace Gap

def empty : Gap :=
  ⟨[], false, none, []⟩

/-- The gap that starts with a break which is dropped. -/
def afterEscape : Gap :=
  ⟨[], true, none, []⟩

/-- The gap with one more space or break. -/
def add (g : Gap) (c : Char) : Gap :=
  if isBreak c then
    if g.broken then { g with others := c :: g.others } else ⟨[], true, some c, []⟩
  else if g.broken then g
  else { g with spaces := c :: g.spaces }

/-- The text that a gap is folded to. -/
def text (g : Gap) : List Char :=
  if !g.broken then g.spaces.reverse
  else if g.first = some '\n' then
    if g.others.isEmpty then [' '] else g.others.reverse
  else g.first.toList ++ g.others.reverse

/-- The characters read so far with a gap folded after them, the last one
first. -/
def foldOnto (g : Option Gap) (read : List Char) : List Char :=
  match g with
  | none => read
  | some g => g.text.reverse ++ read

end Gap

end Gleaner.Yaml
