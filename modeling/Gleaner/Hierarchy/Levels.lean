import Gleaner.Text.Blank
import Gleaner.Text.Letter

/-!
# Levels of element types

A hierarchy is read off a flat sequence of elements by giving each element
type a level, such as 0 for `h2`, 1 for `h3` and 2 for `table`. The highest
level is the one of the leaves. Types are compared without case; types without
a level are passed over.

* `Levels.ofPath`: the levels of a path such as `h2.h3.table`, in order;
* `Levels.ofPairs`: the levels of pairs, of which later ones replace earlier
  ones for the same type;
* `Levels.levelOf?`, `Levels.leafLevel`: the level of a type and of leaves.
-/

namespace Gleaner

/-- Types in small letters with their levels, each type once. -/
structure Levels where
  entries : List (String × Nat)
  deriving DecidableEq, Repr

namespace Levels

def empty : Levels := ⟨[]⟩

/-- Gives a type a level in place of the one it had. -/
def insert (l : Levels) (type : String) (level : Nat) : Levels :=
  let type := Text.lower type
  ⟨l.entries.filter (·.1 != type) ++ [(type, level)]⟩

/-- The levels of pairs, in which later pairs replace earlier ones. -/
def ofPairs (pairs : List (String × Nat)) : Levels :=
  pairs.foldl (fun l (type, level) => l.insert type level) empty

/-- The types between the points of a path, without blanks around them and
without the empty ones. -/
def pathTypes (path : String) : List String :=
  ((path.toList.splitOn '.').map fun cs => Text.trim (String.ofList cs)).filter (!·.isEmpty)

/-- The levels of a path: the place of each type in it. -/
def ofPath (path : String) : Levels :=
  ofPairs (pathTypes path).zipIdx

def isEmpty (l : Levels) : Bool :=
  l.entries.isEmpty

/-- The level of a type. -/
def levelOf? (l : Levels) (type : String) : Option Nat :=
  (l.entries.find? (·.1 == Text.lower type)).map (·.2)

/-- The highest level, which is the level of the leaves. -/
def leafLevel (l : Levels) : Nat :=
  (l.entries.map (·.2)).foldl max 0

end Levels

end Gleaner
