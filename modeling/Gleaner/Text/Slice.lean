/-!
# Slices of a text

A slice keeps the characters between two offsets. An offset below zero counts
from the end, and one outside the text is moved to its nearer end.
-/

namespace Gleaner.Text

/-- The place of an offset in a text of a length. -/
def place (length : Nat) (offset : Int) : Nat :=
  let fromStart := if offset < 0 then length + offset else offset
  min length fromStart.toNat

/-- The characters from one offset up to but without another one; without an
offset the slice goes to the end of the text on that side. -/
def sliceChars (cs : List Char) (start stop : Option Int) : List Char :=
  let a := (start.map (place cs.length)).getD 0
  let b := (stop.map (place cs.length)).getD cs.length
  (cs.take b).drop a

/-- The slice of a text between two offsets. -/
def slice (s : String) (start stop : Option Int) : String :=
  String.ofList (sliceChars s.toList start stop)

example : slice "HelloWorld" (some (-5)) none = "World" := by decide
example : slice "HelloWorld" (some 3) (some 100) = "loWorld" := by decide
example : slice "HelloWorld" (some 8) (some 2) = "" := by decide

end Gleaner.Text
