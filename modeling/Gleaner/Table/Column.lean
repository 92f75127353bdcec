import Gleaner.Text.DecimalDigit
import Gleaner.Store.Change

/-!
# Fixed columns

A projected table can have columns in front that hold the same value in every
row. The value is an operand; a literal text with a marker `[N]` in it stands
for the `N`-th node of a branch instead, where there is one.

* `Column.branchIndex?`: the `N` of the first marker;
* `Column.resolveAll`: the names and values of some columns.
-/

namespace Gleaner

structure Column where
  name : String
  source : Operand
  deriving DecidableEq, Repr

namespace Column

/-- The digits between the brackets of the first marker: digits of any script,
at least one. -/
def markerDigits? : List Char → Option (List Char)
  | [] => none
  | c :: cs =>
    let ds := cs.takeWhile Text.isDecimalDigit
    if c = '[' ∧ ds ≠ [] ∧ (cs.drop ds.length).head? = some ']' then some ds
    else markerDigits? cs

/-- The number in the first marker of a text, if it is written in ASCII digits
and has 64 bits. -/
def markerIndex? (s : String) : Option Nat :=
  (markerDigits? s.toList).bind (Text.unsignedIn? 10)

/-- The node of a branch that a column stands for. -/
def branchIndex? (c : Column) : Option Nat :=
  match c.source with
  | .literal s => markerIndex? s
  | _ => none

/-- The value of a column in a cell. -/
def resolve (d : Document) (c : Column) : Store.Change String :=
  (Store.Change.resolve d c.source).map (·.cell d)

/-- The names and values of some columns, resolved from the first to the last,
with the store as it is left. A column that fails keeps what the columns
before it took out of the store. -/
def resolveAll (d : Document) (s : Store) :
    List Column → Except Fault (List (String × String)) × Store
  | [] => (.ok [], s)
  | c :: rest =>
    match c.resolve d s with
    | (.error e, s) => (.error e, s)
    | (.ok v, s) =>
      let (found, s) := resolveAll d s rest
      (found.map ((c.name, v) :: ·), s)

end Column

end Gleaner
