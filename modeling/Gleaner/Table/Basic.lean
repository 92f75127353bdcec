/-!
# Tables

A header row and data rows. Rows may differ in length from the header and from
each other.
-/

namespace Gleaner

structure Table where
  header : List String
  rows : List (List String)
  deriving DecidableEq, Repr

namespace Table

/-- The table with a header and no rows. -/
def ofHeader (header : List String) : Table :=
  ⟨header, []⟩

/-- Whether a table has no data rows. -/
def isEmpty (t : Table) : Bool :=
  t.rows.isEmpty

/-- All rows of a table, the header first. -/
def records (t : Table) : List (List String) :=
  t.header :: t.rows

/-- A table with the data rows of another one after its own. -/
def append (t u : Table) : Table :=
  { t with rows := t.rows ++ u.rows }

end Table

end Gleaner
