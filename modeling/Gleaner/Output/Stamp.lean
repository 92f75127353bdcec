import Gleaner.Text.Numeral

/-!
# Stamps

The time as it stands in long names: the digits of the date, an underscore, and
the digits of the time of day.
-/

namespace Gleaner

/-- A second of a day. -/
structure Moment where
  year : Nat
  month : Nat
  day : Nat
  hour : Nat
  minute : Nat
  second : Nat
  deriving DecidableEq, Repr

namespace Moment

/-- A number with zeros before it up to a width. -/
def padded (width n : Nat) : String :=
  let digits := Nat.toDigits 10 n
  String.ofList (List.replicate (width - digits.length) '0' ++ digits)

/-- The stamp of a second. -/
def stamp (t : Moment) : String :=
  padded 4 t.year ++ padded 2 t.month ++ padded 2 t.day ++ "_" ++
    padded 2 t.hour ++ padded 2 t.minute ++ padded 2 t.second

example : (Moment.mk 2024 1 31 9 5 0).stamp = "20240131_090500" := by decide

end Moment

end Gleaner
