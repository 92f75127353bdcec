/-!
# Letters without case

Names in markup (element types, attribute names, variable spellings) are
compared without the case of ASCII letters; all other characters stand for
themselves. Two names agree exactly when they have the same lower-case form.
-/

namespace Gleaner.Text

/-- A name with its ASCII capitals made small. -/
def lower (s : String) : String :=
  String.ofList (s.toList.map Char.toLower)

/-- Whether two names are the same up to the case of ASCII letters. -/
def sameName (a b : String) : Bool :=
  lower a == lower b

@[simp] theorem sameName_self (a : String) : sameName a a = true := by
  simp [sameName]

theorem sameName_iff {a b : String} : sameName a b = true ↔ lower a = lower b := by
  simp [sameName]

theorem sameName_comm (a b : String) : sameName a b = sameName b a := by
  rw [Bool.eq_iff_iff, sameName_iff, sameName_iff, eq_comm]

end Gleaner.Text
