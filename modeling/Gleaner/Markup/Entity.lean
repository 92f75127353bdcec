import Gleaner.Markup.Entity.Capital
import Gleaner.Markup.Entity.Small

/-!
# Named character references

The names that HTML gives to single characters, such as `amp` and `eacute`.
The code points of the table are taken by whole bytes: of a code of three or
five hexadecimal digits the last digit does not count. So `eacute`, whose code
is E9, stands for its own character, and `alpha`, whose code is 3B1, for the
character of the code 3B.
-/

namespace Gleaner.Markup.Entity

/-- A code without the last of an odd number of hexadecimal digits, if it has
more than one. -/
def wholeBytes (code : Nat) : Nat :=
  if (0x100 ≤ code ∧ code < 0x1000) ∨ 0x10000 ≤ code then code / 16 else code

/-- The character of a name. -/
def lookup? (name : String) : Option Char :=
  let first := name.toList.headD ' '
  let table := if first.isUpper then capitalTable first else smallTable first
  (table.find? (·.1 == name)).map fun (_, code) => Char.ofNat (wholeBytes code)

example : lookup? "amp" = some '&' := by decide
example : lookup? "Amp" = none := by decide
example : lookup? "alpha" = some ';' := by decide
example : lookup? "rarr" = some '\u2192' := by decide

end Gleaner.Markup.Entity
