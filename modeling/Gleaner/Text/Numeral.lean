/-!
# Numerals

Whole numbers as they are written in paths, settings and parameters: ASCII
digits after an optional sign, within a bound. A numeral outside its bound is
no numeral, and neither is one with a space or a separator in it.
-/

namespace Gleaner.Text

/-- The value of a digit in any base up to sixteen. -/
def digit? (c : Char) : Option Nat :=
  if '0' ≤ c ∧ c ≤ '9' then some (c.toNat - '0'.toNat)
  else if 'a' ≤ c ∧ c ≤ 'f' then some (c.toNat - 'a'.toNat + 10)
  else if 'A' ≤ c ∧ c ≤ 'F' then some (c.toNat - 'A'.toNat + 10)
  else none

/-- The number written by digits of a base, the most significant first, after
digits that are worth `n`. -/
def digitsFrom? (base n : Nat) : List Char → Option Nat
  | [] => some n
  | c :: cs =>
    match digit? c with
    | some d => if d < base then digitsFrom? base (base * n + d) cs else none
    | none => none

/-- The number written by at least one digit of a base. -/
def digits? (base : Nat) (cs : List Char) : Option Nat :=
  if cs.isEmpty then none else digitsFrom? base 0 cs

/-- One more than the largest unsigned number of 64 bits. -/
def wordSize : Nat := Nat.pow 2 64

/-- Whether a number is a signed one of 64 bits. -/
def isSigned (n : Int) : Bool :=
  -(wordSize / 2 : Nat) ≤ n && n < (wordSize / 2 : Nat)

/-- An unsigned number of 64 bits in a base, with an optional plus sign. -/
def unsignedIn? (base : Nat) (cs : List Char) : Option Nat :=
  let ds := match cs with
    | '+' :: ds => ds
    | ds => ds
  (digits? base ds).filter (· < wordSize)

/-- An unsigned number of 64 bits in base ten. -/
def unsigned? (s : String) : Option Nat :=
  unsignedIn? 10 s.toList

/-- A signed number of 64 bits in a base, with an optional sign. -/
def signedIn? (base : Nat) (cs : List Char) : Option Int :=
  match cs with
  | '-' :: ds => ((digits? base ds).filter (· ≤ wordSize / 2)).map fun n => -(n : Int)
  | '+' :: ds => ((digits? base ds).filter (· < wordSize / 2)).map Int.ofNat
  | ds => ((digits? base ds).filter (· < wordSize / 2)).map Int.ofNat

/-- A signed number of 64 bits in base ten. -/
def signed? (s : String) : Option Int :=
  signedIn? 10 s.toList

/-- The decimal numeral of a number. -/
def numeral (n : Nat) : String :=
  String.ofList (Nat.toDigits 10 n)

/-- The decimal numeral of a number that may be negative. -/
def signedNumeral : Int → String
  | .ofNat n => numeral n
  | .negSucc n => "-" ++ numeral (n + 1)

example : unsigned? "+007" = some 7 := by decide
example : unsigned? "+" = none := by decide
example : signed? "-9223372036854775808" = some (-9223372036854775808) := by decide
example : signed? "9223372036854775808" = none := by decide

end Gleaner.Text
