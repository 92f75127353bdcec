/-!
# Doubles as exact numbers

The finite doubles of IEEE 754 are the numbers `m · 2^q` with a whole `m`
below `2^53` and `q` from -1074 to 971. They are kept in that form, so that
reading a decimal and choosing the digits of a text are arithmetic on whole
numbers.

* `Double.ofDecimal`: the double nearest to a decimal, a tie going to the
  even significand;
* `Double.parse?`: the double of a decimal numeral.
-/

namespace Gleaner.Decimal

/-- A double, by its sign, significand and binary exponent. -/
inductive Double where
  /-- The number `m · 2^q`, negative if so marked. -/
  | finite (negative : Bool) (m : Nat) (q : Int)
  | infinite (negative : Bool)
  | nan
  deriving DecidableEq, Repr

/-- The nearest whole number to a quotient, a tie going to the even one. -/
def roundDiv (num den : Nat) : Nat :=
  let q := num / den
  let r := num % den
  if 2 * r < den then q else if den < 2 * r then q + 1 else q + q % 2

/-- The quotient `num / (den · 2^q)` as a quotient of whole numbers. -/
def unscale (num den : Nat) (q : Int) : Nat × Nat :=
  if 0 ≤ q then (num, den * Nat.pow 2 q.toNat) else (num * Nat.pow 2 (-q).toNat, den)

namespace Double

/-- The double nearest to a positive quotient. The binary logarithms of its
two parts give the exponent up to one, and the first test settles which. -/
def ofRatio (negative : Bool) (num den : Nat) : Double :=
  let k : Int := (num.log2 : Int) - (den.log2 : Int)
  let (a, b) := unscale num den (k - 53)
  let q := max (if a / b < Nat.pow 2 53 then k - 53 else k - 52) (-1074)
  let (a, b) := unscale num den q
  let m := roundDiv a b
  let (m, q) := if m = Nat.pow 2 53 then (Nat.pow 2 52, q + 1) else (m, q)
  if 971 < q then infinite negative else finite negative m q

/-- The double nearest to `digits · 10^exponent`. Past 400 places before or
after the point the answer no longer depends on the digits. -/
def ofDecimal (negative : Bool) (digits : Nat) (exponent : Int) : Double :=
  let places : Int := (Nat.toDigits 10 digits).length + exponent
  if digits = 0 ∨ places < -400 then finite negative 0 (-1074)
  else if 400 < places then infinite negative
  else if 0 ≤ exponent then ofRatio negative (digits * Nat.pow 10 exponent.toNat) 1
  else ofRatio negative digits (Nat.pow 10 (-exponent).toNat)

/-- Whether a double is neither infinite nor undefined. -/
def isFinite : Double → Bool
  | finite .. => true
  | _ => false

/-- Equality of numbers, in which the two zeros agree, but with all undefined
numbers equal. -/
def sameNumber : Double → Double → Bool
  | finite s m q, finite s' m' q' => (m == 0 && m' == 0) || (s == s' && m == m' && q == q')
  | infinite s, infinite s' => s == s'
  | nan, nan => true
  | _, _ => false

/-- The number written by ASCII digits, none standing for zero. -/
def digitsValue (cs : List Char) : Nat :=
  cs.foldl (fun n c => 10 * n + (c.toNat - '0'.toNat)) 0

/-- The exponent that follows the digits of a numeral: none at its end, else
a mark, an optional sign and at least one digit. -/
def exponent? : List Char → Option Int
  | [] => some 0
  | c :: cs =>
    if c != 'e' && c != 'E' then none
    else
      let (negative, ds) := match cs with
        | '-' :: ds => (true, ds)
        | '+' :: ds => (false, ds)
        | ds => (false, ds)
      if ds.isEmpty || !ds.all Char.isDigit then none
      else some (if negative then -(digitsValue ds : Int) else digitsValue ds)

/-- The double of a decimal numeral: an optional sign, digits with at most one
point among them and at least one digit, and an optional exponent. -/
def parse? (cs : List Char) : Option Double :=
  let (negative, cs) := match cs with
    | '-' :: cs => (true, cs)
    | '+' :: cs => (false, cs)
    | cs => (false, cs)
  let (whole, rest) := cs.span Char.isDigit
  let (fraction, rest) := match rest with
    | '.' :: rest => rest.span Char.isDigit
    | rest => ([], rest)
  if whole.isEmpty && fraction.isEmpty then none
  else (exponent? rest).map fun e =>
    ofDecimal negative (digitsValue (whole ++ fraction)) (e - fraction.length)

end Double

end Gleaner.Decimal
