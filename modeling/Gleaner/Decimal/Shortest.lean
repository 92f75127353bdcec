import Gleaner.Decimal.Double
import Gleaner.Text.Numeral

/-!
# The shortest decimal of a double

A double is written with the fewest digits that read back as the same double,
and of several decimals of that length with the nearest, a tie going to the
even last digit. The numbers that read back as `m · 2^q` form an interval
around it, whose ends belong to it exactly when `m` is even. For each number
of digits from 1 to 17 the two decimals of that length on either side of the
double are tried; the first length with a decimal inside the interval gives
the answer.

* `Double.shortest`: the digits and the place of the point;
* `Double.text`: the written form. The point is placed among the digits for
  numbers from `10^-5` up to `10^16`, all others have an exponent.
-/

namespace Gleaner.Decimal

namespace Double

/-- Whether `a / b < 10^e`. -/
def belowPower (a b : Nat) (e : Int) : Bool :=
  if 0 ≤ e then a < b * Nat.pow 10 e.toNat else a * Nat.pow 10 (-e).toNat < b

/-- The decimal exponent of a positive quotient: the `e` with
`10^e ≤ a / b < 10^(e+1)`. The binary logarithm gives it up to one. -/
def decimalExponent (a b : Nat) : Int :=
  let e := (((a.log2 : Int) - (b.log2 : Int)) * 30103).fdiv 100000
  if belowPower a b e then e - 1
  else if belowPower a b (e + 1) then e
  else e + 1

/-- The multiple of `10^p` at or below `a / b`, as its factor. -/
def floorAt (a b : Nat) (p : Int) : Nat :=
  if 0 ≤ p then a / (b * Nat.pow 10 p.toNat) else a * Nat.pow 10 (-p).toNat / b

/-- The sides of `c · 10^p` and `a / b` over a common denominator. -/
def sides (c a b : Nat) (p : Int) : Nat × Nat :=
  if 0 ≤ p then (c * Nat.pow 10 p.toNat * b, a) else (c * b, a * Nat.pow 10 (-p).toNat)

/-- The digits of a double of significand `m > 0` and exponent `q`, and the
decimal exponent of their last place. The double and the ends of its interval
are counted in quarters of its last binary place. -/
def shortest (m : Nat) (q : Int) : Nat × Int :=
  let (unit, den) : Nat × Nat :=
    if 2 ≤ q then (Nat.pow 2 (q - 2).toNat, 1) else (1, Nat.pow 2 (2 - q).toNat)
  let below := if m = Nat.pow 2 52 ∧ -1074 < q then 1 else 2
  let value := 4 * m * unit
  let low := (4 * m - below) * unit
  let high := (4 * m + 2) * unit
  let e := decimalExponent value den
  let reads (c : Nat) (p : Int) : Bool :=
    let (x, l) := sides c low den p
    let (x', h) := sides c high den p
    if m % 2 = 0 then l ≤ x && x' ≤ h else l < x && x' < h
  let pick (n : Nat) : Option (Nat × Int) :=
    let p := e - (n - 1 : Nat)
    let c := floorAt value den p
    let (x, v) := sides c value den p
    let (y, _) := sides (c + 1) value den p
    match reads c p, reads (c + 1) p with
    | true, true =>
      let up := y - v < v - x || (y - v == v - x && c % 2 == 1)
      some (if up then c + 1 else c, p)
    | true, false => some (c, p)
    | false, true => some (c + 1, p)
    | false, false => none
  ((List.range 17).findSome? fun n => pick (n + 1)).getD (floorAt value den (e - 16), e - 16)

/-- The digits without the zeros at their end, and the exponent of the last
place that is left. -/
def dropZeros (ds : List Char) (p : Int) : List Char × Int :=
  let kept := (ds.reverse.dropWhile (· == '0')).reverse
  (kept, p + (ds.length - kept.length : Nat))

/-- The written form of a positive double. -/
def positiveText (m : Nat) (q : Int) : String :=
  let (c, p) := shortest m q
  let (ds, p) := dropZeros (Nat.toDigits 10 c) p
  let n : Int := ds.length
  let point := n + p
  if 0 < point ∧ point ≤ 16 then
    if n ≤ point then
      String.ofList (ds ++ List.replicate (point - n).toNat '0') ++ ".0"
    else
      String.ofList (ds.take point.toNat) ++ "." ++ String.ofList (ds.drop point.toNat)
  else if -5 < point ∧ point ≤ 0 then
    "0." ++ String.ofList (List.replicate (-point).toNat '0' ++ ds)
  else
    let mantissa := match ds with
      | d :: [] => String.ofList [d]
      | d :: rest => String.ofList (d :: '.' :: rest)
      | [] => ""
    mantissa ++ "e" ++ Text.signedNumeral (point - 1)

/-- The written form of a double. -/
def text : Double → String
  | finite negative m q =>
    (if negative then "-" else "") ++ (if m = 0 then "0.0" else positiveText m q)
  | infinite negative => if negative then "-.inf" else ".inf"
  | nan => ".nan"

end Double

end Gleaner.Decimal
