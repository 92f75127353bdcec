import Gleaner.Yaml.Basic

/-!
# The values of scalars

A plain scalar without a tag stands for null, a truth value or a number if it
is written like one, and else for its text. A number of several digits with a
zero in front is a text, and so is a decimal that is not finite as a double.
Whole numbers have up to 128 bits, but only those of 64 bits are values. The
standard tags ask for one kind of value.

* `Scalar.plain?`: the value of a plain scalar;
* `Scalar.tagged?`: the value of a scalar with a tag.
-/

namespace Gleaner.Yaml.Scalar

/-- Whether a text is one of the spellings of null. -/
def isNull (s : String) : Bool :=
  ["null", "Null", "NULL", "~"].contains s

/-- The truth value of a spelling. -/
def bool? : String → Option Bool
  | "true" | "True" | "TRUE" => some true
  | "false" | "False" | "FALSE" => some false
  | _ => none

/-- The characters after a sign, if one comes first. -/
def dropSign (cs : List Char) : List Char :=
  match cs with
  | '+' :: rest | '-' :: rest => rest
  | cs => cs

/-- Whether some characters are several digits with a zero in front, perhaps
after a sign. -/
def isPadded (cs : List Char) : Bool :=
  match dropSign cs with
  | '0' :: d :: rest => (d :: rest).all Char.isDigit
  | _ => false

/-- The number of digits with the mark of a base in front, or of decimal
digits. -/
def magnitude? (cs : List Char) : Option Nat :=
  let marked := match cs with
    | '0' :: 'x' :: ds => Text.digits? 16 ds
    | '0' :: 'o' :: ds => Text.digits? 8 ds
    | '0' :: 'b' :: ds => Text.digits? 2 ds
    | _ => none
  match marked with
  | some n => some n
  | none => if isPadded cs then none else Text.digits? 10 cs

/-- One more than the largest unsigned number of 128 bits. -/
def doubleWordSize : Nat := Nat.pow 2 128

/-- The whole number that is written by some characters, if it has at most 128
bits. -/
def wholeNumber? (cs : List Char) : Option Int :=
  match cs with
  | '-' :: ds => ((magnitude? ds).filter (· ≤ doubleWordSize / 2)).map fun n => -(n : Int)
  | '+' :: ds => ((magnitude? ds).filter (· < doubleWordSize)).map Int.ofNat
  | ds => ((magnitude? ds).filter (· < doubleWordSize)).map Int.ofNat

/-- The value of a whole number, if it has 64 bits. -/
def ofWholeNumber? (n : Int) : Option Yaml :=
  if Text.isSigned n || (0 ≤ n && n < Text.wordSize) then some (.int n) else none

/-- The double that is written by some characters. -/
def double? (cs : List Char) : Option Decimal.Double :=
  match String.ofList cs with
  | ".inf" | ".Inf" | ".INF" | "+.inf" | "+.Inf" | "+.INF" => some (.infinite false)
  | "-.inf" | "-.Inf" | "-.INF" => some (.infinite true)
  | ".nan" | ".NaN" | ".NAN" => some .nan
  | _ => (Decimal.Double.parse? cs).filter Decimal.Double.isFinite

/-- The value of a plain scalar without a tag, unless it is a whole number of
more than 64 bits. -/
def plain? (s : String) : Option Yaml :=
  let cs := s.toList
  if cs.isEmpty || isNull s then some .null
  else
    match bool? s, wholeNumber? cs with
    | some b, _ => some (.bool b)
    | none, some n => ofWholeNumber? n
    | none, none =>
      match if isPadded cs then none else double? cs with
      | some x => some (.double x)
      | none => some (.text s)

/-- What the standard tags start with. -/
def standard : String := "tag:yaml.org,2002:"

/-- The value of a scalar with a tag. A standard tag asks for a spelling of its
kind; a tag of one's own has no value, and any other tag gives the text. -/
def tagged? (tag s : String) : Option Yaml :=
  if tag.toList.head? = some '!' then none
  else if tag = standard ++ "bool" then (bool? s).map .bool
  else if tag = standard ++ "int" then (wholeNumber? s.toList).bind ofWholeNumber?
  else if tag = standard ++ "float" then (double? s.toList).map .double
  else if tag = standard ++ "null" then if isNull s then some .null else none
  else some (.text s)

end Gleaner.Yaml.Scalar
