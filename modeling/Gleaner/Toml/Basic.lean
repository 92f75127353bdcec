import Gleaner.Toml.Quoted

/-!
# Assignments in TOML

A source of assignments, each of a string or a whole number to a key, on a line
of its own. Lines may be empty and end with a comment. Of TOML this is the part
that settings are made of: a source with a table, a dotted key or any other
value has no assignments, nor has one that assigns to a key twice.

* `Toml.parse?`: the assignments of a source.
-/

namespace Gleaner.Toml

inductive Value where
  | text (s : String)
  /-- A whole number of 64 bits without a sign. -/
  | whole (n : Nat)
  deriving DecidableEq, Repr

/-! ## Numbers -/

/-- The number written by digits of a base, with single underscores between
digits. -/
def grouped? (base : Nat) (cs : List Char) : Option Nat :=
  let groups := cs.splitOn '_'
  if groups.any List.isEmpty then none else Text.digits? base groups.flatten

/-- A number in base ten, which starts with a zero only if it is one. -/
def decimal? (cs : List Char) : Option Nat :=
  if cs.head? = some '0' ∧ cs ≠ ['0'] then none else grouped? 10 cs

/-- A number of any size. A sign stands only before base ten. -/
def unbounded? : List Char → Option Nat
  | '0' :: 'x' :: cs => grouped? 16 cs
  | '0' :: 'o' :: cs => grouped? 8 cs
  | '0' :: 'b' :: cs => grouped? 2 cs
  | '+' :: cs => decimal? cs
  | '-' :: cs => (decimal? cs).filter (· = 0)
  | cs => decimal? cs

/-- A whole number of 64 bits. -/
def whole? (cs : List Char) : Option Nat :=
  (unbounded? cs).filter (· < Text.wordSize)

/-! ## Lines -/

/-- The characters after the blanks at their start. -/
def dropSpaces (cs : List Char) : List Char :=
  cs.dropWhile isSpace

/-- What follows the end of a line, before which there are only blanks and a
comment. -/
def afterLine? (cs : List Char) : Option (List Char) :=
  match dropSpaces cs with
  | [] => some []
  | '\n' :: rest => some rest
  | '#' :: rest =>
    let (comment, rest) := rest.span (· != '\n')
    if comment.all isLineChar then some (dropLineFeed rest) else none
  | _ => none

/-- The characters of keys without quotes. -/
def isKeyChar (c : Char) : Bool :=
  c.isAlphanum || c == '_' || c == '-'

/-- A key, and what follows it. -/
def key? (cs : List Char) : Option (String × List Char) :=
  match cs.span isKeyChar with
  | ([], cs) => quotedLine? cs
  | (name, rest) => some (String.ofList name, rest)

/-- Whether a character goes on with a value that has no quotes. -/
def isValueChar (c : Char) : Bool :=
  !isSpace c && c != '\n' && c != '#'

/-- A value, and what follows it. -/
def value? (cs : List Char) : Option (Value × List Char) :=
  match quoted? cs with
  | some (s, rest) => some (.text s, rest)
  | none =>
    let (word, rest) := cs.span isValueChar
    (whole? word).map fun n => (.whole n, rest)

/-- An assignment, and what follows its line. -/
def assignment? (cs : List Char) : Option ((String × Value) × List Char) := do
  let (key, rest) ← key? (dropSpaces cs)
  let '=' :: rest := dropSpaces rest
    | none
  let (value, rest) ← value? (dropSpaces rest)
  let rest ← afterLine? rest
  return ((key, value), rest)

/-! ## Sources -/

/-- The assignments of some characters, up to a number of lines. -/
def assignmentsUpTo : Nat → List Char → Option (List (String × Value))
  | _, [] => some []
  | 0, _ => none
  | n + 1, cs =>
    match afterLine? cs with
    | some rest => assignmentsUpTo n rest
    | none => do
      let (a, rest) ← assignment? cs
      let more ← assignmentsUpTo n rest
      return a :: more

/-- The characters with one line feed at the end of each line. -/
def joinBreaks : List Char → List Char
  | '\r' :: '\n' :: cs => '\n' :: joinBreaks cs
  | c :: cs => c :: joinBreaks cs
  | [] => []

/-- Whether a key is assigned to twice. -/
def repeatsKey : List (String × Value) → Bool
  | [] => false
  | (key, _) :: rest => rest.any (·.1 == key) || repeatsKey rest

/-- The assignments of a source, in order. Each takes at least one character. -/
def parse? (source : String) : Option (List (String × Value)) :=
  let cs := source.toList
  let cs := joinBreaks (if cs.head? = some '\uFEFF' then cs.tail else cs)
  (assignmentsUpTo cs.length cs).filter (!repeatsKey ·)

example : parse? "a = 0x10 # b\n\n'c' = \"d\"" = some [("a", .whole 16), ("c", .text "d")] := by
  decide
example : parse? "a = 1 b = 2" = none ∧ parse? "a = 012" = none := by decide

end Gleaner.Toml
