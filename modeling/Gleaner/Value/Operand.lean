/-!
# Operands

The value of a parameter is a text, or a reference to a variable: `$name` for
its value, `$name.a.b` for a part of it, `$name.pop` for the first element of
a list, which is taken out. A reference may stand in braces after the dollar
sign. A text that only looks like a reference, with no name in it, stands for
itself.

* `Operand.parse`: the operand that a text stands for;
* `Operand.text`: an operand in its form without braces.
-/

namespace Gleaner

inductive Operand where
  | literal (s : String)
  | var (name : String)
  /-- A part of a variable's value. -/
  | path (name : String) (segments : List String)
  /-- The first element of a list variable, which is taken out. -/
  | pop (name : String)
  deriving DecidableEq, Repr

namespace Operand

/-- What stands after the dollar sign of a text, without the braces around it
if it has any. -/
def body? : List Char → Option (List Char)
  | '$' :: rest =>
    match rest with
    | '\x7b' :: inner =>
      if inner.getLast? = some '\x7d' ∧ 1 < inner.length then some inner.dropLast else some rest
    | rest => some rest
  | _ => none

/-- The reference written by a name and the segments after it. -/
def ofSegments (name : String) (segments : List String) : Operand :=
  match segments with
  | [] => var name
  | ["pop"] => pop name
  | segments => path name segments

/-- The operand that a text stands for. -/
def parse (s : String) : Operand :=
  match body? s.toList with
  | none => literal s
  | some body =>
    match (body.splitOn '.').map String.ofList with
    | [] => literal s
    | name :: segments => if name.isEmpty then literal s else ofSegments name segments

/-- The text of an operand. -/
def text : Operand → String
  | literal s => s
  | var name => "$" ++ name
  | path name segments => "$" ++ name ++ "." ++ ".".intercalate segments
  | pop name => "$" ++ name ++ ".pop"

end Operand

end Gleaner
