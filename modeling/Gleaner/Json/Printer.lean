import Gleaner.Decimal.Shortest
import Gleaner.Json.Basic

/-!
# The text of a JSON value

Two forms of one text: `Json.compact` has no space at all, `Json.pretty` puts
each item and field on a line of its own, indented by two spaces a level, and
leaves empty lists and records closed. In both, fields stand in the order of
the code points of their names, and a string escapes only the quote, the
backslash and the characters below the space.
-/

namespace Gleaner.Json

/-- A hexadecimal digit in its small form. -/
def hexDigit (n : Nat) : Char :=
  Nat.digitChar n

/-- A character as it stands in a quoted string. -/
def escapeChar (c : Char) : List Char :=
  if c = '"' then ['\\', '"']
  else if c = '\\' then ['\\', '\\']
  else if c = '\n' then ['\\', 'n']
  else if c = '\r' then ['\\', 'r']
  else if c = '\t' then ['\\', 't']
  else if c.toNat = 0x08 then ['\\', 'b']
  else if c.toNat = 0x0C then ['\\', 'f']
  else if c.toNat < 0x20 then
    ['\\', 'u', '0', '0', hexDigit (c.toNat / 16), hexDigit (c.toNat % 16)]
  else [c]

/-- A text in quotes. -/
def quoted (s : String) : String :=
  String.ofList ('"' :: s.toList.flatMap escapeChar ++ ['"'])

/-- Fields in the order of their names. -/
def sortFields (fields : List (String × String)) : List (String × String) :=
  fields.mergeSort fun a b => a.1 ≤ b.1

/-- Parts between two brackets, with a separator between them. -/
def enclose (opening closing separator : String) (parts : List String) : String :=
  opening ++ separator.intercalate parts ++ closing

mutual

/-- The text of a value without spaces. -/
def compact : Json → String
  | null => "null"
  | bool b => if b then "true" else "false"
  | int n => Text.signedNumeral n
  | double x => x.text
  | text s => quoted s
  | list items => enclose "[" "]" "," (compactItems items)
  | record fields =>
    enclose "\x7b" "\x7d" ","
      ((sortFields (compactFields fields)).map fun (name, value) => quoted name ++ ":" ++ value)

/-- The texts of some items. -/
def compactItems : List Json → List String
  | [] => []
  | j :: rest => compact j :: compactItems rest

/-- The names and texts of some fields. -/
def compactFields : List (String × Json) → List (String × String)
  | [] => []
  | (name, j) :: rest => (name, compact j) :: compactFields rest

end

/-- Parts on lines of their own between two brackets, the parts one level
deeper than the brackets. -/
def encloseLines (depth : Nat) (opening closing : String) (parts : List String) : String :=
  let newline (n : Nat) := "\n" ++ String.ofList (List.replicate (2 * n) ' ')
  if parts.isEmpty then opening ++ closing
  else
    opening ++ newline (depth + 1) ++ ("," ++ newline (depth + 1)).intercalate parts ++
      newline depth ++ closing

mutual

/-- The text of a value whose first line stands at a depth. -/
def prettyAt (depth : Nat) : Json → String
  | null => "null"
  | bool b => if b then "true" else "false"
  | int n => Text.signedNumeral n
  | double x => x.text
  | text s => quoted s
  | list items => encloseLines depth "[" "]" (prettyItems (depth + 1) items)
  | record fields =>
    encloseLines depth "\x7b" "\x7d"
      ((sortFields (prettyFields (depth + 1) fields)).map fun (name, value) =>
        quoted name ++ ": " ++ value)

/-- The texts of some items at a depth. -/
def prettyItems (depth : Nat) : List Json → List String
  | [] => []
  | j :: rest => prettyAt depth j :: prettyItems depth rest

/-- The names and texts of some fields at a depth. -/
def prettyFields (depth : Nat) : List (String × Json) → List (String × String)
  | [] => []
  | (name, j) :: rest => (name, prettyAt depth j) :: prettyFields depth rest

end

/-- The text of a value over several lines. -/
def pretty (j : Json) : String :=
  prettyAt 0 j

end Gleaner.Json
