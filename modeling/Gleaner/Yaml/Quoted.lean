import Gleaner.Text.Numeral
import Gleaner.Yaml.Fold

/-!
# Quoted scalars

Between single quotes only a doubled quote stands for something else, a quote.
Between double quotes a backslash starts an escape: a letter or sign for one
character, `x`, `u` or `U` and two, four or eight hexadecimal digits for the
character of that number, or a break that is dropped. Gaps are folded, and no
document marker may start a line.

* `Quoted.read?`: the text after an opening quote, and what follows the
  closing one.
-/

namespace Gleaner.Yaml.Quoted

/-- The character of an escape of one letter or sign. -/
def escape? : Char → Option Char
  | '0' => some '\x00'
  | 'a' => some '\x07'
  | 'b' => some '\x08'
  | 't' | '\t' => some '\t'
  | 'n' => some '\n'
  | 'v' => some '\x0b'
  | 'f' => some '\x0c'
  | 'r' => some '\r'
  | 'e' => some '\x1b'
  | ' ' => some ' '
  | '"' => some '"'
  | '/' => some '/'
  | '\\' => some '\\'
  | 'N' => some '\u0085'
  | '_' => some '\u00a0'
  | 'L' => some '\u2028'
  | 'P' => some '\u2029'
  | _ => none

/-- The number of digits of an escape by number. -/
def codeLength? : Char → Option Nat
  | 'x' => some 2
  | 'u' => some 4
  | 'U' => some 8
  | _ => none

/-- The character of a number, if there is one. -/
def charOf? (n : Nat) : Option Char :=
  if n.isValidChar then some (Char.ofNat n) else none

/-- Where a reader stands in a quoted scalar. -/
inductive State where
  | text
  | gap (g : Gap)
  /-- After a backslash. -/
  | escape
  /-- Within an escape by number: the digits still to come and the number so
  far. -/
  | code (left n : Nat)
  /-- After a single quote, which ends the scalar unless another one follows. -/
  | quote

/-- The gap that a state holds. -/
def State.gap? : State → Option Gap
  | gap g => some g
  | _ => none

/-- The state after the letter or sign of an escape, and the characters read. -/
def afterEscape (c : Char) (read : List Char) : Option (State × List Char) :=
  if isBreak c then some (.gap .afterEscape, read)
  else
    match codeLength? c with
    | some n => some (.code n 0, read)
    | none => (escape? c).map fun c => (.text, c :: read)

/-- The state after a digit of an escape by number, and the characters read. -/
def afterDigit (left n : Nat) (c : Char) (read : List Char) : Option (State × List Char) :=
  (Text.digit? c).bind fun d =>
    let n := 16 * n + d
    if left ≤ 1 then (charOf? n).map fun c => (.text, c :: read)
    else some (.code (left - 1) n, read)

/-- The text from a state on, after the characters read so far, and the spots
after the closing quote. -/
def readFrom? (single : Bool) : List Spot → State → List Char → Option (String × List Spot)
  | [], _, _ => none
  | s :: rest, .escape, read =>
    match afterEscape s.char read with
    | some (state, read) => readFrom? single rest state read
    | none => none
  | s :: rest, .code left n, read =>
    match afterDigit left n s.char read with
    | some (state, read) => readFrom? single rest state read
    | none => none
  | s :: rest, .quote, read =>
    if s.char = '\'' then readFrom? single rest .text ('\'' :: read)
    else some (String.ofList read.reverse, s :: rest)
  | s :: rest, state, read =>
    let c := s.char
    if isSpace c || isBreak c then
      readFrom? single rest (.gap ((state.gap?.getD .empty).add c)) read
    else if c = endMark || Spot.atMarker (s :: rest) then none
    else
      let read := Gap.foldOnto state.gap? read
      if single && c = '\'' then readFrom? single rest .quote read
      else if !single && c = '"' then some (String.ofList read.reverse, rest)
      else if !single && c = '\\' then readFrom? single rest .escape read
      else readFrom? single rest .text (c :: read)

/-- The text after an opening quote, and the spots after the closing one. -/
def read? (single : Bool) (ss : List Spot) : Option (String × List Spot) :=
  readFrom? single ss .text []

end Gleaner.Yaml.Quoted
