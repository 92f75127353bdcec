import Gleaner.Text.Numeral
import Gleaner.Yaml.Spot

/-!
# Block scalars

A block scalar is the indented text below a `|` or `>`. Its header may say how
far the text is indented, counted from the block around it, and whether the
breaks at its end are dropped (`-`) or kept (`+`); usually one is kept. Without
a number in the header the text is indented as far as the deepest of its lines
up to the first that is not empty. A literal scalar (`|`) keeps its breaks; in
a folded one (`>`) a line feed between two lines that start with no space
becomes a space, or is dropped if empty lines follow.

* `Block.read?`: the text after the indicator, and what follows it.
-/

namespace Gleaner.Yaml.Block

/-- What becomes of the breaks at the end. -/
inductive Chomping where
  | clip
  | strip
  | keep
  deriving DecidableEq, Repr

/-- The chomping of a sign. -/
def chomping? : Char → Option Chomping
  | '-' => some .strip
  | '+' => some .keep
  | _ => none

/-- The chomping at the start of some spots, and the spots after it. -/
def takeChomping (ss : List Spot) : Chomping × List Spot :=
  match chomping? (Spot.char0 ss) with
  | some c => (c, ss.tail)
  | none => (.clip, ss)

/-- The depth at the start of some spots, zero if there is none, and the spots
after it. A depth is one digit other than zero. -/
def takeDepth? (ss : List Spot) : Option (Nat × List Spot) :=
  let c := Spot.char0 ss
  if c = '0' then none
  else if c.isDigit then some ((Text.digit? c).getD 0, ss.tail)
  else some (0, ss)

/-- The chomping and depth of a header, in any order, and the spots after its
line. -/
def header? (ss : List Spot) : Option (Chomping × Nat × List Spot) :=
  let (chomping, ss) := takeChomping ss
  (takeDepth? ss).bind fun (depth, ss) =>
    let (chomping, ss) :=
      if chomping = .clip ∧ depth ≠ 0 then takeChomping ss else (chomping, ss)
    (Spot.endOfLine? ss).map fun ss => (chomping, depth, Spot.skipBreak ss)

/-- The text of a block scalar in the making. -/
structure Body where
  /-- The characters of the lines so far, the last one first. -/
  read : List Char
  /-- The break after the last line. -/
  lineBreak : Option Char
  /-- The breaks of the empty lines after it, the last one first. -/
  emptyLines : List Char
  /-- Whether the last line starts with a space. -/
  spaced : Bool

namespace Body

def empty : Body :=
  ⟨[], none, [], false⟩

/-- The body with a line opened, whose first character is known. -/
def openLine (b : Body) (literal : Bool) (c : Char) : Body :=
  let folds := !literal && b.lineBreak == some '\n' && !b.spaced && !isSpace c
  let between :=
    if folds then if b.emptyLines.isEmpty then [' '] else b.emptyLines
    else b.emptyLines ++ b.lineBreak.toList
  ⟨c :: (between ++ b.read), none, [], isSpace c⟩

/-- The text, with the breaks at its end as the chomping says. -/
def text (b : Body) (chomping : Chomping) : String :=
  let tail := match chomping with
    | .strip => []
    | .clip => b.lineBreak.toList
    | .keep => b.emptyLines ++ b.lineBreak.toList
  String.ofList (tail ++ b.read).reverse

end Body

/-- Where a reader stands in a block scalar. -/
inductive State where
  /-- Before the text of a line. The indentation is zero as long as it is not
  known; `deepest` is the deepest line so far. -/
  | margin (indent deepest : Nat)
  /-- Within the text of a line. -/
  | line (indent : Nat)

/-- The body from a state on, and the spots after it. The text is indented by
at least `least`. -/
def readFrom? (literal : Bool) (least : Nat) :
    List Spot → State → Body → Option (Body × List Spot)
  | [], _, b => some (b, [])
  | s :: rest, .line indent, b =>
    let c := s.char
    if isBreak c then
      readFrom? literal least rest (.margin indent 0) { b with lineBreak := some c }
    else if c = endMark then some (b, s :: rest)
    else readFrom? literal least rest (.line indent) { b with read := c :: b.read }
  | s :: rest, .margin indent deepest, b =>
    let c := s.char
    let inMargin := indent = 0 || s.column < indent
    let deepest := max deepest s.column
    if inMargin && c = ' ' then readFrom? literal least rest (.margin indent deepest) b
    else if inMargin && c = '\t' then none
    else if isBreak c then
      let b := { b with emptyLines := c :: b.emptyLines }
      readFrom? literal least rest (.margin indent deepest) b
    else
      let indent := if indent = 0 then max deepest least else indent
      if s.column = indent && c != endMark then
        readFrom? literal least rest (.line indent) (b.openLine literal c)
      else some (b, s :: rest)

/-- The text after the indicator of a block scalar, and the spots after it. The
blocks around it are indented by `outer`, which is -1 at the top. -/
def read? (literal : Bool) (outer : Int) (ss : List Spot) : Option (String × List Spot) :=
  (header? ss).bind fun (chomping, depth, ss) =>
    let indent := if depth = 0 then 0 else outer.toNat + depth
    (readFrom? literal (max (outer + 1).toNat 1) ss (.margin indent 0) .empty).map fun (b, ss) =>
      (b.text chomping, ss)

end Gleaner.Yaml.Block
