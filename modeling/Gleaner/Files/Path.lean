/-!
# Paths

A path is a text of parts between slashes. Parts that are empty or a single
point stand for nothing, apart from a point at the very start of a relative
path; `..` stands for the directory above and is kept as it is written.

* `Path.parts`: the parts of a path;
* `Path.join`: a path below another one, or in its place if it is absolute;
* `Path.parent?`: the path without its last part;
* `Path.ancestors`: a path, its parent, and so on;
* `Path.fileName?`: the last part, if it is a name.
-/

namespace Gleaner.Path

/-- Whether a path starts from the root. -/
def isAbsolute (p : String) : Bool :=
  p.toList.head? == some '/'

/-- The parts of a path. -/
def parts (p : String) : List String :=
  (p.toList.splitOn '/').map String.ofList

/-- A path without the slashes at its end, apart from the root. -/
def trimSlashes (p : String) : String :=
  match p.toList.reverse.dropWhile (· == '/') with
  | [] => String.ofList (p.toList.take 1)
  | cs => String.ofList cs.reverse

/-- The path that `p` stands for as seen from `base`. -/
def join (base p : String) : String :=
  if isAbsolute p || base.isEmpty then p
  else if base.toList.getLast? == some '/' then base ++ p
  else base ++ "/" ++ p

/-- The start of a path that no part is taken from, the root or a point, and
the rest of the path. -/
def splitHead (cs : List Char) : List Char × List Char :=
  match cs with
  | '/' :: rest => (['/'], rest)
  | ['.'] => (['.'], [])
  | '.' :: '/' :: rest => (['.'], '/' :: rest)
  | cs => ([], cs)

/-- Whether a part stands for nothing. -/
def isIdle (part : List Char) : Bool :=
  part == [] || part == ['.']

/-- The parts without the idle ones at their end, the last one first. -/
def activeParts (body : List Char) : List (List Char) :=
  (body.splitOn '/').reverse.dropWhile isIdle

/-- The last part of a path, if it is a name. -/
def fileName? (p : String) : Option String :=
  match activeParts (splitHead p.toList).2 with
  | [] => none
  | part :: _ => if part = ['.', '.'] then none else some (String.ofList part)

/-- The path without its last part. The root and the empty path have none. -/
def parent? (p : String) : Option String :=
  let (head, body) := splitHead p.toList
  match activeParts body with
  | _ :: before =>
    some (String.ofList (head ++ ['/'].intercalate (before.dropWhile isIdle).reverse))
  | [] => if head = ['.'] then some "" else none

/-- A path and the ones above it, up to a number of them. -/
def ancestorsUpTo : Nat → String → List String
  | 0, _ => []
  | n + 1, p => p :: ((parent? p).map (ancestorsUpTo n)).getD []

/-- A path, its parent, the parent of this, and so on. Every parent is shorter
than its path, so there are no more than the path has characters, and one. -/
def ancestors (p : String) : List String :=
  ancestorsUpTo (p.length + 1) p

example : join "out" "a/b" = "out/a/b" ∧ join "out" "/a" = "/a" ∧ join "" "a" = "a" := by decide
example : parent? "out/./x.csv" = some "out" ∧ parent? "x.csv" = some "" := by decide
example : parent? "." = some "" ∧ parent? "/" = none ∧ parent? "/x" = some "/" := by decide
example : ancestors "a/b" = ["a/b", "a", ""] ∧ ancestors "/a" = ["/a", "/"] := by decide
example : fileName? "a/b/" = some "b" ∧ fileName? "a/.." = none := by decide

end Gleaner.Path
