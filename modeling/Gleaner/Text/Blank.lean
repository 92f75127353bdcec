/-!
# Blank characters, words and normal text

A text is read as its words: the runs of characters between blanks, where the
blanks are the characters of the Unicode property White_Space. `normalize` is
the form in which text taken from a page is put into cells and labels: double
quotes are dropped first, then the words are joined by single spaces.

* `splitWords`: the words of a text, in order;
* `trim`: a text without the blanks at both ends;
* `normalize`: the normal form of a text.
-/

namespace Gleaner.Text

/-- The characters of the Unicode property White_Space. -/
def isBlank (c : Char) : Bool :=
  let n := c.toNat
  (0x09 ≤ n && n ≤ 0x0D) || n == 0x20 || n == 0x85 || n == 0xA0 || n == 0x1680 ||
    (0x2000 ≤ n && n ≤ 0x200A) || n == 0x2028 || n == 0x2029 || n == 0x202F || n == 0x205F ||
    n == 0x3000

/-- The words of a list of characters: the runs between blanks, without the
empty ones. -/
def splitWords (cs : List Char) : List (List Char) :=
  (cs.splitOnP isBlank).filter (!·.isEmpty)

/-- The words of a text. -/
def words (s : String) : List String :=
  (splitWords s.toList).map String.ofList

/-- The characters without the blanks at their start. -/
def trimStart (cs : List Char) : List Char :=
  cs.dropWhile isBlank

/-- The characters without the blanks at their end. -/
def trimEnd (cs : List Char) : List Char :=
  (cs.reverse.dropWhile isBlank).reverse

/-- The text without the blanks at both ends. -/
def trim (s : String) : String :=
  String.ofList (trimEnd (trimStart s.toList))

/-- Whether a text has no character other than blanks. -/
def isBlankText (s : String) : Bool :=
  s.toList.all isBlank

/-- The characters without double quotes. -/
def dropQuotes (cs : List Char) : List Char :=
  cs.filter (· != '"')

/-- The normal form of a list of characters: its words once the quotes are
gone, joined by single spaces. -/
def normalizeChars (cs : List Char) : List Char :=
  [' '].intercalate (splitWords (dropQuotes cs))

/-- The normal form of a text. -/
def normalize (s : String) : String :=
  String.ofList (normalizeChars s.toList)

end Gleaner.Text
