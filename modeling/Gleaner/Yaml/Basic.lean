import Gleaner.Decimal.Shortest

/-!
# YAML values

The values of flow files and of parameters. A mapping is a list of entries in
the order in which they were written; its keys are values of any kind. Whether
a key stands twice in a mapping is asked where it matters.

* `Yaml.same`: equality, in which the order of the entries of a mapping does
  not count;
* `Yaml.repeatsKey`: whether some mapping in a value has a key twice;
* `Yaml.scalarText?`: a scalar as text.
-/

namespace Gleaner

inductive Yaml where
  | null
  | bool (b : Bool)
  | int (n : Int)
  | double (x : Decimal.Double)
  | text (s : String)
  | list (items : List Yaml)
  | mapping (entries : List (Yaml × Yaml))
  deriving Repr

namespace Yaml

instance : Inhabited Yaml := ⟨null⟩

/-! ## Equality of values -/

mutual

/-- Whether two values are the same. Mappings are the same when they have as
many entries and each entry of the one stands in the other. -/
def same : Yaml → Yaml → Bool
  | null, null => true
  | bool b, bool b' => b == b'
  | int n, int n' => n == n'
  | double x, double x' => x.sameNumber x'
  | text s, text s' => s == s'
  | list items, list items' => sameItems items items'
  | mapping entries, mapping entries' =>
    entries.length == entries'.length && sameEntries entries entries'
  | _, _ => false

/-- Whether two lists hold the same values. -/
def sameItems : List Yaml → List Yaml → Bool
  | [], [] => true
  | v :: vs, w :: ws => same v w && sameItems vs ws
  | _, _ => false

/-- Whether each entry of a list stands in another one. -/
def sameEntries : List (Yaml × Yaml) → List (Yaml × Yaml) → Bool
  | [], _ => true
  | (k, v) :: rest, entries =>
    entries.any (fun (k', v') => same k k' && same v v') && sameEntries rest entries

end

mutual

/-- Whether some mapping in a value has a key twice. -/
def repeatsKey : Yaml → Bool
  | list items => repeatsKeyItems items
  | mapping entries => repeatsKeyEntries entries
  | _ => false

/-- Whether some mapping in some values has a key twice. -/
def repeatsKeyItems : List Yaml → Bool
  | [] => false
  | v :: rest => repeatsKey v || repeatsKeyItems rest

/-- Whether a key of some entries stands twice, or some mapping in them has a
key twice. -/
def repeatsKeyEntries : List (Yaml × Yaml) → Bool
  | [] => false
  | (k, v) :: rest =>
    rest.any (same k ·.1) || repeatsKey k || repeatsKey v || repeatsKeyEntries rest

end

/-! ## Views of a value -/

def isNull : Yaml → Bool
  | null => true
  | _ => false

/-- The text of a text value. -/
def text? : Yaml → Option String
  | text s => some s
  | _ => none

/-- A scalar as text: numbers and truth values as they are written plainly. -/
def scalarText? : Yaml → Option String
  | text s => some s
  | int n => some (Text.signedNumeral n)
  | double x => some x.text
  | bool b => some (if b then "true" else "false")
  | _ => none

/-- The scalar keys and values of some entries, if they all are. -/
def scalarPairs? : List (Yaml × Yaml) → Option (List (String × String))
  | [] => some []
  | (k, v) :: rest => do
    let name ← k.scalarText?
    let value ← v.scalarText?
    let pairs ← scalarPairs? rest
    return (name, value) :: pairs

/-- The value of a name in some entries, the first if it stands twice. -/
def valueAt? (name : String) (entries : List (Yaml × Yaml)) : Option Yaml :=
  (entries.find? fun (k, _) => k.text? == some name).map (·.2)

end Yaml

end Gleaner
