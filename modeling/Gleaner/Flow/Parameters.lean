import Gleaner.Flow.Action
import Gleaner.Yaml.Basic

/-!
# Parameters of an action

The parameters of an action are the entries of a mapping. A parameter that is
null counts as left out, and parameters that no one asks for are passed over.
Each reader gives `none` for a parameter that is left out, and a fault that
names the action and the parameter for a value of the wrong form.

* `Parameters.text?`, `Parameters.integer?`, `Parameters.index?`,
  `Parameters.flag?`: scalars;
* `Parameters.entries?`, `Parameters.pairs`: mappings;
* `Parameters.marker?`: the marker of a hierarchy.
-/

namespace Gleaner

/-- The name of an action and the parameters given to it. -/
structure Parameters where
  action : String
  entries : List (Yaml × Yaml)

namespace Parameters

/-- The value of a parameter. -/
def get? (p : Parameters) (key : String) : Option Yaml :=
  (Yaml.valueAt? key p.entries).filter (!·.isNull)

/-- The fault of a parameter of the wrong form. -/
def invalid (p : Parameters) (key reason : String) : Fault :=
  .invalidParameter p.action key reason

/-- The fault of a parameter that is left out. -/
def missing (p : Parameters) (key : String) : Fault :=
  .missingParameter p.action key

/-- Reads the value of a parameter, if it is given. -/
def readWith {α : Type} (p : Parameters) (key reason : String) (f : Yaml → Option α) :
    Except Fault (Option α) :=
  match p.get? key with
  | none => .ok none
  | some v =>
    match f v with
    | some a => .ok (some a)
    | none => .error (p.invalid key reason)

/-! ## Scalars -/

/-- A scalar as text. -/
def text? (p : Parameters) (key : String) : Except Fault (Option String) :=
  p.readWith key "expected a scalar value" Yaml.scalarText?

/-- A scalar as text, which must be given. -/
def text (p : Parameters) (key : String) : Except Fault String := do
  match ← p.text? key with
  | some s => return s
  | none => .error (p.missing key)

/-- A scalar as an operand. -/
def operand? (p : Parameters) (key : String) : Except Fault (Option Operand) := do
  return (← p.text? key).map Operand.parse

/-- A whole number of 64 bits, or a text that is the numeral of one. -/
def integerOf? : Yaml → Option Int
  | .int n => if Text.isSigned n then some n else none
  | .text s => Text.signed? (Text.trim s)
  | _ => none

/-- A whole number. -/
def integer? (p : Parameters) (key : String) : Except Fault (Option Int) :=
  p.readWith key "expected an integer" integerOf?

/-- A whole number, where a negative one counts as left out. -/
def index? (p : Parameters) (key : String) : Except Fault (Option Nat) := do
  match ← p.integer? key with
  | some (.ofNat n) => return some n
  | _ => return none

/-- A truth value, or one of its spellings in letters of any case. -/
def flagOf? : Yaml → Option Bool
  | .bool b => some b
  | .text s =>
    match Text.lower s with
    | "true" | "yes" => some true
    | "false" | "no" => some false
    | _ => none
  | _ => none

/-- A truth value. -/
def flag? (p : Parameters) (key : String) : Except Fault (Option Bool) :=
  p.readWith key "expected true or false" flagOf?

/-! ## Mappings -/

/-- The entries of a mapping. -/
def entriesOf? : Yaml → Option (List (Yaml × Yaml))
  | .mapping entries => some entries
  | _ => none

/-- The entries of a mapping. -/
def entries? (p : Parameters) (key : String) : Except Fault (Option (List (Yaml × Yaml))) :=
  p.readWith key "expected a mapping" entriesOf?

/-- The entries of the mapping that is given under the first of two names, or
else under the second. -/
def entriesOfEither? (p : Parameters) (key other : String) :
    Except Fault (Option (List (Yaml × Yaml))) := do
  match ← p.entries? key with
  | some entries => return some entries
  | none => p.entries? other

/-- The pairs of a mapping from scalars to scalars, in order. -/
def pairs (p : Parameters) (key : String) : Except Fault (List (String × String)) := do
  match ← p.entries? key with
  | none => return []
  | some entries =>
    match Yaml.scalarPairs? entries with
    | some pairs => return pairs
    | none => .error (p.invalid key "expected scalar keys and values")

/-- The filter for an id or a class. -/
def filter (p : Parameters) : Except Fault Filter := do
  let id ← p.text? "id"
  let cls ← p.text? "class"
  return .ofIdOrClass id cls

/-- The fixed columns of a table. -/
def columns (p : Parameters) : Except Fault (List Column) := do
  return (← p.pairs "preDefinedColumns").map fun (name, raw) => ⟨name, .parse raw⟩

/-- The marker that a mapping from one element type to attributes stands for,
or what is wrong with the mapping. -/
def markerOf : List (Yaml × Yaml) → Except String Marker
  | [] => .error "expected one element type"
  | [(type, attributes)] =>
    match type.scalarText? with
    | none => .error "element type must be a string"
    | some type =>
      match attributes with
      | .null => .ok ⟨type, .any⟩
      | .mapping entries =>
        match Yaml.scalarPairs? entries with
        | some pairs => .ok ⟨type, ⟨pairs⟩⟩
        | none => .error "attributes must be scalar pairs"
      | _ => .error "attributes must be a mapping"
  | _ => .error "expected exactly one element type"

/-- A marker, given under one of two names. -/
def marker? (p : Parameters) (key other : String) : Except Fault (Option Marker) := do
  match ← p.entriesOfEither? key other with
  | none => return none
  | some entries =>
    match markerOf entries with
    | .ok m => return some m
    | .error reason => .error (p.invalid key reason)

/-- The levels of a mapping from element types to levels. -/
def levelPairs? : List (Yaml × Yaml) → Option (List (String × Nat))
  | [] => some []
  | (.text type, .int (.ofNat n)) :: rest =>
    if n < Text.wordSize then (levelPairs? rest).map ((type, n) :: ·) else none
  | _ => none

/-- The levels of a hierarchy, as a mapping or as a path. -/
def levels (p : Parameters) (key : String) : Except Fault Levels := do
  let levels ← match p.get? key with
    | none => .error (p.missing key)
    | some (.mapping entries) =>
      match levelPairs? entries with
      | some pairs => pure (Levels.ofPairs pairs)
      | none => .error (p.invalid key "expected element types mapped to non-negative levels")
    | some _ => (p.text key).map Levels.ofPath
  if levels.isEmpty then .error (p.invalid key "no element types given")
  else return levels

end Parameters

end Gleaner
