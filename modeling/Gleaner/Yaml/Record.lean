import Gleaner.Yaml.Basic
import Gleaner.Text.Numeral

/-!
# Records in YAML

A record has a fixed list of fields, each with one name or several that mean
the same. It is written as a mapping from the names, where other names are
passed over, or as a list of the values in the order of the fields. A key may
also be the number of a field, counted from zero; a key that is neither a text
nor such a number belongs to no record.

* `FieldKey.ofYaml`: the field that a key names;
* `Yaml.fields?`: the values of the fields of a record;
* `Yaml.mappingFields?`: the same where a list is no record and null is an empty
  one.
-/

namespace Gleaner

/-- What a key of a record names. -/
inductive FieldKey where
  | field (index : Nat)
  /-- A name or number outside the record, whose value is passed over. -/
  | other
  deriving DecidableEq, Repr

namespace FieldKey

/-- The field that a key stands for, where each field has a list of names. -/
def ofYaml (names : List (List String)) : Yaml → Option FieldKey
  | .text s => some (((names.findIdx? (·.contains s)).map field).getD other)
  | .int (.ofNat n) =>
    if n < names.length then some (field n)
    else if n < Text.wordSize then some other
    else none
  | _ => none

end FieldKey

namespace Yaml

/-- The values of the fields of a record as its entries give them, each field
at most once. -/
def fieldsOfEntries? (names : List (List String)) :
    List (Yaml × Yaml) → List (Option Yaml) → Option (List (Option Yaml))
  | [], found => some found
  | (k, v) :: rest, found =>
    match FieldKey.ofYaml names k with
    | none => none
    | some .other => fieldsOfEntries? names rest found
    | some (.field i) =>
      if (found[i]?.join).isSome then none else fieldsOfEntries? names rest (found.set i (some v))

/-- The values of the fields of a record, none for a field that is left out. -/
def fields? (names : List (List String)) : Yaml → Option (List (Option Yaml))
  | mapping entries => fieldsOfEntries? names entries (names.map fun _ => none)
  | list items =>
    if items.length ≤ names.length then
      some (items.map some ++ List.replicate (names.length - items.length) none)
    else none
  | _ => none

/-- The values of the fields of a record that is written as a mapping. -/
def mappingFields? (names : List (List String)) : Yaml → Option (List (Option Yaml))
  | mapping entries => fieldsOfEntries? names entries (names.map fun _ => none)
  | null => some (names.map fun _ => none)
  | _ => none

end Yaml

end Gleaner
