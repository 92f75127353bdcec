import Gleaner.Hierarchy.Basic
import Gleaner.Table.Basic

/-!
# Values

What an action takes and gives. Nodes are named by their place, so two node
values are equal exactly when they are the same node. A mapping keeps its
fields in the order of their names, each name once.

* `Value.elements?`: the values that a loop runs over;
* `Value.field?`: one step of access into a value;
* `Fields.insert`, `Fields.erase`, `Fields.get?`: the fields of a mapping.
-/

namespace Gleaner

inductive Value where
  | null
  | text (s : String)
  | node (i : NodeId)
  | nodes (is : List NodeId)
  | hierarchy (t : Hierarchy)
  | branch (is : List NodeId)
  | table (t : Table)
  | list (items : List Value)
  | mapping (fields : List (String × Value))
  deriving Repr

instance : Inhabited Value := ⟨.null⟩

namespace Value

/-! ## Equality -/

mutual

/-- Whether two values are the same. -/
def same : Value → Value → Bool
  | null, null => true
  | text s, text s' => s == s'
  | node i, node i' => i == i'
  | nodes is, nodes is' => is == is'
  | hierarchy t, hierarchy t' => t == t'
  | branch is, branch is' => is == is'
  | table t, table t' => t == t'
  | list items, list items' => sameItems items items'
  | mapping fields, mapping fields' => sameFields fields fields'
  | _, _ => false

/-- Whether two lists hold the same values. -/
def sameItems : List Value → List Value → Bool
  | [], [] => true
  | v :: vs, w :: ws => same v w && sameItems vs ws
  | _, _ => false

/-- Whether two lists hold the same fields. -/
def sameFields : List (String × Value) → List (String × Value) → Bool
  | [], [] => true
  | (a, v) :: vs, (b, w) :: ws => a == b && same v w && sameFields vs ws
  | _, _ => false

end

mutual

theorem same_iff : ∀ v w : Value, same v w = true ↔ v = w
  | null, w => by cases w <;> simp [same]
  | text _, w => by cases w <;> simp [same]
  | node _, w => by cases w <;> simp [same]
  | nodes _, w => by cases w <;> simp [same]
  | hierarchy _, w => by cases w <;> simp [same]
  | branch _, w => by cases w <;> simp [same]
  | table _, w => by cases w <;> simp [same]
  | list items, w => by cases w <;> simp [same, sameItems_iff items]
  | mapping fields, w => by cases w <;> simp [same, sameFields_iff fields]

theorem sameItems_iff : ∀ vs ws : List Value, sameItems vs ws = true ↔ vs = ws
  | [], ws => by cases ws <;> simp [sameItems]
  | v :: vs, ws => by cases ws <;> simp [sameItems, same_iff v, sameItems_iff vs]

theorem sameFields_iff : ∀ vs ws : List (String × Value), sameFields vs ws = true ↔ vs = ws
  | [], ws => by cases ws <;> simp [sameFields]
  | (a, v) :: vs, ws => by
    rcases ws with _ | ⟨⟨b, w⟩, ws⟩ <;>
      simp [sameFields, same_iff v, sameFields_iff vs, and_assoc]

end

instance : DecidableEq Value := fun v w =>
  decidable_of_iff (same v w = true) (same_iff v w)

/-! ## Kinds of values -/

/-- The name of a value's type in messages. -/
def typeName : Value → String
  | null => "null"
  | text _ => "string"
  | node _ => "node"
  | nodes _ => "node collection"
  | hierarchy _ => "hierarchy tree"
  | branch _ => "branch"
  | table _ => "table"
  | list _ => "list"
  | mapping _ => "mapping"

/-- The text of a text value. -/
def text? : Value → Option String
  | text s => some s
  | _ => none

/-- The elements of a sequence, in order. -/
def elements? : Value → Option (List Value)
  | nodes is | branch is => some (is.map node)
  | list items => some items
  | _ => none

end Value

/-! ## Fields of a mapping -/

namespace Fields

/-- The value of a name. -/
def get? (name : String) : List (String × Value) → Option Value
  | [] => none
  | (n, v) :: rest => if n = name then some v else get? name rest

/-- Gives a name a value, at its place in the order of names. -/
def insert (name : String) (v : Value) : List (String × Value) → List (String × Value)
  | [] => [(name, v)]
  | (n, w) :: rest =>
    if n = name then (name, v) :: rest
    else if name < n then (name, v) :: (n, w) :: rest
    else (n, w) :: insert name v rest

/-- Takes a name out. -/
def erase (name : String) : List (String × Value) → List (String × Value)
  | [] => []
  | (n, v) :: rest => if n = name then rest else (n, v) :: erase name rest

theorem get?_insert (name : String) (v : Value) (fields : List (String × Value)) :
    get? name (insert name v fields) = some v := by
  induction fields with
  | nil => simp [insert, get?]
  | cons f rest ih =>
    obtain ⟨n, w⟩ := f
    simp only [insert]
    split
    · simp [get?]
    · split
      · simp [get?]
      · simp [get?, *]

end Fields

/-! ## Access into a value -/

/-- One step of access: a field of a mapping, an element of a sequence by its
place, the text of a node or one of its attributes. -/
def Value.field? (d : Document) (v : Value) (segment : String) : Option Value :=
  match v with
  | .mapping fields => Fields.get? segment fields
  | .list items => (Text.unsigned? segment).bind (items[·]?)
  | .nodes is | .branch is => (Text.unsigned? segment).bind fun i => (is[i]?).map .node
  | .node i =>
    if segment = "text" then some (.text (d.text i))
    else (d.attribute? i segment).map .text
  | _ => none

end Gleaner
