import Gleaner.Fault.Basic
import Gleaner.Value.Operand
import Gleaner.Value.Render

/-!
# Variables

The store holds the variables of a run. A variable is declared with a kind,
which says what may be done to it: a list takes elements at its end and gives
them from its front, a mapping takes fields by name, and a scalar is replaced
as a whole. The kind changes only when the name is declared again.

* `Store.declare`: declares a name, in place of what it was;
* `Store.set`, `Store.append`, `Store.insert`: give a variable a value, an
  element or a field;
* `Store.remove`, `Store.removeKey`, `Store.popFront`: take an element or a
  field out;
* `Store.resolve`: the value that an operand stands for.

An operation is said here without a state: it gives a store, or a fault and no
store. Runs make the same operations in place.
-/

namespace Gleaner

/-- What a variable was declared as. -/
inductive Kind where
  | list
  | mapping
  | scalar
  deriving DecidableEq, Repr

namespace Kind

/-- The kind of a spelling. -/
def parse? : String → Option Kind
  | "list" => some list
  | "dict" | "mapping" | "map" => some mapping
  | "str" | "string" | "scalar" => some scalar
  | _ => none

/-- The name of a kind. -/
def name : Kind → String
  | list => "list"
  | mapping => "dict"
  | scalar => "str"

/-- The value of a variable that is given none. -/
def emptyValue : Kind → Value
  | list => .list []
  | mapping => .mapping []
  | scalar => .text ""

/-- The value that a variable starts with: the one given, if it suits the
kind. -/
def start (kind : Kind) (given : Option Value) : Value :=
  match kind, given with
  | list, some (.list items) => .list items
  | mapping, some (.mapping fields) => .mapping fields
  | scalar, some v => v
  | kind, _ => kind.emptyValue

end Kind

structure Variable where
  kind : Kind
  value : Value
  deriving DecidableEq, Repr

/-- The variables of a run by their names, each name once. -/
structure Store where
  bindings : List (String × Variable)
  deriving DecidableEq, Repr

namespace Store

def empty : Store := ⟨[]⟩

/-- The variable of a name. -/
def get? (s : Store) (name : String) : Option Variable :=
  (s.bindings.find? (·.1 == name)).map (·.2)

/-- Replaces the variable of a name among some variables, or adds it. -/
def putIn (name : String) (v : Variable) : List (String × Variable) → List (String × Variable)
  | [] => [(name, v)]
  | (n, w) :: rest => if n = name then (name, v) :: rest else (n, w) :: putIn name v rest

/-- Gives a name a variable. -/
def put (s : Store) (name : String) (v : Variable) : Store :=
  ⟨putIn name v s.bindings⟩

/-- The names of all variables, in order. -/
def names (s : Store) : List String :=
  (s.bindings.map (·.1)).mergeSort fun a b => a ≤ b

theorem get?_put_self (s : Store) (name : String) (v : Variable) :
    (s.put name v).get? name = some v := by
  obtain ⟨vs⟩ := s
  simp only [put, get?]
  induction vs with
  | nil => simp [putIn]
  | cons p rest ih =>
    obtain ⟨n, w⟩ := p
    by_cases h : n = name <;> simp_all [putIn]

theorem get?_put_of_ne (s : Store) {name other : String} (v : Variable) (h : other ≠ name) :
    (s.put name v).get? other = s.get? other := by
  obtain ⟨vs⟩ := s
  simp only [put, get?]
  induction vs with
  | nil => simp [putIn, Ne.symm h]
  | cons p rest ih =>
    obtain ⟨n, w⟩ := p
    by_cases hn : n = name
    · subst hn
      simp [putIn, beq_eq_false_iff_ne.2 (Ne.symm h)]
    · by_cases ho : n = other <;> simp_all [putIn]

/-! ## Operations -/

/-- Declares a name with a kind and perhaps a value. -/
def declare (s : Store) (name : String) (kind : Kind) (given : Option Value) : Store :=
  s.put name ⟨kind, kind.start given⟩

/-- The variable of a name, which must be declared. -/
def lookup (s : Store) (name : String) : Except Fault Variable :=
  match s.get? name with
  | some v => .ok v
  | none => .error (.undefinedVariable name)

/-- The value of a name. -/
def value (s : Store) (name : String) : Except Fault Value :=
  (s.lookup name).map (·.value)

/-- The value of a name that was declared with a kind. -/
def valueOf (s : Store) (name : String) (kind : Kind) : Except Fault Value := do
  let v ← s.lookup name
  if v.kind = kind then return v.value
  else .error (.typeMismatch ("variable " ++ Fault.inQuotes name) kind.name v.kind.name)

/-- Replaces the value of a scalar. -/
def set (s : Store) (name : String) (v : Value) : Except Fault Store := do
  let _ ← s.valueOf name .scalar
  return s.put name ⟨.scalar, v⟩

/-- Adds an element at the end of a list. -/
def append (s : Store) (name : String) (v : Value) : Except Fault Store := do
  match ← s.valueOf name .list with
  | .list items => return s.put name ⟨.list, .list (items ++ [v])⟩
  | _ => return s

/-- Gives a field of a mapping a value. -/
def insert (s : Store) (name key : String) (v : Value) : Except Fault Store := do
  match ← s.valueOf name .mapping with
  | .mapping fields => return s.put name ⟨.mapping, .mapping (Fields.insert key v fields)⟩
  | _ => return s

/-- Takes the first element equal to a value out of a list. -/
def remove (s : Store) (name : String) (v : Value) : Except Fault Store := do
  match ← s.valueOf name .list with
  | .list items =>
    if v ∈ items then return s.put name ⟨.list, .list (items.erase v)⟩
    else .error (.entryNotFound name v.describe)
  | _ => return s

/-- Takes a field out of a mapping and gives its value. -/
def removeKey (s : Store) (name key : String) : Except Fault (Value × Store) := do
  match ← s.valueOf name .mapping with
  | .mapping fields =>
    match Fields.get? key fields with
    | some v => return (v, s.put name ⟨.mapping, .mapping (Fields.erase key fields)⟩)
    | none => .error (.entryNotFound name key)
  | _ => .error (.entryNotFound name key)

/-- Takes the first element out of a list and gives it. -/
def popFront (s : Store) (name : String) : Except Fault (Value × Store) := do
  match ← s.valueOf name .list with
  | .list (v :: rest) => return (v, s.put name ⟨.list, .list rest⟩)
  | _ => .error (.exhausted name)

/-- The part of a value that segments lead to. -/
def access (d : Document) (name : String) (v : Value) : List String → Except Fault Value
  | [] => .ok v
  | segment :: rest =>
    match v.field? d segment with
    | some w => access d name w rest
    | none => .error (.entryNotFound name segment)

/-- The value that an operand stands for. Only `$name.pop` changes the store. -/
def resolve (s : Store) (d : Document) : Operand → Except Fault (Value × Store)
  | .literal t => .ok (.text t, s)
  | .var name => do
    let v ← s.value name
    return (v, s)
  | .path name segments => do
    let v ← s.value name
    let w ← access d name v segments
    return (w, s)
  | .pop name => s.popFront name

end Store

end Gleaner
