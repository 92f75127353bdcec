import Gleaner.Store.Basic

/-!
# Changes in place

A run works on its variables where they stand. A change gives a value or a
fault, and in both cases the store that it leaves: nothing takes back what was
done before the fault. The value of a variable is handed out to be changed only
if the variable is of the kind that is asked for.

* `Store.Change`: a computation on a store;
* `Change.read`, `Change.onValue`: a look at the variables, and a change of the
  value of one;
* `Change.declare`, `Change.set`, `Change.append`, `Change.insert`,
  `Change.remove`, `Change.removeKey`, `Change.popFront`: the operations;
* `Change.resolve`: the value that an operand stands for.
-/

namespace Gleaner

namespace Store

/-- A computation that changes a store and gives a value or a fault. -/
abbrev Change (α : Type) : Type :=
  Store → Except Fault α × Store

namespace Change

variable {α β : Type}

/-- Makes something else of what a change gives. -/
def map (f : α → β) (c : Change α) : Change β := fun s =>
  ((c s).1.map f, (c s).2)

/-- Looks at the variables and changes nothing. -/
def read (f : Store → Except Fault α) : Change α := fun s =>
  (f s, s)

/-- Changes the value of a variable that was declared with a kind. -/
def onValue (name : String) (kind : Kind) (f : Value → Except Fault α × Value) : Change α :=
  fun s =>
    match s.valueOf name kind with
    | .error e => (.error e, s)
    | .ok v => ((f v).1, s.put name ⟨kind, (f v).2⟩)

/-- Declares a name and gives the value that it starts with. -/
def declare (name : String) (kind : Kind) (given : Option Value) : Change Value := fun s =>
  (.ok (kind.start given), s.declare name kind given)

/-- Replaces the value of a scalar. -/
def set (name : String) (v : Value) : Change Unit :=
  onValue name .scalar fun _ => (.ok (), v)

/-- Adds an element at the end of a list. -/
def append (name : String) (v : Value) : Change Unit :=
  onValue name .list fun
    | .list items => (.ok (), .list (items ++ [v]))
    | w => (.ok (), w)

/-- Gives a field of a mapping a value. -/
def insert (name key : String) (v : Value) : Change Unit :=
  onValue name .mapping fun
    | .mapping fields => (.ok (), .mapping (Fields.insert key v fields))
    | w => (.ok (), w)

/-- Looks for the first element equal to a value and takes it out of a list. -/
def remove (name : String) (v : Value) : Change Unit :=
  onValue name .list fun
    | .list items =>
      match items.idxOf? v with
      | some i => (.ok (), .list (items.eraseIdx i))
      | none => (.error (.entryNotFound name v.describe), .list items)
    | w => (.ok (), w)

/-- Takes a field out of a mapping, and then gives its value if it was there. -/
def removeKey (name key : String) : Change Value :=
  onValue name .mapping fun v =>
    let (removed, rest) := match v with
      | .mapping fields => (Fields.get? key fields, .mapping (Fields.erase key fields))
      | w => (none, w)
    match removed with
    | some w => (.ok w, rest)
    | none => (.error (.entryNotFound name key), rest)

/-- Takes the first element out of a list and gives it. -/
def popFront (name : String) : Change Value :=
  onValue name .list fun
    | .list (v :: rest) => (.ok v, .list rest)
    | w => (.error (.exhausted name), w)

/-- The value that an operand stands for. Only `$name.pop` changes the store. -/
def resolve (d : Document) : Operand → Change Value
  | .literal t => read fun _ => .ok (.text t)
  | .var name => read (·.value name)
  | .path name segments => read fun s => do access d name (← s.value name) segments
  | .pop name => popFront name

end Change

end Store

end Gleaner
