import Gleaner.Run.Basic
import Gleaner.Table.Column

/-!
# Operations that are made as a whole or not at all

An operation changes the variables in place, and what it changed before a fault
stays changed. That one that fails has changed nothing is to be shown for each
operation. What it does is then what the function of the same name does, which
gives a store only if it succeeds.

* `Change.whole`: such a function as a change in place;
* `Change.set_eq`, `Change.append_eq`, `Change.insert_eq`, `Change.remove_eq`,
  `Change.removeKey_eq`, `Change.popFront_eq`, `Change.resolve_eq`: the operations
  in place;
* `Column.resolve_eq_whole`, `Run.resolve_eq`, `Run.onStore_append` and the
  equations after it: columns, and the steps of runs.
-/

namespace Gleaner

/-- Taking out a name that is not there changes nothing. -/
theorem Fields.erase_of_get?_eq_none {key : String} :
    ∀ {fields : List (String × Value)}, get? key fields = none → erase key fields = fields
  | [], _ => rfl
  | (n, v) :: rest, h => by
    by_cases hn : n = key
    · rw [get?, if_pos hn] at h
      cases h
    · rw [get?, if_neg hn] at h
      rw [erase, if_neg hn, erase_of_get?_eq_none h]

namespace Store

variable {s s' : Store} {name : String} {kind : Kind} {v : Value} {u : Variable}

/-! ## Variables as they are -/

theorem putIn_of_find? : ∀ {bindings : List (String × Variable)},
    (bindings.find? (·.1 == name)).map (·.2) = some u → putIn name u bindings = bindings
  | [], h => by cases h
  | (n, w) :: rest, h => by
    by_cases hn : n = name
    · rw [List.find?_cons_of_pos (by simpa using hn)] at h
      cases h
      rw [putIn, if_pos hn, hn]
    · rw [List.find?_cons_of_neg (by simpa using hn)] at h
      rw [putIn, if_neg hn, putIn_of_find? h]

/-- A name that is given the variable that it has changes nothing. -/
theorem put_of_get? (h : s.get? name = some u) : s.put name u = s :=
  congrArg Store.mk (putIn_of_find? h)

theorem valueOf_eq_ok : s.valueOf name kind = .ok v ↔ s.get? name = some ⟨kind, v⟩ := by
  unfold valueOf lookup
  cases h : s.get? name with
  | none => simp [bind, Except.bind]
  | some u =>
    obtain ⟨k, w⟩ := u
    by_cases hk : k = kind <;> simp [bind, Except.bind, pure, Except.pure, hk]

theorem put_of_valueOf (h : s.valueOf name kind = .ok v) : s.put name ⟨kind, v⟩ = s :=
  put_of_get? (valueOf_eq_ok.mp h)

/-! ## Operations in place -/

namespace Change

variable {α β : Type} {f : Fault}

/-- The change of a function that gives a store only if it succeeds: if it fails, the
store stays as it was. -/
def whole (g : Store → Except Fault (α × Store)) : Change α := fun s =>
  match g s with
  | .ok (a, s') => (.ok a, s')
  | .error f => (.error f, s)

theorem whole_of_ok {g : Store → Except Fault (α × Store)} {a : α} (h : g s = .ok (a, s')) :
    whole g s = (.ok a, s') := by
  rw [whole, h]

theorem whole_of_error {g : Store → Except Fault (α × Store)} (h : g s = .error f) :
    whole g s = (.error f, s) := by
  rw [whole, h]

theorem fst_whole (g : Store → Except Fault (α × Store)) (s : Store) :
    (whole g s).1 = (g s).map (·.1) := by
  cases h : g s with
  | error f => rw [whole_of_error h]; rfl
  | ok r => rw [whole_of_ok h]; rfl

/-- A change made as a whole leaves the store as it was, or as the function gives it. -/
theorem snd_whole {g : Store → Except Fault (α × Store)} {P : Store → Prop} (hs : P s)
    (h : ∀ a s', g s = .ok (a, s') → P s') : P (whole g s).2 := by
  cases hg : g s with
  | error f => rwa [whole_of_error hg]
  | ok r =>
    rw [whole_of_ok hg]
    exact h r.1 r.2 hg

theorem map_whole (f : α → β) (g : Store → Except Fault (α × Store)) :
    (whole g).map f = whole fun s => (g s).map fun (a, s') => (f a, s') := by
  funext s
  cases h : g s with
  | error e => rw [map, whole_of_error h, whole, h]; rfl
  | ok r => rw [map, whole_of_ok h, whole, h]; rfl

theorem map_whole_unit (f : Unit → β) (g : Store → Except Fault Store) :
    (whole fun s => (g s).map ((), ·)).map f = whole fun s => (g s).map (f (), ·) := by
  rw [map_whole]
  refine congrArg whole (funext fun s => ?_)
  cases g s <;> rfl

theorem map_map_unit (c : Change Unit) (f : Unit → β) : ((c.map f).map fun _ => ()) = c := by
  funext s
  rcases h : c s with ⟨_ | _, _⟩ <;> simp [map, h, Except.map]

theorem onValue_of_ok (g : Value → Except Fault α × Value) (h : s.valueOf name kind = .ok v) :
    onValue name kind g s = ((g v).1, s.put name ⟨kind, (g v).2⟩) := by
  rw [onValue, h]

theorem onValue_of_error (g : Value → Except Fault α × Value)
    (h : s.valueOf name kind = .error f) : onValue name kind g s = (.error f, s) := by
  rw [onValue, h]

theorem onValue_eq_ok {g : Value → Except Fault α × Value} {a : α} :
    onValue name kind g s = (.ok a, s') ↔
      ∃ v, s.valueOf name kind = .ok v ∧ (g v).1 = .ok a ∧ s.put name ⟨kind, (g v).2⟩ = s' := by
  cases h : s.valueOf name kind with
  | error e => simp [onValue_of_error g h]
  | ok v => simp [onValue_of_ok g h]

/-- A change of a value is made as a whole if it is so wherever there is a value of the
kind. -/
theorem onValue_eq_whole {g : Value → Except Fault α × Value}
    {op : Store → Except Fault (α × Store)}
    (herror : ∀ s f, s.valueOf name kind = .error f → op s = .error f)
    (hok : ∀ s v, s.valueOf name kind = .ok v →
      whole op s = ((g v).1, s.put name ⟨kind, (g v).2⟩)) :
    onValue name kind g = whole op := by
  funext s
  cases h : s.valueOf name kind with
  | error f => rw [onValue_of_error g h, whole_of_error (herror s f h)]
  | ok v => rw [onValue_of_ok g h, hok s v h]

theorem set_eq (name : String) (v : Value) :
    set name v = whole fun s => (s.set name v).map ((), ·) := by
  refine onValue_eq_whole (fun s f h => ?_) fun s w h => ?_
  · rw [Store.set, h]
    rfl
  · rw [whole, Store.set, h]
    rfl

theorem append_eq (name : String) (v : Value) :
    append name v = whole fun s => (s.append name v).map ((), ·) := by
  refine onValue_eq_whole (fun s f h => ?_) fun s w h => ?_
  · rw [Store.append, h]
    rfl
  · rw [whole, Store.append, h]
    cases w with
    | list items => rfl
    | _ => exact congrArg (Prod.mk _) (put_of_valueOf h).symm

theorem insert_eq (name key : String) (v : Value) :
    insert name key v = whole fun s => (s.insert name key v).map ((), ·) := by
  refine onValue_eq_whole (fun s f h => ?_) fun s w h => ?_
  · rw [Store.insert, h]
    rfl
  · rw [whole, Store.insert, h]
    cases w with
    | mapping fields => rfl
    | _ => exact congrArg (Prod.mk _) (put_of_valueOf h).symm

/-- A list without the element at the first place where a value stands. -/
theorem eraseIdx_of_idxOf? {items : List Value} {i : Nat} (h : items.idxOf? v = some i) :
    v ∈ items ∧ items.eraseIdx i = items.erase v := by
  rw [List.erase_eq_eraseIdx, h]
  exact ⟨List.isSome_idxOf?.mp (by rw [h]; rfl), rfl⟩

theorem remove_eq (name : String) (v : Value) :
    remove name v = whole fun s => (s.remove name v).map ((), ·) := by
  refine onValue_eq_whole (fun s f h => ?_) fun s w h => ?_
  · rw [Store.remove, h]
    rfl
  · rw [whole, Store.remove, h]
    cases w with
    | list items =>
      cases hi : items.idxOf? v with
      | some i =>
        obtain ⟨hv, herase⟩ := eraseIdx_of_idxOf? hi
        simp [bind, Except.bind, pure, Except.pure, Except.map, hv, herase, hi]
      | none =>
        have hv : v ∉ items := List.idxOf?_eq_none_iff.mp hi
        simp [bind, Except.bind, Except.map, hv, hi, put_of_valueOf h]
    | _ => exact congrArg (Prod.mk _) (put_of_valueOf h).symm

/-- The key is taken out in any case. If it was not there, the fields are what they were. -/
theorem removeKey_eq (name key : String) : removeKey name key = whole (·.removeKey name key) := by
  refine onValue_eq_whole (fun s f h => ?_) fun s w h => ?_
  · rw [Store.removeKey, h]
    rfl
  · rw [whole, Store.removeKey, h]
    cases w with
    | mapping fields =>
      cases hkey : Fields.get? key fields with
      | some w => simp [bind, Except.bind, pure, Except.pure, hkey]
      | none =>
        simp [bind, Except.bind, hkey, Fields.erase_of_get?_eq_none hkey, put_of_valueOf h]
    | _ => exact congrArg (Prod.mk _) (put_of_valueOf h).symm

theorem popFront_eq (name : String) : popFront name = whole (·.popFront name) := by
  refine onValue_eq_whole (fun s f h => ?_) fun s w h => ?_
  · rw [Store.popFront, h]
    rfl
  · rw [whole, Store.popFront, h]
    cases w with
    | list items =>
      cases items with
      | nil => exact congrArg (Prod.mk _) (put_of_valueOf h).symm
      | cons v rest => rfl
    | _ => exact congrArg (Prod.mk _) (put_of_valueOf h).symm

theorem read_eq (g : Store → Except Fault α) : read g = whole fun s => (g s).map (·, s) := by
  funext s
  cases h : g s with
  | error f => rw [read, whole, h]; rfl
  | ok a => rw [read, whole, h]; rfl

theorem resolve_eq (d : Document) (o : Operand) : resolve d o = whole (·.resolve d o) := by
  cases o with
  | literal t => exact read_eq _
  | var name =>
    refine (read_eq _).trans (congrArg whole (funext fun s => ?_))
    rw [Store.resolve]
    cases s.value name <;> rfl
  | path name segments =>
    refine (read_eq _).trans (congrArg whole (funext fun s => ?_))
    rw [Store.resolve]
    cases s.value name with
    | error f => rfl
    | ok v =>
      change (access d name v segments).map (·, s) =
        access d name v segments >>= fun w => pure (w, s)
      cases access d name v segments <;> rfl
  | pop name => exact popFront_eq name

end Change

end Store

/-! ## Columns -/

namespace Column

open Store (Change)

variable {d : Document} {s s' : Store} {c : Column}

theorem resolve_eq_whole (d : Document) (c : Column) :
    c.resolve d =
      Change.whole fun s => (s.resolve d c.source).map fun (v, s') => (v.cell d, s') := by
  rw [resolve, Change.resolve_eq, Change.map_whole]

theorem resolve_of_ok {v : Value} (h : s.resolve d c.source = .ok (v, s')) :
    c.resolve d s = (.ok (v.cell d), s') := by
  rw [resolve_eq_whole]
  exact Change.whole_of_ok (by rw [h]; rfl)

theorem resolve_of_error {f : Fault} (h : s.resolve d c.source = .error f) :
    c.resolve d s = (.error f, s) := by
  rw [resolve_eq_whole]
  exact Change.whole_of_error (by rw [h]; rfl)

end Column

/-! ## Steps of runs -/

namespace Run

open Store (Change)

variable {σ α : Type}

/-- A change of the variables that is made as a whole or not at all. -/
def tryStore (f : Store → Except Fault (α × Store)) : Run σ α :=
  onStore (Change.whole f)

/-- A change of the variables that gives nothing, made as a whole or not at
all. -/
def update (f : Store → Except Fault Store) : Run σ Unit :=
  tryStore fun s => (f s).map ((), ·)

theorem resolve_eq (d : Document) (o : Operand) :
    (resolve d o : Run σ Value) = tryStore (·.resolve d o) :=
  congrArg onStore (Change.resolve_eq d o)

theorem onStore_set (name : String) (v : Value) :
    (onStore (Change.set name v) : Run σ Unit) = update (·.set name v) :=
  congrArg onStore (Change.set_eq name v)

theorem onStore_append (name : String) (v : Value) :
    (onStore (Change.append name v) : Run σ Unit) = update (·.append name v) :=
  congrArg onStore (Change.append_eq name v)

theorem onStore_insert (name key : String) (v : Value) :
    (onStore (Change.insert name key v) : Run σ Unit) = update (·.insert name key v) :=
  congrArg onStore (Change.insert_eq name key v)

theorem onStore_remove (name : String) (v : Value) :
    (onStore (Change.remove name v) : Run σ Unit) = update (·.remove name v) :=
  congrArg onStore (Change.remove_eq name v)

theorem onStore_removeKey (name key : String) :
    (onStore ((Change.removeKey name key).map fun _ => ()) : Run σ Unit) =
      update fun s => (s.removeKey name key).map (·.2) := by
  rw [Change.removeKey_eq, Change.map_whole]
  refine congrArg onStore (congrArg Change.whole (funext fun s => ?_))
  dsimp only
  cases s.removeKey name key <;> rfl

end Run

end Gleaner
