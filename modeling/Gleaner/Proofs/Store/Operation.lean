import Gleaner.Proofs.Run.Contract

/-!
# Operations on variables

All that can be done to the variables of a run, as values: `Store.Operation`.
An operation is about one variable at most (`Operation.name?`). If it may change
this variable (`Operation.target?`), it asks it to be of a kind
(`Operation.kind?`). `Operation.change` is what it does in place, which leaves
`Store.after`. Whatever an operation does is a `put` of one variable:

* `Store.change_eq_whole`: an operation gives what `Store.perform` says, and one
  that fails leaves the store as it is;
* `Store.eq_or_puts_of_perform`: an operation that succeeds leaves the store as
  it is, or gives its target a variable of the kind it asks for and finds there;
* `Store.get?_after_of_ne`: all variables but the target stay as they are;
* `Store.perform_of_kind_ne`: an operation on a variable of another kind fails.

The value of a variable of kind list is a list and that of a mapping is a
mapping: `Store.IsSound`, which every operation keeps (`IsSound.after`), so that
it holds of all variables that come about by operations
(`Store.Reachable.isSound`). In such a store the operations on lists and
mappings do what they say whenever they succeed (`IsSound.isFaithful`).

What all operations keep of the variables, runs keep: `Contract.closed_of_after`.
-/

namespace Gleaner

/-- Whether the value of a variable is of the kind it was declared with. -/
def Variable.IsSound (v : Variable) : Prop :=
  match v.kind with
  | .list => ∃ items, v.value = .list items
  | .mapping => ∃ fields, v.value = .mapping fields
  | .scalar => True

theorem Fields.get?_insert_eq (key : String) (v : Value) (k : String) :
    ∀ fields : List (String × Value),
      get? k (insert key v fields) = if k = key then some v else get? k fields
  | [] => by simp [insert, get?, eq_comm]
  | (n, w) :: rest => by
    have ih := Fields.get?_insert_eq key v k rest
    by_cases hk : k = key
    · subst hk
      rw [get?_insert, if_pos rfl]
    · rw [if_neg hk] at ih ⊢
      have hkey : key ≠ k := fun he => hk he.symm
      by_cases hn : n = key
      · subst hn
        simp [insert, get?, hkey]
      · by_cases hlt : key < n <;> simp [insert, get?, hn, hlt, hkey, ih]

/-- The variable that an operand refers to. -/
def Operand.name? : Operand → Option String
  | literal _ => none
  | var name | path name _ | pop name => some name

namespace Store

/-- An operation on the variables, with all that it is given. -/
inductive Operation where
  | declare (name : String) (kind : Kind) (given : Option Value)
  | set (name : String) (v : Value)
  | append (name : String) (v : Value)
  | insert (name key : String) (v : Value)
  | remove (name : String) (v : Value)
  | removeKey (name key : String)
  | popFront (name : String)
  | resolve (o : Operand)
  deriving DecidableEq, Repr

namespace Operation

/-- The variable that an operation is about, whether it is read or changed. -/
def name? : Operation → Option String
  | declare name .. | set name _ | append name _ | insert name .. | remove name _
  | removeKey name _ | popFront name => some name
  | resolve o => o.name?

/-- The variable that an operation may change. -/
def target? : Operation → Option String
  | declare name .. | set name _ | append name _ | insert name .. | remove name _
  | removeKey name _ | popFront name | resolve (.pop name) => some name
  | resolve _ => none

/-- The kind that an operation asks its target to be of. -/
def kind? : Operation → Option Kind
  | set .. => some .scalar
  | append .. | remove .. | popFront _ | resolve (.pop _) => some .list
  | insert .. | removeKey .. => some .mapping
  | declare .. | resolve _ => none

end Operation

/-- What an operation does to the variables. It gives null if it gives nothing of
its own. -/
def Operation.change (d : Document) : Operation → Change Value
  | declare name kind given => .declare name kind given
  | set name v => (Change.set name v).map fun _ => .null
  | append name v => (Change.append name v).map fun _ => .null
  | insert name key v => (Change.insert name key v).map fun _ => .null
  | remove name v => (Change.remove name v).map fun _ => .null
  | removeKey name key => .removeKey name key
  | popFront name => .popFront name
  | resolve o => .resolve d o

/-- What an operation gives, with the store that it leaves if it succeeds. -/
def perform (d : Document) (s : Store) : Operation → Except Fault (Value × Store)
  | .declare name kind given => .ok (kind.start given, s.declare name kind given)
  | .set name v => (s.set name v).map (.null, ·)
  | .append name v => (s.append name v).map (.null, ·)
  | .insert name key v => (s.insert name key v).map (.null, ·)
  | .remove name v => (s.remove name v).map (.null, ·)
  | .removeKey name key => s.removeKey name key
  | .popFront name => s.popFront name
  | .resolve o => s.resolve d o

/-- The store that an operation leaves, whether it succeeds or fails. -/
def after (d : Document) (s : Store) (op : Operation) : Store :=
  (op.change d s).2

/-- Whether a store comes about by operations on an empty one, whichever of them
succeed, and whatever documents they are about. -/
inductive Reachable : Store → Prop where
  | empty : Reachable empty
  | after {s : Store} (h : Reachable s) (d : Document) (op : Operation) : Reachable (s.after d op)

variable {d : Document} {s s' : Store} {name other key : String} {v w : Value} {kind : Kind}
  {op : Operation}

/-- All operations are made as a whole or not at all. -/
theorem change_eq_whole (d : Document) (op : Operation) :
    op.change d = Change.whole (·.perform d op) := by
  cases op with
  | declare => rfl
  | set name v => exact (congrArg _ (Change.set_eq name v)).trans (Change.map_whole_unit ..)
  | append name v => exact (congrArg _ (Change.append_eq name v)).trans (Change.map_whole_unit ..)
  | insert name key v =>
    exact (congrArg _ (Change.insert_eq name key v)).trans (Change.map_whole_unit ..)
  | remove name v => exact (congrArg _ (Change.remove_eq name v)).trans (Change.map_whole_unit ..)
  | removeKey name key => exact Change.removeKey_eq name key
  | popFront name => exact Change.popFront_eq name
  | resolve o => exact Change.resolve_eq d o

theorem after_of_ok (h : s.perform d op = .ok (v, s')) : s.after d op = s' := by
  rw [after, change_eq_whole, Change.whole_of_ok h]

/-- An operation that fails leaves the store as it was. -/
theorem after_of_error {f : Fault} (h : s.perform d op = .error f) : s.after d op = s := by
  rw [after, change_eq_whole, Change.whole_of_error h]

/-- In a run, an operation gives what it performs and leaves the store that comes after it. -/
theorem start_onStore_change (d : Document) (s : Store) (op : Operation) {σ : Type} (sink : σ) :
    (Run.onStore (op.change d) : Run σ Value).start ⟨s, sink⟩ =
      ((s.perform d op).map (·.1), ⟨s.after d op, sink⟩) := by
  have hfst : (op.change d s).1 = (s.perform d op).map (·.1) := by
    rw [change_eq_whole, Change.fst_whole]
  exact congrArg (·, _) hfst

theorem start_tryStore_perform (d : Document) (s : Store) (op : Operation) {σ : Type} (sink : σ) :
    (Run.tryStore (·.perform d op) : Run σ Value).start ⟨s, sink⟩ =
      ((s.perform d op).map (·.1), ⟨s.after d op, sink⟩) := by
  rw [Run.tryStore, ← change_eq_whole, start_onStore_change]

/-! ## Variables of a kind -/

theorem valueOf_of_undeclared (h : s.get? name = none) (kind : Kind) :
    s.valueOf name kind = .error (.undefinedVariable name) := by
  rw [valueOf, lookup, h]
  rfl

theorem valueOf_of_kind_ne {u : Variable} (h : s.get? name = some u) (hk : u.kind ≠ kind) :
    s.valueOf name kind =
      .error (.typeMismatch ("variable " ++ Fault.inQuotes name) kind.name u.kind.name) := by
  rw [valueOf, lookup, h]
  exact if_neg hk

/-! ## What an operation does -/

theorem isSound_start (kind : Kind) (given : Option Value) :
    Variable.IsSound ⟨kind, kind.start given⟩ := by
  cases kind with
  | scalar => trivial
  | list =>
    rcases given with _ | v
    · exact ⟨[], rfl⟩
    · cases v <;> exact ⟨_, rfl⟩
  | mapping =>
    rcases given with _ | v
    · exact ⟨[], rfl⟩
    · cases v <;> exact ⟨_, rfl⟩

/-- A change of the variables that an operation makes: it gives its target a
variable, of the kind that it asks for and finds there. -/
structure Puts (s : Store) (op : Operation) (s' : Store) (name : String) (u : Variable) : Prop where
  target : op.target? = some name
  store : s' = s.put name u
  sound : u.IsSound
  kind : ∀ k, op.kind? = some k → u.kind = k ∧ ∃ v, s.get? name = some ⟨k, v⟩

theorem puts_of_valueOf (h : s.valueOf name kind = .ok v) (ht : op.target? = some name)
    (hk : op.kind? = some kind) (hw : Variable.IsSound ⟨kind, w⟩) :
    s.Puts op (s.put name ⟨kind, w⟩) name ⟨kind, w⟩ := by
  refine ⟨ht, rfl, hw, fun k hk' => ?_⟩
  rw [hk] at hk'
  cases hk'
  exact ⟨rfl, v, valueOf_eq_ok.mp h⟩

theorem puts_of_popFront (h : s.popFront name = .ok (v, s')) (ht : op.target? = some name)
    (hk : op.kind? = some .list) : ∃ u, s.Puts op s' name u := by
  obtain ⟨w, hw, h⟩ := bind_eq_ok.mp h
  split at h <;> cases h
  exact ⟨_, puts_of_valueOf hw ht hk ⟨_, rfl⟩⟩

/-- An operation that succeeds changes nothing or puts one variable. -/
theorem eq_or_puts_of_perform (h : s.perform d op = .ok (v, s')) :
    s' = s ∨ ∃ name u, s.Puts op s' name u := by
  cases op with
  | declare name kind given =>
    cases h
    exact .inr ⟨name, _, rfl, rfl, isSound_start kind given, nofun⟩
  | set name w =>
    obtain ⟨s'', h, he⟩ := map_eq_ok.mp h
    obtain ⟨u, hu, h⟩ := bind_eq_ok.mp h
    cases h
    cases he
    exact .inr ⟨name, _, puts_of_valueOf hu rfl rfl trivial⟩
  | append name w =>
    obtain ⟨s'', h, he⟩ := map_eq_ok.mp h
    obtain ⟨u, hu, h⟩ := bind_eq_ok.mp h
    cases he
    split at h <;> cases h
    · exact .inr ⟨name, _, puts_of_valueOf hu rfl rfl ⟨_, rfl⟩⟩
    · exact .inl rfl
  | insert name key w =>
    obtain ⟨s'', h, he⟩ := map_eq_ok.mp h
    obtain ⟨u, hu, h⟩ := bind_eq_ok.mp h
    cases he
    split at h <;> cases h
    · exact .inr ⟨name, _, puts_of_valueOf hu rfl rfl ⟨_, rfl⟩⟩
    · exact .inl rfl
  | remove name w =>
    obtain ⟨s'', h, he⟩ := map_eq_ok.mp h
    obtain ⟨u, hu, h⟩ := bind_eq_ok.mp h
    cases he
    split at h
    · split at h <;> cases h
      exact .inr ⟨name, _, puts_of_valueOf hu rfl rfl ⟨_, rfl⟩⟩
    · cases h
      exact .inl rfl
  | removeKey name key =>
    obtain ⟨u, hu, h⟩ := bind_eq_ok.mp h
    split at h
    · split at h <;> cases h
      exact .inr ⟨name, _, puts_of_valueOf hu rfl rfl ⟨_, rfl⟩⟩
    · cases h
  | popFront name => exact .inr ⟨name, puts_of_popFront h rfl rfl⟩
  | resolve o =>
    cases o with
    | literal t =>
      cases h
      exact .inl rfl
    | var name =>
      obtain ⟨u, -, h⟩ := bind_eq_ok.mp h
      cases h
      exact .inl rfl
    | path name segments =>
      obtain ⟨u, -, h⟩ := bind_eq_ok.mp h
      obtain ⟨w, -, h⟩ := bind_eq_ok.mp h
      cases h
      exact .inl rfl
    | pop name => exact .inr ⟨name, puts_of_popFront h rfl rfl⟩

/-- An operation leaves the store as it is or puts one variable. -/
theorem after_eq_or_puts (d : Document) (s : Store) (op : Operation) :
    s.after d op = s ∨ ∃ name u, s.Puts op (s.after d op) name u := by
  cases h : s.perform d op with
  | error f => exact .inl (after_of_error h)
  | ok r =>
    rw [after_of_ok h]
    exact eq_or_puts_of_perform h

/-- All variables but the target of an operation stay as they are. -/
theorem get?_after_of_ne (d : Document) (s : Store) (h : op.target? ≠ some other) :
    (s.after d op).get? other = s.get? other := by
  rcases after_eq_or_puts d s op with he | ⟨name, u, hu⟩
  · rw [he]
  · have hne : other ≠ name := fun he => h (he ▸ hu.target)
    rw [hu.store, get?_put_of_ne s u hne]

/-- An operation fails as the look-up of the value that it asks for does. -/
theorem perform_of_valueOf (d : Document) {f : Fault} (ht : op.target? = some name)
    (hk : op.kind? = some kind) (h : s.valueOf name kind = .error f) :
    s.perform d op = .error f := by
  cases op with
  | declare => cases hk
  | set | append | insert | remove | removeKey | popFront =>
    cases ht
    cases hk
    simp only [perform, set, append, insert, remove, removeKey, popFront, h, bind, Except.bind,
      Except.map]
  | resolve o =>
    cases o with
    | literal | var | path => cases hk
    | pop =>
      cases ht
      cases hk
      simp only [perform, resolve, popFront, h, bind, Except.bind]

/-- An operation on a variable of another kind than it asks for fails. -/
theorem perform_of_kind_ne (d : Document) {u : Variable} (hu : s.get? name = some u)
    (ht : op.target? = some name) (hk : op.kind? = some kind) (hne : u.kind ≠ kind) :
    s.perform d op =
      .error (.typeMismatch ("variable " ++ Fault.inQuotes name) kind.name u.kind.name) :=
  perform_of_valueOf d ht hk (valueOf_of_kind_ne hu hne)

/-! ## Operations on lists and mappings -/

theorem append_eq_ok {items : List Value} (h : s.get? name = some ⟨.list, .list items⟩)
    (v : Value) : s.append name v = .ok (s.put name ⟨.list, .list (items ++ [v])⟩) := by
  simp only [append, valueOf_eq_ok.mpr h, bind, Except.bind, pure, Except.pure]

theorem perform_append (d : Document) {items : List Value}
    (h : s.get? name = some ⟨.list, .list items⟩) (v : Value) :
    s.perform d (.append name v) = .ok (.null, s.put name ⟨.list, .list (items ++ [v])⟩) :=
  congrArg (Except.map (Value.null, ·)) (append_eq_ok h v)

theorem remove_eq_ok {items : List Value} (h : s.get? name = some ⟨.list, .list items⟩)
    (hv : v ∈ items) : s.remove name v = .ok (s.put name ⟨.list, .list (items.erase v)⟩) := by
  simp only [remove, valueOf_eq_ok.mpr h, bind, Except.bind, pure, Except.pure, if_pos hv]

theorem popFront_cons {items : List Value} (h : s.get? name = some ⟨.list, .list (v :: items)⟩) :
    s.popFront name = .ok (v, s.put name ⟨.list, .list items⟩) := by
  simp only [popFront, valueOf_eq_ok.mpr h, bind, Except.bind, pure, Except.pure]

theorem popFront_nil (h : s.get? name = some ⟨.list, .list []⟩) :
    s.popFront name = .error (.exhausted name) := by
  simp only [popFront, valueOf_eq_ok.mpr h, bind, Except.bind]

theorem remove_eq_error_iff {items : List Value} (h : s.get? name = some ⟨.list, .list items⟩)
    {f : Fault} :
    s.remove name v = .error f ↔ v ∉ items ∧ f = .entryNotFound name v.describe := by
  by_cases hv : v ∈ items
  · rw [remove_eq_ok h hv]
    exact iff_of_false nofun fun h => h.1 hv
  · simp [remove, valueOf_eq_ok.mpr h, bind, Except.bind, hv, eq_comm]

theorem removeKey_eq_error_iff {fields : List (String × Value)}
    (h : s.get? name = some ⟨.mapping, .mapping fields⟩) {f : Fault} :
    s.removeKey name key = .error f ↔
      Fields.get? key fields = none ∧ f = .entryNotFound name key := by
  cases hf : Fields.get? key fields <;>
    simp [removeKey, valueOf_eq_ok.mpr h, bind, Except.bind, pure, Except.pure, hf, eq_comm]

theorem popFront_eq_error_iff {items : List Value} (h : s.get? name = some ⟨.list, .list items⟩)
    {f : Fault} :
    s.popFront name = .error f ↔ items = [] ∧ f = .exhausted name := by
  cases items with
  | nil =>
    rw [popFront_nil h]
    exact ⟨fun h => ⟨rfl, (Except.error.inj h).symm⟩, fun h => congrArg _ h.2.symm⟩
  | cons v items =>
    rw [popFront_cons h]
    exact iff_of_false nofun nofun

/-! ## Stores whose values are of their kinds -/

/-- Whether the values of all variables are of their kinds. -/
def IsSound (s : Store) : Prop :=
  ∀ name v, s.get? name = some v → v.IsSound

theorem isSound_empty : empty.IsSound := nofun

theorem IsSound.put (h : s.IsSound) {u : Variable} (hu : u.IsSound) : (s.put name u).IsSound := by
  intro other w hw
  by_cases he : other = name
  · subst he
    rw [get?_put_self] at hw
    cases hw
    exact hu
  · rw [get?_put_of_ne s u he] at hw
    exact h other w hw

theorem IsSound.after (h : s.IsSound) (d : Document) (op : Operation) :
    (s.after d op).IsSound := by
  rcases after_eq_or_puts d s op with he | ⟨name, u, hu⟩
  · rwa [he]
  · rw [hu.store]
    exact h.put hu.sound

theorem Reachable.isSound (h : s.Reachable) : s.IsSound := by
  induction h with
  | empty => exact isSound_empty
  | after _ d op ih => exact ih.after d op

/-- Whether the operations on lists and mappings do what they say. Each of them
has a case for a value that is not of the kind of its variable, where it does
nothing or reports something else; these cases do not occur. -/
structure IsFaithful (s : Store) : Prop where
  /-- An element is added at the end. -/
  append {name : String} {v : Value} {s' : Store} : Change.append name v s = (.ok (), s') →
    ∃ items, s.get? name = some ⟨.list, .list items⟩ ∧
      s'.get? name = some ⟨.list, .list (items ++ [v])⟩ ∧
      ∀ other, other ≠ name → s'.get? other = s.get? other
  /-- A field gets the value, and the other fields keep theirs. -/
  insert {name key : String} {v : Value} {s' : Store} : Change.insert name key v s = (.ok (), s') →
    ∃ fields fields', s.get? name = some ⟨.mapping, .mapping fields⟩ ∧
      s'.get? name = some ⟨.mapping, .mapping fields'⟩ ∧
      (∀ k, Fields.get? k fields' = if k = key then some v else Fields.get? k fields) ∧
      ∀ other, other ≠ name → s'.get? other = s.get? other
  /-- One element is taken out, the first one that is equal to the value. -/
  remove {name : String} {v : Value} {s' : Store} : Change.remove name v s = (.ok (), s') →
    ∃ before later, s.get? name = some ⟨.list, .list (before ++ v :: later)⟩ ∧ v ∉ before ∧
      s'.get? name = some ⟨.list, .list (before ++ later)⟩ ∧
      ∀ other, other ≠ name → s'.get? other = s.get? other
  /-- A key that is not found is not there. -/
  removeKey {name key : String} :
    (Change.removeKey name key s).1 = .error (.entryNotFound name key) →
    ∃ fields, s.get? name = some ⟨.mapping, .mapping fields⟩ ∧ Fields.get? key fields = none
  /-- A list that is exhausted is empty. -/
  popFront {name : String} : (Change.popFront name s).1 = .error (.exhausted name) →
    s.get? name = some ⟨.list, .list []⟩

theorem error_of_valueOf {f : Fault} (h : s.valueOf name kind = .error f) :
    f = .undefinedVariable name ∨
      ∃ context expected found, f = .typeMismatch context expected found := by
  cases hg : s.get? name with
  | none =>
    rw [valueOf_of_undeclared hg] at h
    exact .inl (Except.error.inj h).symm
  | some u =>
    by_cases hk : u.kind = kind
    · subst hk
      rw [valueOf_eq_ok.mpr hg] at h
      cases h
    · rw [valueOf_of_kind_ne hg hk] at h
      exact .inr ⟨_, _, _, (Except.error.inj h).symm⟩

namespace IsSound

variable (h : s.IsSound)

include h

theorem exists_items (hv : s.valueOf name .list = .ok v) : ∃ items, v = .list items :=
  h name _ (valueOf_eq_ok.mp hv)

theorem exists_fields (hv : s.valueOf name .mapping = .ok v) : ∃ fields, v = .mapping fields :=
  h name _ (valueOf_eq_ok.mp hv)

theorem isFaithful : s.IsFaithful where
  append {name v s'} hs := by
    obtain ⟨w, hw, -, rfl⟩ := Change.onValue_eq_ok.mp hs
    obtain ⟨items, rfl⟩ := h.exists_items hw
    exact ⟨items, valueOf_eq_ok.mp hw, get?_put_self .., fun _ => get?_put_of_ne s _⟩
  insert {name key v s'} hs := by
    obtain ⟨w, hw, -, rfl⟩ := Change.onValue_eq_ok.mp hs
    obtain ⟨fields, rfl⟩ := h.exists_fields hw
    exact ⟨fields, _, valueOf_eq_ok.mp hw, get?_put_self .., fun k => Fields.get?_insert_eq ..,
      fun _ => get?_put_of_ne s _⟩
  remove {name v s'} hs := by
    obtain ⟨w, hw, hok, rfl⟩ := Change.onValue_eq_ok.mp hs
    obtain ⟨items, rfl⟩ := h.exists_items hw
    have hget := valueOf_eq_ok.mp hw
    cases hi : items.idxOf? v with
    | none =>
      simp only [hi] at hok
      cases hok
    | some i =>
      obtain ⟨hv, herased⟩ := Change.eraseIdx_of_idxOf? hi
      obtain ⟨before, later, hbefore, hitems, herase⟩ := List.exists_erase_eq hv
      rw [hitems] at hget
      refine ⟨before, later, hget, hbefore, ?_, fun _ => get?_put_of_ne s _⟩
      simp only [hi]
      rw [get?_put_self, herased, herase]
  removeKey {name key} hs := by
    rw [Change.removeKey_eq, Change.fst_whole, map_eq_error] at hs
    obtain hv | ⟨w, hv, -⟩ := bind_eq_error.mp hs
    · rcases error_of_valueOf hv with he | ⟨_, _, _, he⟩ <;> cases he
    · obtain ⟨fields, rfl⟩ := h.exists_fields hv
      have hget := valueOf_eq_ok.mp hv
      exact ⟨fields, hget, ((removeKey_eq_error_iff hget).mp hs).1⟩
  popFront {name} hs := by
    rw [Change.popFront_eq, Change.fst_whole, map_eq_error] at hs
    obtain hv | ⟨w, hv, -⟩ := bind_eq_error.mp hs
    · rcases error_of_valueOf hv with he | ⟨_, _, _, he⟩ <;> cases he
    · obtain ⟨items, rfl⟩ := h.exists_items hv
      have hget := valueOf_eq_ok.mp hv
      obtain ⟨rfl, -⟩ := (popFront_eq_error_iff hget).mp hs
      exact hget

end IsSound

end Store

/-! ## Contracts that operations keep -/

/-- A contract that asks nothing of values is closed if all operations keep what it asks of the
variables, and it allows the faults that these may cause. -/
theorem Contract.closed_of_after {c : Contract} {d : Document} (hvalue : ∀ v, c.value v)
    (hfault : ∀ s f, c.store s → s.MayCause f → c.fault f)
    (hstore : ∀ s op, c.store s → c.store (Store.after d s op)) : c.Closed d := by
  have hperform {s s' : Store} {v : Value} (op : Store.Operation) (hs : c.store s)
      (h : s.perform d op = .ok (v, s')) : c.store s' := Store.after_of_ok h ▸ hstore s op hs
  have hupdate {s s' : Store} {r : Except Fault Store} (op : Store.Operation)
      (hop : s.perform d op = r.map (.null, ·)) (hs : c.store s) (h : r = .ok s') : c.store s' :=
    hperform op hs (hop.trans (congrArg (Except.map _) h))
  exact
    { null := hvalue _
      text := fun _ => hvalue _
      table := fun _ => hvalue _
      node := fun _ _ => hvalue _
      nodes := fun _ _ => hvalue _
      hierarchy := fun _ _ => hvalue _
      elements := fun _ _ _ => hvalue _
      branch := fun _ _ => hvalue _
      fault := hfault _ _
      resolve := fun {_ o _ _} hs h => ⟨hvalue _, hperform (.resolve o) hs h⟩
      declare := fun name kind given hs _ => ⟨hvalue _, hperform (.declare name kind given) hs rfl⟩
      set := fun {_ name v _} hs _ => hupdate (.set name v) rfl hs
      append := fun {_ name v _} hs _ => hupdate (.append name v) rfl hs
      insert := fun {_ name key v _} hs _ => hupdate (.insert name key v) rfl hs
      remove := fun {_ name v _} hs => hupdate (.remove name v) rfl hs
      removeKey := fun {_ name key _ _} hs => hperform (.removeKey name key) hs }

end Gleaner
