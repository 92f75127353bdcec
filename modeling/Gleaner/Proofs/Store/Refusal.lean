import Gleaner.Proofs.Store.Operation

/-!
# What operations change and when they fail

An operation other than a declaration changes the value of one variable at most. The variables
that there are and their kinds stay. It fails if its variable is not declared, else if the
variable is of another kind than it asks for, else if it asks the value for something that is not
there, and it then leaves all variables as they are.

* `Store.after_eq_or_put`: all that an operation can change;
* `Store.Leads`: the part of a value that segments lead to, with `access_eq_ok_iff` and
  `access_eq_error_iff`: what access gives, and the segment at which it fails;
* `Store.Lacks`: an operation asks a value for something that is not there;
* `Store.perform_of_undeclared`, `Store.perform_of_kind_ne`, `Store.perform_eq_error_iff_lacks`: the
  three kinds of failures, in the order in which they are found;
* `Store.Behaves`, `Store.behaves_of_reachable`: the whole statement.
-/

namespace Gleaner

namespace Store

namespace Operation

/-- Whether an operation declares a variable. -/
def IsDeclaration (op : Operation) : Prop :=
  ∃ name kind given, op = declare name kind given

end Operation

variable {d : Document} {s s' : Store} {name other : String} {v w : Value} {kind : Kind}
  {op : Operation} {u : Variable} {f : Fault}

/-! ## What operations change -/

theorem map_fst_putIn {bindings : List (String × Variable)}
    (h : (bindings.find? (·.1 == name)).isSome) (u : Variable) :
    (putIn name u bindings).map (·.1) = bindings.map (·.1) := by
  induction bindings with
  | nil => cases h
  | cons b rest ih =>
    obtain ⟨n, w⟩ := b
    by_cases hn : n = name
    · simp [putIn, hn]
    · rw [List.find?_cons_of_neg (by simpa using hn)] at h
      simp [putIn, hn, ih h]

/-- A declared variable that is given another value is no further variable. -/
theorem names_put (h : s.get? name = some u) (u' : Variable) : (s.put name u').names = s.names := by
  have hfound : (s.bindings.find? (·.1 == name)).isSome := by
    rw [← Option.isSome_map, ← get?, h, Option.isSome_some]
  rw [names, names, put, map_fst_putIn hfound]

theorem exists_kind_of_target (hop : ¬op.IsDeclaration) (ht : op.target? = some name) :
    ∃ kind, op.kind? = some kind := by
  cases op with
  | declare name kind given => exact (hop ⟨name, kind, given, rfl⟩).elim
  | set | append | insert | remove | removeKey | popFront => exact ⟨_, rfl⟩
  | resolve o =>
    cases o with
    | pop => exact ⟨_, rfl⟩
    | literal | var | path => cases ht

/-- An operation that declares nothing leaves all variables as they are, or gives its target another
value of the same kind. -/
theorem after_eq_or_put (d : Document) (s : Store) (hop : ¬op.IsDeclaration) :
    s.after d op = s ∨ ∃ name kind v w, op.target? = some name ∧ s.get? name = some ⟨kind, v⟩ ∧
      s.after d op = s.put name ⟨kind, w⟩ := by
  rcases after_eq_or_puts d s op with he | ⟨name, ⟨kind, w⟩, hputs⟩
  · exact .inl he
  · obtain ⟨k, hk⟩ := exists_kind_of_target hop hputs.target
    obtain ⟨rfl, v, hv⟩ := hputs.kind k hk
    exact .inr ⟨name, kind, v, w, hputs.target, hv, hputs.store⟩

theorem names_after (d : Document) (s : Store) (hop : ¬op.IsDeclaration) :
    (s.after d op).names = s.names := by
  rcases after_eq_or_put d s hop with he | ⟨name, kind, v, w, -, hv, he⟩
  · rw [he]
  · rw [he, names_put hv]

theorem kind_after (d : Document) (s : Store) (hop : ¬op.IsDeclaration) (other : String) :
    ((s.after d op).get? other).map (·.kind) = (s.get? other).map (·.kind) := by
  rcases after_eq_or_put d s hop with he | ⟨name, kind, v, w, -, hv, he⟩
  · rw [he]
  · rw [he]
    by_cases hother : other = name
    · rw [hother, get?_put_self, hv]
      rfl
    · rw [get?_put_of_ne s _ hother]

theorem after_of_target_eq_none (d : Document) (s : Store) (ht : op.target? = none) :
    s.after d op = s := by
  rcases after_eq_or_puts d s op with he | ⟨name, u, hputs⟩
  · exact he
  · cases ht.symm.trans hputs.target

/-! ## Parts of values -/

/-- Whether segments lead from a value to a part of it, one step of access after the other. -/
inductive Leads (d : Document) : Value → List String → Value → Prop where
  | nil {v : Value} : Leads d v [] v
  | cons {v w part : Value} {segment : String} {rest : List String} :
    v.field? d segment = some w → Leads d w rest part → Leads d v (segment :: rest) part

theorem leads_cons_iff {segment : String} {rest : List String} :
    Leads d v (segment :: rest) w ↔ ∃ part, v.field? d segment = some part ∧ Leads d part rest w := by
  constructor
  · intro h
    cases h with
    | cons hpart hrest => exact ⟨_, hpart, hrest⟩
  · rintro ⟨part, hpart, hrest⟩
    exact .cons hpart hrest

theorem access_cons_of_some {segment : String} (h : v.field? d segment = some w)
    (rest : List String) : access d name v (segment :: rest) = access d name w rest := by
  rw [access, h]

theorem access_eq_ok_iff {segments : List String} :
    access d name v segments = .ok w ↔ Leads d v segments w := by
  constructor
  · intro h
    induction segments generalizing v with
    | nil =>
      cases h
      exact .nil
    | cons segment rest ih =>
      unfold access at h
      split at h
      · rename_i part hpart
        exact .cons hpart (ih h)
      · cases h
  · intro h
    induction h with
    | nil => rfl
    | cons hpart _ ih => exact (access_cons_of_some hpart _).trans ih

/-- Access fails at the first segment that the value reached so far does not have. -/
theorem access_eq_error_iff {segments : List String} : access d name v segments = .error f ↔
    ∃ before segment rest part, segments = before ++ segment :: rest ∧ Leads d v before part ∧
      part.field? d segment = none ∧ f = .entryNotFound name segment := by
  constructor
  · intro h
    induction segments generalizing v with
    | nil => cases h
    | cons segment rest ih =>
      unfold access at h
      split at h
      · rename_i part hpart
        obtain ⟨before, last, rest', part', rfl, hleads, hlast⟩ := ih h
        exact ⟨segment :: before, last, rest', part', rfl, .cons hpart hleads, hlast⟩
      · rename_i hnone
        cases h
        exact ⟨[], segment, rest, v, rfl, .nil, hnone, rfl⟩
  · rintro ⟨before, segment, rest, part, rfl, hleads, hnone, rfl⟩
    induction hleads with
    | nil => rw [List.nil_append, access, hnone]
    | cons hpart _ ih => exact (access_cons_of_some hpart _).trans (ih hnone)

/-! ## Failures -/

/-- Whether an operation asks the value of its variable for something that is not there, and the
fault that this is. -/
inductive Lacks (d : Document) : Operation → Value → Fault → Prop where
  | element {name : String} {v : Value} {items : List Value} : v ∉ items →
    Lacks d (.remove name v) (.list items) (.entryNotFound name v.describe)
  | field {name key : String} {fields : List (String × Value)} : Fields.get? key fields = none →
    Lacks d (.removeKey name key) (.mapping fields) (.entryNotFound name key)
  | first {name : String} : Lacks d (.popFront name) (.list []) (.exhausted name)
  | pop {name : String} : Lacks d (.resolve (.pop name)) (.list []) (.exhausted name)
  | part {name segment : String} {before rest : List String} {v part : Value} :
    Leads d v before part → part.field? d segment = none →
    Lacks d (.resolve (.path name (before ++ segment :: rest))) v (.entryNotFound name segment)

theorem lacks_remove_iff {items : List Value} : Lacks d (.remove name w) (.list items) f ↔
    w ∉ items ∧ f = .entryNotFound name w.describe := by
  constructor
  · intro h
    cases h with
    | element hw => exact ⟨hw, rfl⟩
  · rintro ⟨hw, rfl⟩
    exact .element hw

theorem lacks_removeKey_iff {key : String} {fields : List (String × Value)} :
    Lacks d (.removeKey name key) (.mapping fields) f ↔
      Fields.get? key fields = none ∧ f = .entryNotFound name key := by
  constructor
  · intro h
    cases h with
    | field hkey => exact ⟨hkey, rfl⟩
  · rintro ⟨hkey, rfl⟩
    exact .field hkey

theorem lacks_popFront_iff {items : List Value} :
    Lacks d (.popFront name) (.list items) f ↔ items = [] ∧ f = .exhausted name := by
  constructor
  · intro h
    cases h with
    | first => exact ⟨rfl, rfl⟩
  · rintro ⟨rfl, rfl⟩
    exact .first

theorem lacks_pop_iff {items : List Value} :
    Lacks d (.resolve (.pop name)) (.list items) f ↔ items = [] ∧ f = .exhausted name := by
  constructor
  · intro h
    cases h with
    | pop => exact ⟨rfl, rfl⟩
  · rintro ⟨rfl, rfl⟩
    exact .pop

theorem lacks_path_iff {segments : List String} : Lacks d (.resolve (.path name segments)) v f ↔
    access d name v segments = .error f := by
  rw [access_eq_error_iff]
  constructor
  · intro h
    cases h with
    | part hleads hnone => exact ⟨_, _, _, _, rfl, hleads, hnone, rfl⟩
  · rintro ⟨before, segment, rest, part, rfl, hleads, hnone, rfl⟩
    exact .part hleads hnone

theorem target?_of_kind (hn : op.name? = some name) (hk : op.kind? = some kind) :
    op.target? = some name := by
  cases op with
  | declare => cases hk
  | set | append | insert | remove | removeKey | popFront => exact hn
  | resolve o =>
    cases o with
    | pop => exact hn
    | literal | var | path => cases hk

theorem perform_of_undeclared (d : Document) (hop : ¬op.IsDeclaration) (hn : op.name? = some name)
    (h : s.get? name = none) : s.perform d op = .error (.undefinedVariable name) := by
  cases hk : op.kind? with
  | some kind => exact perform_of_valueOf d (target?_of_kind hn hk) hk (valueOf_of_undeclared h kind)
  | none =>
    cases op with
    | declare name kind given => exact (hop ⟨name, kind, given, rfl⟩).elim
    | set | append | insert | remove | removeKey | popFront => cases hk
    | resolve o =>
      cases o with
      | literal => cases hn
      | pop => cases hk
      | var | path =>
        cases hn
        simp only [perform, resolve, value, lookup, h, Except.map, bind, Except.bind]

/-- Whether an operation takes a variable of a kind. -/
def Operation.Accepts (op : Operation) (kind : Kind) : Prop :=
  ∀ k, op.kind? = some k → kind = k

theorem value_of_get? (h : s.get? name = some u) : s.value name = .ok u.value := by
  rw [value, lookup, h]
  rfl

theorem Change.fst_resolve_path (d : Document) (h : s.get? name = some u)
    (segments : List String) :
    (Change.resolve d (.path name segments) s).1 = access d name u.value segments := by
  rw [Change.resolve, read, value_of_get? h]
  rfl

theorem resolve_path_eq_error_iff {segments : List String} (h : s.get? name = some u) :
    s.resolve d (.path name segments) = .error f ↔ access d name u.value segments = .error f := by
  simp only [resolve, value_of_get? h, bind, Except.bind, pure, Except.pure]
  cases access d name u.value segments <;> simp

theorem ok_eq_error_iff_of_not {α : Type} {a : α} {P : Prop} (hP : ¬P) :
    (.ok a : Except Fault α) = .error f ↔ P :=
  iff_of_false nofun hP

/-- An operation that is about a variable of a kind that it takes fails just for something that the
value of the variable does not have. -/
theorem perform_eq_error_iff_lacks (d : Document) (hs : s.IsSound) (hop : ¬op.IsDeclaration)
    (hn : op.name? = some name) (hu : s.get? name = some u) (ha : op.Accepts u.kind) :
    s.perform d op = .error f ↔ Lacks d op u.value f := by
  obtain ⟨kind, v⟩ := u
  have hsound : Variable.IsSound ⟨kind, v⟩ := hs name _ hu
  cases op with
  | declare name kind given => exact (hop ⟨name, kind, given, rfl⟩).elim
  | set name w =>
    cases hn
    obtain rfl := ha _ rfl
    rw [perform, set, valueOf_eq_ok.mpr hu]
    exact ok_eq_error_iff_of_not fun h => by cases h
  | append name w =>
    cases hn
    obtain rfl := ha _ rfl
    obtain ⟨items, rfl⟩ := hsound
    rw [perform_append d hu]
    exact ok_eq_error_iff_of_not fun h => by cases h
  | insert name key w =>
    cases hn
    obtain rfl := ha _ rfl
    obtain ⟨fields, rfl⟩ := hsound
    rw [perform, insert, valueOf_eq_ok.mpr hu]
    exact ok_eq_error_iff_of_not fun h => by cases h
  | remove name w =>
    cases hn
    obtain rfl := ha _ rfl
    obtain ⟨items, rfl⟩ := hsound
    rw [perform, map_eq_error, remove_eq_error_iff hu, lacks_remove_iff]
  | removeKey name key =>
    cases hn
    obtain rfl := ha _ rfl
    obtain ⟨fields, rfl⟩ := hsound
    rw [perform, removeKey_eq_error_iff hu, lacks_removeKey_iff]
  | popFront name =>
    cases hn
    obtain rfl := ha _ rfl
    obtain ⟨items, rfl⟩ := hsound
    rw [perform, popFront_eq_error_iff hu, lacks_popFront_iff]
  | resolve o =>
    cases o with
    | literal => cases hn
    | var name =>
      cases hn
      rw [perform, resolve, value_of_get? hu]
      exact ok_eq_error_iff_of_not fun h => by cases h
    | path name segments =>
      cases hn
      rw [perform, resolve_path_eq_error_iff hu, lacks_path_iff]
    | pop name =>
      cases hn
      obtain rfl := ha _ rfl
      obtain ⟨items, rfl⟩ := hsound
      rw [perform, resolve, popFront_eq_error_iff hu, lacks_pop_iff]

/-- An operation that is about no variable does not fail. -/
theorem perform_of_unnamed (d : Document) (s : Store) (hn : op.name? = none) :
    ∃ v, s.perform d op = .ok (v, s) := by
  cases op with
  | declare | set | append | insert | remove | removeKey | popFront => cases hn
  | resolve o =>
    cases o with
    | literal t => exact ⟨.text t, rfl⟩
    | var | path | pop => cases hn

theorem not_undefined_of_lacks (h : Lacks d op v f) :
    (∀ name, f ≠ .undefinedVariable name) ∧
      ∀ context expected found, f ≠ .typeMismatch context expected found := by
  cases h <;> exact ⟨nofun, nofun⟩

/-- The failures of an operation, by what it finds under the name of its variable. -/
theorem perform_eq_error_cases (d : Document) (hs : s.IsSound) (hop : ¬op.IsDeclaration) :
    s.perform d op = .error f ↔ ∃ name, op.name? = some name ∧
      (s.get? name = none ∧ f = .undefinedVariable name ∨
      ∃ u, s.get? name = some u ∧
        ((∃ kind, op.kind? = some kind ∧ u.kind ≠ kind ∧
          f = .typeMismatch ("variable " ++ Fault.inQuotes name) kind.name u.kind.name) ∨
        op.Accepts u.kind ∧ Lacks d op u.value f)) := by
  cases hn : op.name? with
  | none =>
    obtain ⟨v, hv⟩ := perform_of_unnamed d s hn
    rw [hv]
    exact iff_of_false nofun nofun
  | some name =>
    simp only [Option.some.injEq, exists_eq_left']
    cases hu : s.get? name with
    | none =>
      rw [perform_of_undeclared d hop hn hu]
      simp [eq_comm]
    | some u =>
      simp only [reduceCtorEq, false_and, false_or, Option.some.injEq, exists_eq_left']
      by_cases ha : op.Accepts u.kind
      · rw [perform_eq_error_iff_lacks d hs hop hn hu ha]
        refine ⟨fun h => .inr ⟨ha, h⟩, ?_⟩
        rintro (⟨kind, hk, hne, -⟩ | ⟨-, h⟩)
        · exact (hne (ha kind hk)).elim
        · exact h
      · obtain ⟨kind, hk, hne⟩ : ∃ kind, op.kind? = some kind ∧ u.kind ≠ kind := by
          simpa only [Operation.Accepts, not_forall, exists_prop] using ha
        rw [perform_of_kind_ne d hu (target?_of_kind hn hk) hk hne]
        constructor
        · rintro h
          cases h
          exact .inl ⟨kind, hk, hne, rfl⟩
        · rintro (⟨kind', hk', -, rfl⟩ | ⟨ha', -⟩)
          · cases hk.symm.trans hk'
            rfl
          · exact (ha ha').elim

theorem perform_eq_undefined_iff (d : Document) (hs : s.IsSound) (hop : ¬op.IsDeclaration) :
    s.perform d op = .error (.undefinedVariable name) ↔ op.name? = some name ∧ s.get? name = none := by
  rw [perform_eq_error_cases d hs hop]
  constructor
  · rintro ⟨name', hn, ⟨hu, hf⟩ | ⟨u, hu, ⟨kind, -, -, hf⟩ | ⟨-, hlacks⟩⟩⟩
    · cases hf
      exact ⟨hn, hu⟩
    · cases hf
    · exact ((not_undefined_of_lacks hlacks).1 name rfl).elim
  · rintro ⟨hn, hu⟩
    exact ⟨name, hn, .inl ⟨hu, rfl⟩⟩

theorem perform_eq_mismatch_iff (d : Document) (hs : s.IsSound) (hop : ¬op.IsDeclaration)
    {context expected found : String} :
    s.perform d op = .error (.typeMismatch context expected found) ↔
      ∃ name u kind, op.name? = some name ∧ s.get? name = some u ∧ op.kind? = some kind ∧
        u.kind ≠ kind ∧ context = "variable " ++ Fault.inQuotes name ∧ expected = kind.name ∧
        found = u.kind.name := by
  rw [perform_eq_error_cases d hs hop]
  constructor
  · rintro ⟨name, hn, ⟨-, hf⟩ | ⟨u, hu, ⟨kind, hk, hne, hf⟩ | ⟨-, hlacks⟩⟩⟩
    · cases hf
    · cases hf
      exact ⟨name, u, kind, hn, hu, hk, hne, rfl, rfl, rfl⟩
    · exact ((not_undefined_of_lacks hlacks).2 _ _ _ rfl).elim
  · rintro ⟨name, u, kind, hn, hu, hk, hne, rfl, rfl, rfl⟩
    exact ⟨name, hn, .inr ⟨u, hu, .inl ⟨kind, hk, hne, rfl⟩⟩⟩

/-! ## The statement -/

/-- What an operation does to the variables, and when it fails. -/
structure Behaves (d : Document) (s : Store) (op : Operation) : Prop where
  /-- Made as a whole or not at all, an operation leaves the store that comes after it, and nothing
  else changes. -/
  start : ∀ {σ : Type} (sink : σ), (Run.tryStore (·.perform d op) : Run σ Value).start ⟨s, sink⟩ =
    ((s.perform d op).map (·.1), ⟨s.after d op, sink⟩)
  /-- A run changes the variables in place. This gives the same and leaves the same. -/
  inPlace : ∀ {σ : Type} (sink : σ), (Run.onStore (op.change d) : Run σ Value).start ⟨s, sink⟩ =
    ((s.perform d op).map (·.1), ⟨s.after d op, sink⟩)
  /-- An operation that fails changes nothing. -/
  atomic : ∀ f, s.perform d op = .error f → s.after d op = s
  /-- No variable is added or dropped. -/
  names : (s.after d op).names = s.names
  kinds : ∀ other, ((s.after d op).get? other).map (·.kind) = (s.get? other).map (·.kind)
  /-- No variable changes but the target of the operation. -/
  others : ∀ other, op.target? ≠ some other → (s.after d op).get? other = s.get? other
  /-- Without a target nothing changes: only the operand `$name.pop` has one. -/
  untargeted : op.target? = none → s.after d op = s
  undeclared_iff : ∀ name, s.perform d op = .error (.undefinedVariable name) ↔
    op.name? = some name ∧ s.get? name = none
  mismatch_iff : ∀ context expected found,
    s.perform d op = .error (.typeMismatch context expected found) ↔
      ∃ name u kind, op.name? = some name ∧ s.get? name = some u ∧ op.kind? = some kind ∧
        u.kind ≠ kind ∧ context = "variable " ++ Fault.inQuotes name ∧ expected = kind.name ∧
        found = u.kind.name
  /-- Else it fails just for what the value of its variable does not have. -/
  lacks_iff : ∀ name u, op.name? = some name → s.get? name = some u → op.Accepts u.kind →
    ∀ f, s.perform d op = .error f ↔ Lacks d op u.value f
  unnamed : op.name? = none → ∃ v, s.perform d op = .ok (v, s)

/-- Operations on variables are atomic and local, and fail as described, in all variables that come
about by operations. -/
theorem behaves_of_reachable (d : Document) (h : s.Reachable) (hop : ¬op.IsDeclaration) :
    s.Behaves d op := by
  have hs : s.IsSound := h.isSound
  exact
    { start := start_tryStore_perform d s op
      inPlace := start_onStore_change d s op
      atomic := fun f hf => after_of_error hf
      names := names_after d s hop
      kinds := kind_after d s hop
      others := fun other => get?_after_of_ne d s
      untargeted := after_of_target_eq_none d s
      undeclared_iff := fun name => perform_eq_undefined_iff d hs hop
      mismatch_iff := fun context expected found => perform_eq_mismatch_iff d hs hop
      lacks_iff := fun name u hn hu ha f => perform_eq_error_iff_lacks d hs hop hn hu ha
      unnamed := perform_of_unnamed d s }

/-- Variables of three kinds, one of them with a list in a list. -/
def nestedStore : Store :=
  ⟨[("pages", ⟨.list, .list [.list [.text "a"]]⟩), ("title", ⟨.scalar, .text "b"⟩),
    ("sizes", ⟨.mapping, .mapping [("a", .text "c")]⟩)]⟩

theorem reachable_nestedStore : nestedStore.Reachable := by
  have hlist := Reachable.empty.after Builder.empty.finish (.declare "pages" .list
    (some (.list [.list [.text "a"]])))
  have htitle := hlist.after Builder.empty.finish (.declare "title" .scalar (some (.text "b")))
  exact htitle.after Builder.empty.finish
    (.declare "sizes" .mapping (some (.mapping [("a", .text "c")])))

/-- The first segment leads to the list inside, which has no second element, and the segment after
it does not count. An element cannot be taken out of the scalar, whatever it holds. The mapping,
from which a key is taken out that it does not have, is what it was. -/
theorem behaves_nested :
    nestedStore.Reachable ∧
      ¬(Operation.resolve (.path "pages" ["0", "1", "x"])).IsDeclaration ∧
      nestedStore.perform Builder.empty.finish (.resolve (.path "pages" ["0", "1", "x"])) =
        .error (.entryNotFound "pages" "1") ∧
      nestedStore.after Builder.empty.finish (.resolve (.path "pages" ["0", "1", "x"])) = nestedStore ∧
      ¬(Operation.popFront "title").IsDeclaration ∧
      nestedStore.perform Builder.empty.finish (.popFront "title") =
        .error (.typeMismatch "variable 'title'" "list" "str") ∧
      (nestedStore.after Builder.empty.finish (.popFront "title")).names = nestedStore.names ∧
      ¬(Operation.removeKey "sizes" "b").IsDeclaration ∧
      (Operation.removeKey "sizes" "b").change Builder.empty.finish nestedStore =
        (.error (.entryNotFound "sizes" "b"), nestedStore) := by
  have hpath : ¬(Operation.resolve (.path "pages" ["0", "1", "x"])).IsDeclaration := nofun
  have hpop : ¬(Operation.popFront "title").IsDeclaration := nofun
  have hkey : ¬(Operation.removeKey "sizes" "b").IsDeclaration := nofun
  have hresolve := behaves_of_reachable Builder.empty.finish reachable_nestedStore hpath
  have hpopFront := behaves_of_reachable Builder.empty.finish reachable_nestedStore hpop
  have hleads : Leads Builder.empty.finish (.list [.list [.text "a"]]) ["0"]
      (.list [.text "a"]) := .cons (by rfl) .nil
  have hlacks : Lacks Builder.empty.finish (.resolve (.path "pages" ["0", "1", "x"]))
      (.list [.list [.text "a"]]) (.entryNotFound "pages" "1") := .part hleads (by rfl)
  have hfails := (hresolve.lacks_iff "pages" _ rfl (by rfl) nofun _).mpr hlacks
  have hremoveKey := behaves_of_reachable Builder.empty.finish reachable_nestedStore hkey
  have hmissing := (hremoveKey.lacks_iff "sizes" ⟨.mapping, .mapping [("a", .text "c")]⟩ rfl
    (by rfl) (fun _ hkind => Option.some.inj hkind) _).mpr (.field (by rfl))
  refine ⟨reachable_nestedStore, hpath, hfails, hresolve.atomic _ hfails, hpop, ?_, hpopFront.names,
    hkey, Prod.ext ?_ (hremoveKey.atomic _ hmissing)⟩
  · exact (hpopFront.mismatch_iff ..).mpr
      ⟨"title", _, .list, rfl, rfl, rfl, nofun, by decide, rfl, rfl⟩
  · have hgives := congrArg Prod.fst (hremoveKey.inPlace ())
    rwa [hmissing] at hgives

end Store

end Gleaner
