import Gleaner.Markup.Event
import Gleaner.Proofs.Run.Program
import Gleaner.Run.Flow

/-!
# Adding to a list and removing again

A value is added at the end of a list, and the first element equal to it is
removed. Both always succeed, one after the other, but the element that goes need
not be the one that came: if the list held the value before, then it is the first
one there, and the others close up. So the list is as it was before exactly if the
elements equal to the value, if there are any, all stand at its end.

* `erase_append_eq_iff`: when a list is restored by erasing the first element equal
  to the one that was added;
* `Update.Gives`: the value that an action adds or removes;
* `Action.start_add`, `Action.start_remove`: the two actions on a list;
* `Action.remove_after_add`: one after the other, and when this restores the list.
-/

namespace Gleaner

/-! ## The list -/

theorem eq_replicate_of_append_eq_cons {α : Type} {v : α} :
    ∀ {l : List α}, l ++ [v] = v :: l → l = List.replicate l.length v
  | [], _ => rfl
  | a :: l, h => by
    obtain ⟨rfl, h⟩ := List.cons.inj h
    rw [List.length_cons, List.replicate_succ, ← eq_replicate_of_append_eq_cons h]

/-- A value that is added at the end and then removed where it stands first leaves
the list as it is exactly if it stood at the end only. -/
theorem erase_append_eq_iff {α : Type} [DecidableEq α] {v : α} {l : List α} :
    (l ++ [v]).erase v = l ↔ ∃ front n, v ∉ front ∧ l = front ++ List.replicate n v := by
  constructor
  · intro h
    by_cases hv : v ∈ l
    · obtain ⟨before, later, hbefore, rfl, herase⟩ := List.exists_erase_eq hv
      rw [List.erase_append_left _ hv, herase, List.append_assoc, List.append_cancel_left_eq] at h
      refine ⟨before, later.length + 1, hbefore, ?_⟩
      rw [List.replicate_succ, ← eq_replicate_of_append_eq_cons h]
    · exact ⟨l, 0, hv, (List.append_nil l).symm⟩
  · rintro ⟨front, n, hv, rfl⟩
    rw [List.append_assoc, List.erase_append_right _ hv, ← List.replicate_succ',
      List.erase_replicate_self, Nat.add_sub_cancel]

/-! ## The actions -/

/-- Whether `v` is the value that an update is given: that of its operand, which
leaves the store `t`, or the input of the action. -/
def Update.Gives (u : Update) (d : Document) (s : Store) (input v : Value) (t : Store) : Prop :=
  match u.value with
  | some o => Store.Change.resolve d o s = (.ok v, t)
  | none => v = input ∧ t = s

namespace Action

variable {σ : Type} {e : Setting σ} {m : Machine σ} {u : Update} {input v : Value} {s : Store}
  {items : List Value}

theorem start_valueOr (h : u.Gives e.document m.store input v s) :
    (valueOr e.document input u.value : Run σ Value).start m = (.ok v, ⟨s, m.sink⟩) := by
  unfold Update.Gives at h
  cases hu : u.value with
  | some o =>
    simp only [hu] at h
    rw [valueOr, Run.resolve, Run.start_onStore, h]
  | none =>
    simp only [hu] at h
    obtain ⟨rfl, rfl⟩ := h
    rfl

/-- Adding to a list puts the value at its end. -/
theorem start_add (hu : u.kind = .list) (hv : u.Gives e.document m.store input v s)
    (h : s.get? u.name = some ⟨.list, .list items⟩) :
    ((add u).apply e input).start m =
      (.ok input, ⟨s.put u.name ⟨.list, .list (items ++ [v])⟩, m.sink⟩) := by
  have hadd : ((add u).addTo e.document input u : Run σ Unit).start m =
      (.ok (), ⟨s.put u.name ⟨.list, .list (items ++ [v])⟩, m.sink⟩) := by
    unfold addTo
    rw [hu, Run.start_bind_of_ok _ (start_valueOr hv), Run.onStore_append]
    exact Run.start_tryStore_of_ok (congrArg (Except.map _) (Store.append_eq_ok h v))
  exact Run.start_bind_of_ok _ hadd

/-- Removing from a list takes the first element equal to the value out of it. -/
theorem start_remove (hu : u.kind = .list) (hv : u.Gives e.document m.store input v s)
    (h : s.get? u.name = some ⟨.list, .list items⟩) (hmem : v ∈ items) :
    ((remove u).apply e input).start m =
      (.ok input, ⟨s.put u.name ⟨.list, .list (items.erase v)⟩, m.sink⟩) := by
  have hremove : ((remove u).removeFrom e.document input u : Run σ Unit).start m =
      (.ok (), ⟨s.put u.name ⟨.list, .list (items.erase v)⟩, m.sink⟩) := by
    unfold removeFrom
    rw [hu, Run.start_bind_of_ok _ (start_valueOr hv), Run.onStore_remove]
    exact Run.start_tryStore_of_ok (congrArg (Except.map _) (Store.remove_eq_ok h hmem))
  exact Run.start_bind_of_ok _ hremove

/-- A value is added to a list and then removed from it, each of the actions being
given it in whatever way. Both succeed. The list then lacks the first element equal
to the value: it is as before exactly if such elements only stood at its end. -/
theorem remove_after_add {w : Update} {other : Value} {t : Store} (hu : u.kind = .list)
    (hw : w.kind = .list) (hname : w.name = u.name) (hv : u.Gives e.document m.store input v s)
    (hs : s.get? u.name = some ⟨.list, .list items⟩)
    (hv' : w.Gives e.document (s.put u.name ⟨.list, .list (items ++ [v])⟩) other v t)
    (ht : t.get? u.name = some ⟨.list, .list (items ++ [v])⟩) :
    ∃ m₁ m₂, ((add u).apply e input).start m = (.ok input, m₁) ∧
      ((remove w).apply e other).start m₁ = (.ok other, m₂) ∧
      m₂.store.get? u.name =
        some ⟨.list, .list (if v ∈ items then items.erase v ++ [v] else items)⟩ ∧
      (m₂.store.get? u.name = some ⟨.list, .list items⟩ ↔
        ∃ front n, v ∉ front ∧ items = front ++ List.replicate n v) := by
  have hmem : v ∈ items ++ [v] := List.mem_append_right _ (List.mem_singleton_self v)
  rw [← hname] at ht
  refine ⟨_, _, start_add hu hv hs, start_remove hw hv' ht hmem, ?_, ?_⟩
  · rw [hname, Store.get?_put_self, List.erase_append, List.erase_cons_head, List.append_nil]
  · rw [hname, Store.get?_put_self, ← erase_append_eq_iff]
    simp

/-- A list that ends in the value that is added to it. -/
def endingStore : Store :=
  ⟨[("seen", ⟨.list, .list [.text "a", .text "b", .text "b"]⟩)]⟩

/-- The value is the input of the first action, and a text of the second one. -/
theorem remove_after_add_ending :
    ∃ m₁ m₂ : Machine (List Saved),
      ((add ⟨"seen", .list, none, none⟩).apply ⟨.ofEvents [], .listing⟩ (.text "b")).start
        ⟨endingStore, []⟩ = (.ok (.text "b"), m₁) ∧
      ((remove ⟨"seen", .list, none, some (.literal "b")⟩).apply ⟨.ofEvents [], .listing⟩
        (.node 0)).start m₁ = (.ok (.node 0), m₂) ∧
      m₂.store.get? "seen" = some ⟨.list, .list [.text "a", .text "b", .text "b"]⟩ := by
  have hs : endingStore.get? "seen" =
      some ⟨.list, .list [.text "a", .text "b", .text "b"]⟩ := by decide
  have hv : Update.Gives ⟨"seen", .list, none, none⟩ (.ofEvents []) endingStore (.text "b")
      (.text "b") endingStore := ⟨rfl, rfl⟩
  have hv' : Update.Gives ⟨"seen", .list, none, some (.literal "b")⟩ (.ofEvents [])
      (endingStore.put "seen" ⟨.list, .list [.text "a", .text "b", .text "b", .text "b"]⟩)
      (.node 0) (.text "b") _ := rfl
  obtain ⟨m₁, m₂, hadd, hremove, -, hiff⟩ := remove_after_add (e := ⟨.ofEvents [], .listing⟩)
    (m := ⟨endingStore, []⟩) (u := ⟨"seen", .list, none, none⟩)
    (w := ⟨"seen", .list, none, some (.literal "b")⟩) rfl rfl rfl hv hs hv' (Store.get?_put_self ..)
  exact ⟨m₁, m₂, hadd, hremove, hiff.mpr ⟨[.text "a"], 2, by decide, rfl⟩⟩

end Action

/-- A flow that adds a text to a list and then removes it. -/
def undoingFlow : Flow :=
  .step (.add ⟨"seen", .list, none, some (.literal "a")⟩) .atomic .nil
    (.step (.remove ⟨"seen", .list, none, some (.literal "a")⟩) .atomic .nil .nil)

/-- A list that starts with the text already. -/
def startingStore : Store :=
  ⟨[("seen", ⟨.list, .list [.text "a", .text "b"]⟩)]⟩

/-- Both actions succeed, and the list is turned around. -/
theorem Flow.undoing_reorders :
    ((undoingFlow.run ⟨.ofEvents [], .listing⟩).start ⟨startingStore, []⟩).1 = .ok (.node 0) ∧
      ((undoingFlow.run ⟨.ofEvents [], .listing⟩).start ⟨startingStore, []⟩).2.store.get? "seen" =
        some ⟨.list, .list [.text "b", .text "a"]⟩ ∧
      startingStore.get? "seen" = some ⟨.list, .list [.text "a", .text "b"]⟩ := by
  decide +kernel

end Gleaner
