import Mathlib.Data.List.Forall2

/-!
# Results of steps

A computation in `Except` is made of steps, and the first that fails is the failure of the whole.

* `bind_eq_ok`, `bind_eq_error`, `map_eq_ok`, `map_eq_error`: one step after the other;
* `mapM_eq_ok_iff`, `mapM_eq_error_iff`: one step for each element of a list.
-/

namespace Gleaner

variable {ε α β : Type}

/-- A result of two steps is a result of each. -/
theorem bind_eq_ok {x : Except ε α} {f : α → Except ε β} {b : β} :
    x >>= f = .ok b ↔ ∃ a, x = .ok a ∧ f a = .ok b := by
  cases x <;> simp [bind, Except.bind]

/-- A failure of two steps is one of the first, or of the second after the first. -/
theorem bind_eq_error {x : Except ε α} {f : α → Except ε β} {e : ε} :
    x >>= f = .error e ↔ x = .error e ∨ ∃ a, x = .ok a ∧ f a = .error e := by
  cases x <;> simp [bind, Except.bind]

theorem map_eq_ok {r : Except ε α} {g : α → β} {b : β} :
    r.map g = .ok b ↔ ∃ a, r = .ok a ∧ g a = b := by
  cases r <;> simp [Except.map]

theorem map_eq_error {r : Except ε α} {g : α → β} {f : ε} :
    r.map g = .error f ↔ r = .error f := by
  cases r <;> simp [Except.map]

/-! ## One result for each element -/

variable {f : α → Except ε β} {e : ε}

theorem mapM_eq_ok_iff :
    ∀ {xs : List α} {ys : List β}, xs.mapM f = .ok ys ↔ List.Forall₂ (f · = .ok ·) xs ys
  | [], ys => by
    rw [List.mapM_nil, List.forall₂_nil_left_iff]
    exact ⟨fun h => (Except.ok.inj h).symm, fun h => h ▸ rfl⟩
  | x :: xs, ys => by
    rw [List.mapM_cons, bind_eq_ok]
    constructor
    · rintro ⟨y, hy, h⟩
      obtain ⟨ys, hys, h⟩ := bind_eq_ok.mp h
      cases h
      exact .cons hy (mapM_eq_ok_iff.mp hys)
    · intro h
      cases h with
      | cons hy hys => exact ⟨_, hy, bind_eq_ok.mpr ⟨_, mapM_eq_ok_iff.mpr hys, rfl⟩⟩

/-- The failure is the first one there is. -/
theorem mapM_eq_error_iff {xs : List α} : xs.mapM f = .error e ↔
    ∃ before x after, xs = before ++ x :: after ∧ (∀ z ∈ before, ∃ y, f z = .ok y) ∧
      f x = .error e := by
  constructor
  · intro h
    induction xs with
    | nil => cases h
    | cons x xs ih =>
      rw [List.mapM_cons, bind_eq_error] at h
      obtain h | ⟨y, hy, h⟩ := h
      · exact ⟨[], x, xs, rfl, nofun, h⟩
      · obtain h | ⟨ys, -, h⟩ := bind_eq_error.mp h
        · obtain ⟨before, z, after, rfl, hbefore, hz⟩ := ih h
          exact ⟨x :: before, z, after, rfl, List.forall_mem_cons.mpr ⟨⟨y, hy⟩, hbefore⟩, hz⟩
        · cases h
  · rintro ⟨before, x, after, rfl, hbefore, hx⟩
    induction before with
    | nil =>
      rw [List.nil_append, List.mapM_cons, bind_eq_error]
      exact .inl hx
    | cons z before ih =>
      obtain ⟨⟨y, hy⟩, hbefore⟩ := List.forall_mem_cons.mp hbefore
      rw [List.cons_append, List.mapM_cons, bind_eq_error]
      exact .inr ⟨y, hy, bind_eq_error.mpr (.inl (ih hbefore))⟩

theorem exists_mapM_eq_ok_iff {xs : List α} :
    (∃ ys, xs.mapM f = .ok ys) ↔ ∀ x ∈ xs, ∃ y, f x = .ok y := by
  constructor
  · rintro ⟨ys, h⟩
    have hall := (mapM_eq_ok_iff.mp h).imp fun x y hy => (⟨⟨y, hy⟩, hy⟩ : (∃ y, f x = .ok y) ∧ _)
    exact ((List.forall₂_and_left ..).mp hall).1
  · intro h
    cases hxs : xs.mapM f with
    | ok ys => exact ⟨ys, rfl⟩
    | error e =>
      obtain ⟨before, x, after, rfl, -, hx⟩ := mapM_eq_error_iff.mp hxs
      obtain ⟨y, hy⟩ := h x (by simp)
      cases hx.symm.trans hy

end Gleaner
