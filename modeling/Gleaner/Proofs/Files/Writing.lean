import Mathlib.Tactic.SplitIfs
import Gleaner.Files.Disk

/-!
# Files that were written

A file that was written to a path holds what was written, when it is read by the same
path: the file stands where no directory stood, so that the way to it, which leads
from directory to directory, is not changed by it. Whether a file can be written does
not depend on what is to be written.

* `Disk.follow_put`: the way to a place after a file was put there;
* `Disk.read?_of_write`: a file that was written, read again;
* `Disk.change_write`: the fault of a write, whatever its content.
-/

namespace Gleaner.Disk

variable {d d' : Disk} {target place : List String} {path content : String} {e : Entry}

/-! ## Putting something at a place -/

theorem entry?_put_self (d : Disk) (e : Entry) (h : target ≠ []) :
    Disk.entry? (d.put target e) target = some e := by
  unfold put entry?
  rw [if_neg (by simpa using h), List.find?_cons_of_pos (by simp)]
  rfl

theorem entry?_put_of_ne (d : Disk) (e : Entry) (h : place ≠ target) :
    Disk.entry? (d.put target e) place = d.entry? place := by
  unfold put entry?
  split
  · rfl
  · rw [List.find?_cons_of_neg (by simpa using h.symm), List.find?_filter]
    congr 2
    funext p
    by_cases hp : p.1 = place
    · simp [hp, h]
    · simp [hp]

theorem ne_nil_of_not_directory (h : d.entry? target ≠ some .directory) : target ≠ [] := by
  rintro rfl
  exact h rfl

/-- What is put at the end of a way where no directory stood does not stand on the
way. -/
theorem follow_put (he : d.entry? target ≠ some .directory) :
    ∀ {parts : List String} {place : List String}, d.follow place parts = .ok target →
      (d.put target e).follow place parts = .ok target
  | [], _, h => h
  | part :: parts, place, h => by
    unfold follow at h ⊢
    cases hplace : d.entry? place with
    | none => simp [hplace] at h
    | some entry =>
      cases entry with
      | file content => simp [hplace] at h
      | directory =>
        have hne : place ≠ target := by
          rintro rfl
          exact he hplace
        rw [entry?_put_of_ne d e hne, hplace]
        rw [hplace] at h
        dsimp only at h ⊢
        split_ifs at h ⊢ <;> exact follow_put he h

theorem place_put (he : d.entry? target ≠ some .directory) (h : d.place path = .ok target) :
    (d.put target e).place path = .ok target := by
  unfold place at h ⊢
  split_ifs at h ⊢ <;> exact follow_put he h

/-! ## Writing a file -/

theorem write_of_error {f : FileFault} (h : d.place path = .error f) (content : String) :
    d.write path content = .error f := by
  unfold write
  rw [h]
  rfl

theorem write_of_place (h : d.place path = .ok target) (content : String) :
    d.write path content =
      if d.entry? target = some .directory then .error .isDirectory
      else .ok (d.put target (.file content)) := by
  unfold write
  rw [h]
  rfl

/-- A file that was written holds what was written. -/
theorem read?_of_write (h : d.write path content = .ok d') : d'.read? path = .ok content := by
  cases hplace : d.place path with
  | error f =>
    rw [write_of_error hplace] at h
    cases h
  | ok target =>
    rw [write_of_place hplace] at h
    split_ifs at h with he
    cases h
    unfold read?
    rw [place_put he hplace]
    simp only [bind, Except.bind]
    rw [entry?_put_self d _ (ne_nil_of_not_directory he)]
    rfl

theorem change_eq_ok {f : Disk → Except FileFault Disk} {u : Unit}
    (h : change f d = (.ok u, d')) : f d = .ok d' := by
  unfold change at h
  split at h <;> cases h
  assumption

/-- Whether a file can be written, and why not, does not depend on its content. -/
theorem change_write (d : Disk) (path a b : String) :
    (change (·.write path a) d).1 = (change (·.write path b) d).1 := by
  unfold change
  dsimp only
  cases hplace : d.place path with
  | error f => rw [write_of_error hplace, write_of_error hplace]
  | ok target =>
    rw [write_of_place hplace, write_of_place hplace]
    by_cases he : d.entry? target = some .directory
    · rw [if_pos he, if_pos he]
    · rw [if_neg he, if_neg he]

end Gleaner.Disk
