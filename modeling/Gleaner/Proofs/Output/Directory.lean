import Gleaner.Output.Directory
import Gleaner.Proofs.Files.Writing
import Gleaner.Proofs.Output.Writer

/-!
# The paths of saves

A dry run lists where a save goes by a path relative to the output directory. A
real run writes to this path as seen from the output directory, unless the save
has a long name: then the path that is listed is another one.

* `Path.join_assoc`: a path below a path below a directory;
* `OutputDirectory.target_eq`: the path of a save, by the relative path of the
  save with the name that it is written under;
* `OutputDirectory.join_relativePath_eq_target_iff`: when this is the path that is
  listed;
* `OutputDirectory.exists_write_of_save`, `OutputDirectory.save_congr`: what a save does
  to a disk, and that it succeeds or fails whatever is saved.
-/

namespace Gleaner

namespace Path

variable {base p q : String}

/-- What stands before a relative path that is seen from a directory. -/
def lead (base : String) : String :=
  if base.isEmpty || base.toList.getLast? == some '/' then base else base ++ "/"

theorem join_of_isAbsolute (base : String) (h : isAbsolute p = true) : join base p = p := by
  simp [join, h]

theorem join_of_relative (base : String) (h : isAbsolute p = false) :
    join base p = lead base ++ p := by
  unfold join lead
  rw [h, Bool.false_or]
  cases hb : base.isEmpty with
  | true => simp [String.isEmpty_iff.mp hb]
  | false =>
    rw [Bool.false_or]
    cases base.toList.getLast? == some '/' <;> rfl

/-! ### Absolute paths -/

theorem isAbsolute_append_of_ne (q : String) (h : p ≠ "") :
    isAbsolute (p ++ q) = isAbsolute p := by
  unfold isAbsolute
  rw [String.toList_append]
  cases hp : p.toList with
  | nil => exact (h (String.toList_eq_nil_iff.mp hp)).elim
  | cons c cs => rfl

theorem isAbsolute_append (p : String) (h : isAbsolute q = false) :
    isAbsolute (p ++ q) = isAbsolute p := by
  by_cases hp : p = ""
  · rw [hp, String.empty_append, h]
    rfl
  · exact isAbsolute_append_of_ne q hp

theorem isAbsolute_lead (base : String) : isAbsolute (lead base) = isAbsolute base := by
  unfold lead
  split
  · rfl
  · rename_i h
    exact isAbsolute_append_of_ne "/" fun he => h (by simp [he])

theorem isAbsolute_join (base p : String) :
    isAbsolute (join base p) = (isAbsolute p || isAbsolute base) := by
  cases h : isAbsolute p with
  | true => rw [join_of_isAbsolute base h, h, Bool.true_or]
  | false => rw [join_of_relative base h, isAbsolute_append _ h, isAbsolute_lead, Bool.false_or]

/-! ### Paths below paths -/

theorem lead_append (p : String) (h : q ≠ "") : lead (p ++ q) = p ++ lead q := by
  have hq : q.toList ≠ [] := fun he => h (String.toList_eq_nil_iff.mp he)
  have hlast : (p ++ q).toList.getLast? = q.toList.getLast? := by
    simp [List.getLast?_append, List.getLast?_eq_some_getLast hq]
  have hempty : (p ++ q).isEmpty = q.isEmpty := by
    rw [Bool.eq_iff_iff]
    simp [h]
  unfold lead
  rw [hlast, hempty]
  split
  · rfl
  · rw [String.append_assoc]

theorem lead_lead (base : String) : lead (lead base) = lead base := by
  by_cases h : base.isEmpty || base.toList.getLast? == some '/'
  · rw [lead, lead, if_pos h, if_pos h]
  · have hbase : lead base = base ++ "/" := if_neg h
    rw [hbase, lead_append base (by decide)]
    rfl

/-- A path below a path below a directory. -/
theorem join_assoc (base p q : String) : join (join base p) q = join base (join p q) := by
  cases hq : isAbsolute q with
  | true => rw [join_of_isAbsolute _ hq, join_of_isAbsolute _ hq, join_of_isAbsolute _ hq]
  | false =>
    rw [join_of_relative _ hq, join_of_relative _ hq]
    have hlead : isAbsolute (lead p ++ q) = isAbsolute p := by
      rw [isAbsolute_append _ hq, isAbsolute_lead]
    cases hp : isAbsolute p with
    | true => rw [join_of_isAbsolute _ hp, join_of_isAbsolute _ (hlead.trans hp)]
    | false =>
      rw [join_of_relative _ hp, join_of_relative _ (hlead.trans hp), ← String.append_assoc]
      congr 1
      by_cases hempty : p = ""
      · rw [hempty, String.append_empty, lead_lead]
        exact String.append_empty.symm
      · exact lead_append _ hempty

/-- Two paths that are both absolute or both relative differ below a directory
if they differ. -/
theorem join_inj (h : isAbsolute p = isAbsolute q) : join base p = join base q ↔ p = q := by
  refine ⟨fun he => ?_, fun he => he ▸ rfl⟩
  cases hp : isAbsolute p with
  | true => rwa [join_of_isAbsolute _ hp, join_of_isAbsolute _ (h ▸ hp)] at he
  | false =>
    rw [join_of_relative _ hp, join_of_relative _ (h ▸ hp)] at he
    exact (String.append_right_inj _).mp he

end Path

/-! ## Saves -/

namespace Save

/-- A save with another name. -/
def named (s : Save) (name : String) : Save :=
  { s with name }

theorem isAbsolute_fileName (s : Save) (stem : String) :
    Path.isAbsolute (s.fileName stem) = Path.isAbsolute stem := by
  have hdot : Path.isAbsolute ("." ++ s.kind.extension) = false := by
    cases s.kind <;> decide
  rw [fileName, String.append_assoc, Path.isAbsolute_append _ hdot]

theorem isAbsolute_relativePath (s : Save) :
    Path.isAbsolute s.relativePath =
      (Path.isAbsolute s.name || (s.dir.map Path.isAbsolute).getD false) := by
  unfold relativePath
  cases s.dir with
  | none => simp [isAbsolute_fileName]
  | some dir => simp [Path.isAbsolute_join, isAbsolute_fileName]

theorem fileName_inj {s : Save} {name other : String} :
    s.fileName name = s.fileName other ↔ name = other := by
  unfold fileName
  rw [String.append_assoc, String.append_assoc]
  exact String.append_left_inj _

/-- The paths of a save differ with its name. -/
theorem relativePath_named_inj {s : Save} {name other : String}
    (h : Path.isAbsolute name = Path.isAbsolute other) :
    (s.named name).relativePath = (s.named other).relativePath ↔ name = other := by
  have hfile : Path.isAbsolute (s.fileName name) = Path.isAbsolute (s.fileName other) := by
    rw [isAbsolute_fileName, isAbsolute_fileName, h]
  unfold relativePath
  cases hd : s.dir with
  | none =>
    simp only [named, hd]
    exact fileName_inj
  | some dir =>
    simp only [named, hd]
    exact (Path.join_inj hfile).trans fileName_inj

end Save

namespace OutputDirectory

variable (o : OutputDirectory) (s : Save)

/-- The path of a save is the relative path of the save under the name of its
file, as seen from the output directory. -/
theorem target_eq : o.target s = Path.join o.path (s.named (o.stem s)).relativePath := by
  unfold target Save.relativePath
  cases hd : s.dir with
  | none =>
    simp only [Save.named, hd]
    rfl
  | some dir =>
    simp only [Save.named, hd]
    exact Path.join_assoc ..

theorem stem_of_short (h : s.longName = false) : o.stem s = s.name := by
  rw [stem, h]
  rfl

/-- A long name starts with the name and goes on with a hyphen. -/
theorem stem_of_long (h : s.longName = true) :
    o.stem s = s.name ++ ("-" ++ (o.source ++ ("-" ++ o.stamp))) := by
  rw [stem, h, if_pos rfl]
  simp only [String.append_assoc]

theorem isAbsolute_stem : Path.isAbsolute (o.stem s) = Path.isAbsolute s.name := by
  cases h : s.longName with
  | false => rw [o.stem_of_short s h]
  | true =>
    rw [o.stem_of_long s h]
    refine Path.isAbsolute_append _ ?_
    rw [Path.isAbsolute_append_of_ne _ (by decide)]
    decide

theorem stem_eq_name_iff : o.stem s = s.name ↔ s.longName = false := by
  refine ⟨fun he => ?_, o.stem_of_short s⟩
  cases h : s.longName with
  | false => rfl
  | true =>
    rw [o.stem_of_long s h] at he
    have hlength := congrArg String.length he
    simp [String.length_append] at hlength

/-- A save is written to the path that is listed for it, as seen from the output
directory, exactly if it has no long name. -/
theorem join_relativePath_eq_target_iff :
    Path.join o.path s.relativePath = o.target s ↔ s.longName = false := by
  have habsolute : Path.isAbsolute s.relativePath =
      Path.isAbsolute (s.named (o.stem s)).relativePath := by
    rw [Save.isAbsolute_relativePath, Save.isAbsolute_relativePath]
    exact congrArg (· || _) (o.isAbsolute_stem s).symm
  have hnames : s.relativePath = (s.named (o.stem s)).relativePath ↔ s.name = o.stem s :=
    Save.relativePath_named_inj (o.isAbsolute_stem s).symm
  rw [target_eq, Path.join_inj habsolute, hnames, eq_comm, stem_eq_name_iff]

/-! ## Writes to a disk -/

theorem run_bind_of_eq {α β : Type} {x : StateM Disk α} {k : α → StateM Disk β} {a : α}
    {disk disk' : Disk} (h : x.run disk = (a, disk')) : (x >>= k).run disk = (k a).run disk' := by
  rw [StateT.run_bind, h]
  rfl

variable {o s} {disk disk' : Disk} {content : Content} {path : String}

/-- A save that succeeds writes its content to its path, on the disk on which the
directories above were made. -/
theorem exists_write_of_save
    (h : (o.save Disk.system s content).run disk = (.ok path, disk')) :
    path = o.target s ∧ ∃ made : Disk, made.write path content.encode.2 = .ok disk' := by
  unfold save at h
  rcases hp : (prepare Disk.system (o.target s)).run disk with ⟨f | u, made⟩
  · rw [run_bind_of_eq hp] at h
    cases h
  · rw [run_bind_of_eq hp] at h
    dsimp only at h
    rcases hw : (Disk.system.write (o.target s) content.encode.2).run made with ⟨f | u, written⟩
    · rw [run_bind_of_eq hw] at h
      cases h
    · rw [run_bind_of_eq hw, content.fst_encode] at h
      cases h
      exact ⟨rfl, made, Disk.change_eq_ok (f := (·.write (o.target s) content.encode.2)) hw⟩

/-- A save that succeeds gives the path of its file. -/
theorem save_eq_ok (h : (o.save Disk.system s content).run disk = (.ok path, disk')) :
    path = o.target s :=
  (exists_write_of_save h).1

/-- Whether a save succeeds, and with which path or fault it ends, does not depend on
what is saved. -/
theorem save_congr (o : OutputDirectory) (s : Save) (disk : Disk) (a b : Content) :
    ((o.save Disk.system s a).run disk).1 = ((o.save Disk.system s b).run disk).1 := by
  unfold save
  rcases hp : (prepare Disk.system (o.target s)).run disk with ⟨f | u, made⟩
  · rw [run_bind_of_eq hp, run_bind_of_eq hp]
  · rw [run_bind_of_eq hp, run_bind_of_eq hp]
    have hresult := Disk.change_write made (o.target s) a.encode.2 b.encode.2
    dsimp only
    rcases ha : (Disk.system.write (o.target s) a.encode.2).run made with ⟨r, disk₁⟩
    rcases hb : (Disk.system.write (o.target s) b.encode.2).run made with ⟨r', disk₂⟩
    have hr : r = r' := by
      have ha' := congrArg Prod.fst ha
      have hb' := congrArg Prod.fst hb
      exact ha'.symm.trans (hresult.trans hb')
    subst hr
    rw [run_bind_of_eq ha, run_bind_of_eq hb, a.fst_encode, b.fst_encode]
    cases r <;> rfl

end OutputDirectory

end Gleaner
