import Gleaner.Proofs.Files.Resolve
import Gleaner.Proofs.Job.Rehearsal

/-!
# Saves below the output directory

The path of a save is joined to the output directory as it is, so where it leads is
up to its name and its directory. As a whole it is a path that ends in a name, and
so it leads below the output directory exactly if it goes down again by the names of
all levels that it leaves: by none, if it is relative and never climbs above its
start, which holds of all saves without absolute paths and without `..`; by all names
of the output directory, if it is absolute.

* `OutputDirectory.relativePath`: the path of a save as seen from the output
  directory;
* `OutputDirectory.IsPlain`: saves without absolute paths and without `..`;
* `OutputDirectory.isBelow_target`: which saves stay below the output directory;
* `Job.climbing_escapes`: a job that writes beside it.
-/

namespace Gleaner

/-! ## The path of a save -/

namespace Save

variable (s : Save)

/-- The ending of the name of a file. -/
def ending : String :=
  "." ++ s.kind.extension

theorem isName_append_ending (part : String) : Path.IsName (part ++ s.ending) := by
  have hending : 4 ≤ s.ending.length := by
    unfold ending
    cases s.kind <;> decide
  have hlength : 4 ≤ (part ++ s.ending).length := by
    rw [String.length_append]
    omega
  refine ⟨fun h => ?_, fun h => ?_, fun h => ?_⟩ <;> rw [h] at hlength <;>
    exact absurd hlength (by decide)

theorem slash_not_mem_ending : '/' ∉ s.ending.toList := by
  unfold ending
  cases s.kind <;> decide

end Save

namespace OutputDirectory

variable (o : OutputDirectory) (s : Save)

/-- The path of a save as seen from the output directory. -/
def relativePath : String :=
  (s.named (o.stem s)).relativePath

/-- Whether a save neither names an absolute path nor goes up. -/
structure IsPlain : Prop where
  relative : Path.isAbsolute s.name = false
  name : ".." ∉ Path.parts (o.stem s)
  dir : ∀ dir ∈ s.dir, Path.isAbsolute dir = false ∧ ".." ∉ Path.parts dir

/-- The parts of the name of a file are those of the name without its ending, but for
the last one. -/
theorem exists_parts_fileName :
    ∃ before last, Path.parts (o.stem s) = before ++ [last] ∧
      Path.parts (s.fileName (o.stem s)) = before ++ [last ++ s.ending] := by
  unfold Save.fileName
  rw [String.append_assoc]
  exact Path.exists_parts_append _ s.slash_not_mem_ending

/-- The path of a save is the name of its file after a text. -/
theorem exists_relativePath_eq :
    ∃ front, o.relativePath s = front ++ s.fileName (o.stem s) := by
  unfold relativePath Save.relativePath
  cases hd : s.dir with
  | none =>
    simp only [Save.named, hd]
    exact ⟨"", (String.empty_append ..).symm⟩
  | some dir =>
    simp only [Save.named, hd]
    cases hfile : Path.isAbsolute (s.fileName (o.stem s)) with
    | true => exact ⟨"", (Path.join_of_isAbsolute dir hfile).trans (String.empty_append ..).symm⟩
    | false => exact ⟨Path.lead dir, Path.join_of_relative dir hfile⟩

/-- The path of a save goes down at least to its file. -/
theorem down_route_ne_nil : (Path.route (o.relativePath s)).down ≠ [] := by
  obtain ⟨front, hfront⟩ := o.exists_relativePath_eq s
  have hpath : o.relativePath s = front ++ o.stem s ++ s.ending := by
    rw [hfront, Save.fileName, String.append_assoc, ← String.append_assoc]
    rfl
  obtain ⟨before, last, -, hparts⟩ :=
    Path.exists_parts_append (front ++ o.stem s) s.slash_not_mem_ending
  rw [← hpath] at hparts
  exact Path.down_route_ne_nil hparts (s.isName_append_ending last)

variable {o s}

/-- The path of a plain save is relative and does not climb. -/
theorem IsPlain.descends (h : o.IsPlain s) :
    Path.isAbsolute (o.relativePath s) = false ∧ (Path.route (o.relativePath s)).up = 0 := by
  have hstem : Path.isAbsolute (o.stem s) = false := (o.isAbsolute_stem s).trans h.relative
  have hfile : Path.isAbsolute (s.fileName (o.stem s)) = false :=
    (s.isAbsolute_fileName _).trans hstem
  have hparts : ".." ∉ Path.parts (s.fileName (o.stem s)) := by
    obtain ⟨before, last, hbefore, hlast⟩ := o.exists_parts_fileName s
    have hname := h.name
    rw [hbefore, List.mem_append, not_or] at hname
    rw [hlast, List.mem_append, List.mem_singleton, not_or]
    exact ⟨hname.1, (s.isName_append_ending last).2.2.symm⟩
  unfold relativePath Save.relativePath
  cases hd : s.dir with
  | none =>
    simp only [Save.named, hd]
    exact ⟨hfile, Path.Route.up_foldl hparts _⟩
  | some dir =>
    obtain ⟨hdir, hup⟩ := h.dir dir hd
    simp only [Save.named, hd]
    have hjoin : Path.join dir (s.fileName (o.stem s)) = Path.lead dir ++ s.fileName (o.stem s) :=
      Path.join_of_relative dir hfile
    constructor
    · exact (Path.isAbsolute_join ..).trans (Bool.or_eq_false_iff.mpr ⟨hfile, hdir⟩)
    · refine (congrArg (fun p => (Path.route p).up) hjoin).trans ?_
      rw [Path.route, Path.foldl_parts_lead (fun _ => rfl), Path.Route.up_foldl hparts,
        Path.Route.up_foldl hup]

variable (o s)

/-! ## Which saves stay below -/

/-- A save stays below the output directory exactly if its path from there goes down
again by the names of all levels that it leaves, and then further. So do all saves
without absolute paths and without `..`. -/
theorem isBelow_target (home : List String) :
    (Path.IsBelow (Path.resolve home o.path) (Path.resolve home (o.target s)) ↔
      Path.IsBelow (Path.levelsLeft (o.relativePath s) (Path.resolve home o.path))
        (Path.route (o.relativePath s)).down) ∧
    (o.IsPlain s → Path.IsBelow (Path.resolve home o.path) (Path.resolve home (o.target s))) := by
  have hiff := Path.isBelow_resolve_iff (Path.resolve home o.path) (o.relativePath s)
  rw [← Path.resolve_join, relativePath, ← target_eq] at hiff
  refine ⟨hiff, fun h => hiff.mpr ?_⟩
  obtain ⟨hrelative, hup⟩ := h.descends
  have hleft : Path.levelsLeft (o.relativePath s) (Path.resolve home o.path) = [] := by
    rw [Path.levelsLeft, hrelative, hup, if_neg Bool.false_ne_true, Nat.sub_zero, List.drop_length]
  rw [← relativePath, hleft]
  exact Path.isBelow_nil_iff.mpr (o.down_route_ne_nil s)

/-- A save with a long name in a directory of the output directory. -/
def nestedSave : Save :=
  ⟨"page", .json, true, some "./copies/a"⟩

/-- A save that goes up from the output directory and down into it again. -/
def returningSave : Save :=
  ⟨"../out/page", .csv, false, none⟩

theorem isBelow_target_nested :
    IsPlain ⟨"out", "page.html", "20240131_090500"⟩ nestedSave ∧
      Path.IsBelow ["home", "out"]
        ["home", "out", "copies", "a", "page-page.html-20240131_090500.json"] ∧
      Path.levelsLeft "../out/page.csv" ["home", "out"] = ["out"] ∧
      Path.IsBelow ["home", "out"] ["home", "out", "page.csv"] := by
  have hplain : IsPlain ⟨"out", "page.html", "20240131_090500"⟩ nestedSave :=
    ⟨by decide, by decide +kernel, by decide +kernel⟩
  refine ⟨hplain, ?_, by decide +kernel, ?_⟩
  · have h := (isBelow_target ⟨"out", "page.html", "20240131_090500"⟩ nestedSave ["home"]).2 hplain
    have hbase : Path.resolve ["home"] "out" = ["home", "out"] := by decide +kernel
    have htarget : Path.resolve ["home"]
        (target ⟨"out", "page.html", "20240131_090500"⟩ nestedSave) =
        ["home", "out", "copies", "a", "page-page.html-20240131_090500.json"] := by decide +kernel
    rwa [hbase, htarget] at h
  · have h := (isBelow_target ⟨"out", "page.html", ""⟩ returningSave ["home"]).1.mpr
      (by decide +kernel)
    have hbase : Path.resolve ["home"] "out" = ["home", "out"] := by decide +kernel
    have htarget : Path.resolve ["home"] (target ⟨"out", "page.html", ""⟩ returningSave) =
        ["home", "out", "page.csv"] := by decide +kernel
    rwa [hbase, htarget] at h

end OutputDirectory

namespace Job

/-- A job that saves the page in a directory beside the output directory. -/
def climbingJob : Job :=
  savingJob [[(.text "dir", .text "../up")]]

/-- The job succeeds, and its file is not below the output directory. -/
theorem climbing_escapes :
    (climbingJob.run "out" "20240131_090500" pageDisk).1.map (·.written) =
        .ok ["out/../up/page.json"] ∧
      Disk.entry? (climbingJob.run "out" "20240131_090500" pageDisk).2 ["up", "page.json"] =
        some (.file "\"a\"") ∧
      Path.resolve pageDisk.home "out/../up/page.json" = ["up", "page.json"] ∧
      ¬ Path.IsBelow (Path.resolve pageDisk.home "out")
        (Path.resolve pageDisk.home "out/../up/page.json") := by
  refine ⟨?_, ?_, ?_, ?_⟩ <;> decide +kernel

end Job

end Gleaner
