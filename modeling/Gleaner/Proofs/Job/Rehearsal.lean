import Gleaner.Job.Run
import Gleaner.Proofs.Output.Directory
import Gleaner.Proofs.Run.Sinks

/-!
# Dry runs

If a real run of a job succeeds, then so does its dry run, with the same value,
and the two list the same saves in the same order. The path that a dry run lists
is the one that the real run writes to, as seen from the output directory, unless
the save has a long name.

* `Flow.saves`: the saves of a flow;
* `OutputDirectory.take_ok`: a write below a directory that succeeds;
* `Job.rehearse_of_run`: the dry run of a job whose real run succeeds.
-/

namespace Gleaner

/-! ## Writes below a directory -/

namespace OutputDirectory

variable {o : OutputDirectory}

/-- A write that succeeds keeps the path of its file. -/
theorem write_eq_ok {s : Save} {content : Content} {desk desk' : Desk} {path : String}
    (h : o.write s content desk = (.ok path, desk')) :
    desk'.written = desk.written ++ [o.target s] := by
  unfold write at h
  rcases hs : (o.save Disk.system s content).run desk.disk with ⟨f | path', disk⟩
  · rw [hs] at h
    cases h
  · rw [hs] at h
    cases h
    rw [save_eq_ok hs]

theorem take_ok {saved : Saved} {desk : Desk} (h : (o.sink.take saved desk).1 = .ok ()) :
    (o.sink.take saved desk).2.written = desk.written ++ [o.target saved.save] := by
  unfold Sink.take at *
  rcases hw : o.sink.write saved.save saved.content desk with ⟨f | path, desk'⟩
  · rw [hw] at h
    cases h
  · exact write_eq_ok hw

end OutputDirectory

/-! ## The saves of a flow -/

theorem Saved.map_save {β : Type} (g : Save → β) (kept : List Saved) :
    kept.map (g ·.save) = (kept.map (·.save)).map g := by
  rw [List.map_map]
  rfl

/-- What an action saves, if it saves something. -/
def Action.save? : Action → Option Save
  | save s => some s
  | _ => none

namespace Flow

/-- What the actions of a flow save. -/
def saves : Flow → List Save
  | nil => []
  | step action _ below rest => action.save?.toList ++ (below.saves ++ rest.saves)

theorem all_saves : ∀ f : Flow, f.All fun a => ∀ s, a.save? = some s → s ∈ f.saves
  | nil => trivial
  | step action _ below rest => by
    refine ⟨fun s hs => ?_, below.all_saves.imp fun a h s hs => ?_,
      rest.all_saves.imp fun a h s hs => ?_⟩
    · exact List.mem_append_left _ (by simp [hs])
    · exact List.mem_append_right _ (List.mem_append_left _ (h s hs))
    · exact List.mem_append_right _ (List.mem_append_right _ (h s hs))

/-- A run saves nothing but what the actions of its flow save. -/
theorem save_mem_saves {σ : Type} {f : Flow} {e : Host σ} {m : Machine σ} {w : Write σ}
    (hw : w ∈ f.writes e m) : w.saved.save ∈ f.saves := by
  have hasks : (f.program e.document).Asks fun request =>
      ∀ saved, request = .write saved → saved.save ∈ f.saves := by
    refine f.asks_program (fun a ha request hrequest saved he => ?_) f.all_saves
    subst he
    cases hrequest
    exact ha _ rfl
  exact hasks.of_mem_events (Program.mem_events_of_mem_writes hw) w.saved rfl

/-- If a run that writes below a directory succeeds, then so does the run that
writes nothing, with the same value. It keeps what the other one wrote. -/
theorem run_listing_of_run {f : Flow} {d : Document} {o : OutputDirectory} {s : Store} {disk : Disk}
    {v : Value} {m : Machine Desk}
    (h : (f.run ⟨d, o.sink⟩).start ⟨s, ⟨disk, []⟩⟩ = (.ok v, m)) :
    ∃ m', (f.run ⟨d, .listing⟩).start ⟨s, []⟩ = (.ok v, m') ∧
      m.sink.written = m'.sink.map (o.target ·.save) ∧ ∀ saved ∈ m'.sink, saved.save ∈ f.saves := by
  let A : Host (List Saved) := Setting.host ⟨d, .listing⟩
  let B : Host Desk := Setting.host ⟨d, o.sink⟩
  have hnever : A.NeverFails := fun _ _ => rfl
  have hrun : (f.runOn B).start ⟨s, ⟨disk, []⟩⟩ = (.ok v, m) := by
    rw [← h, ← runOn_host]
  obtain hc | ⟨done, w, fault, hs⟩ := Program.completes_or_stopsAt (A := A) (B := B) rfl hnever
    (f.program d) ⟨s, []⟩ ⟨s, ⟨disk, []⟩⟩ rfl
  · -- The sinks of both runs keep something of each write, and the writes are the same.
    have hlisted : ((f.runOn A).start ⟨s, []⟩).2.sink = (f.writes A ⟨s, []⟩).map (·.saved) := by
      have hkept := Program.kept_run id id (fun _ _ _ => rfl) (e := A) (p := f.program d)
        (m := ⟨s, []⟩) fun w _ => hnever w.saved w.before.sink
      rw [List.map_id] at hkept
      exact hkept
    have hwritten : ((f.runOn B).start ⟨s, ⟨disk, []⟩⟩).2.sink.written =
        ((f.writes A ⟨s, []⟩).map (·.saved)).map (o.target ·.save) := by
      have hkept := Program.kept_run Desk.written (o.target ·.save)
        (fun _ _ => OutputDirectory.take_ok) hc.succeeds
      rwa [hc.map_saved, List.nil_append] at hkept
    have hresult : ((f.runOn A).start ⟨s, []⟩).1 = .ok v :=
      hc.result.symm.trans (congrArg Prod.fst hrun)
    refine ⟨((f.runOn A).start ⟨s, []⟩).2, ?_, ?_, fun saved hsaved => ?_⟩
    · rw [← runOn_host]
      exact Prod.ext hresult rfl
    · rw [hlisted, ← hwritten, hrun]
    · rw [hlisted] at hsaved
      obtain ⟨w, hw, rfl⟩ := List.mem_map.mp hsaved
      exact save_mem_saves hw
  · have hresult := hs.result.symm.trans (congrArg Prod.fst hrun)
    cases hresult

end Flow

/-! ## Real and dry runs -/

namespace Job

variable {j : Job} {dir stamp : String} {disk : Disk} {report : Report}

/-- What a dry run makes of a flow. -/
theorem rehearse_of_load {flow : Flow} {document : Document} {v : Value} {m : Machine (List Saved)}
    (hload : Id.run (j.load disk.readText) = .ok (flow, document))
    (hrun : (flow.run ⟨document, .listing⟩).start ⟨j.store, []⟩ = (.ok v, m)) :
    Id.run (j.rehearse disk.readText) =
      .ok ⟨j.document, v.toJson document, m.sink.map (·.save.relativePath)⟩ := by
  unfold rehearse execute
  simp only [Id.run_bind, hload, hrun]
  rfl

/-- A real run that succeeds, by its parts. -/
theorem run_eq_ok (h : (j.run dir stamp disk).1 = .ok report) :
    ∃ flow document v m, Id.run (j.load disk.readText) = .ok (flow, document) ∧
      (flow.run ⟨document, (OutputDirectory.mk dir j.sourceName stamp).sink⟩).start
        ⟨j.store, ⟨disk, []⟩⟩ = (.ok v, m) ∧
      report = ⟨j.document, v.toJson document, m.sink.written⟩ := by
  unfold run at h
  rcases hload : Id.run (j.load disk.readText) with f | ⟨flow, document⟩
  · rw [hload] at h
    cases h
  · rw [hload] at h
    unfold execute at h
    rcases hrun : (flow.run ⟨document, (OutputDirectory.mk dir j.sourceName stamp).sink⟩).start
      ⟨j.store, ⟨disk, []⟩⟩ with ⟨f | v, m⟩
    · simp only [hrun] at h
      cases h
    · simp only [hrun] at h
      cases h
      exact ⟨flow, document, v, m, rfl, hrun, rfl⟩

/-- The lists of a dry and a real run agree exactly if no save has a long name. -/
theorem map_join_eq_iff (o : OutputDirectory) (saves : List Save) :
    (saves.map Save.relativePath).map (Path.join o.path) = saves.map o.target ↔
      ∀ s ∈ saves, s.longName = false := by
  rw [List.map_map, List.map_inj_left]
  exact forall₂_congr fun s _ => o.join_relativePath_eq_target_iff s

/-- If a real run of a job succeeds, then so does the dry run, with the same
value. Both list the saves of the run, the dry run by their relative paths and
the real run by the paths that they were written to. The latter are the former
as seen from the output directory exactly if none of the saves has a long name. -/
theorem rehearse_of_run (h : (j.run dir stamp disk).1 = .ok report) :
    ∃ (flow : Flow) (document : Document) (saves : List Save) (dry : Report),
      Id.run (j.load disk.readText) = .ok (flow, document) ∧
      Id.run (j.rehearse disk.readText) = .ok dry ∧
      dry.document = report.document ∧ dry.value = report.value ∧
      saves ⊆ flow.saves ∧
      dry.written = saves.map Save.relativePath ∧
      report.written = saves.map (OutputDirectory.mk dir j.sourceName stamp).target ∧
      (dry.written.map (Path.join dir) = report.written ↔ ∀ s ∈ saves, s.longName = false) := by
  obtain ⟨flow, document, v, m, hload, hrun, rfl⟩ := run_eq_ok h
  obtain ⟨m', hdry, hwritten, hsaves⟩ := Flow.run_listing_of_run hrun
  have hlisted := Saved.map_save Save.relativePath m'.sink
  rw [Saved.map_save] at hwritten
  refine ⟨flow, document, m'.sink.map (·.save), _, hload, rehearse_of_load hload hdry, rfl, rfl,
    ?_, hlisted, hwritten, ?_⟩
  · intro s hs
    obtain ⟨saved, hsaved, rfl⟩ := List.mem_map.mp hs
    exact hsaves saved hsaved
  · rw [hlisted, hwritten]
    exact map_join_eq_iff ⟨dir, j.sourceName, stamp⟩ _

/-- A disk that holds a page. -/
def pageDisk : Disk :=
  ⟨[(["page.html"], .file "<p>a</p>")], []⟩

/-- A job that saves the page as JSON, once for each of some further parameters. -/
def savingJob (params : List (List (Yaml × Yaml))) : Job where
  service := none
  document := "page.html"
  flowFile := none
  inlineFlow := some <| .list <| params.map fun more =>
    .mapping [(.text "actionName", .text "saveToFile"), (.text "actionParams", .mapping <|
      (.text "to", .text "page") :: (.text "fileType", .text "json") :: more)]

/-- Two saves without long names, one of them in a directory. -/
def plainJob : Job :=
  savingJob [[], [(.text "dir", .text "copies")]]

/-- The lists of the two runs agree, so neither save has a long name. -/
theorem rehearse_of_run_plain :
    ∃ (report dry : Report) (saves : List Save),
      (plainJob.run "out" "20240131_090500" pageDisk).1 = .ok report ∧
      Id.run (plainJob.rehearse pageDisk.readText) = .ok dry ∧ dry.value = report.value ∧
      report.written = ["out/page.json", "out/copies/page.json"] ∧
      dry.written = ["page.json", "copies/page.json"] ∧
      dry.written = saves.map Save.relativePath ∧ ∀ s ∈ saves, s.longName = false := by
  have hwritten : (plainJob.run "out" "20240131_090500" pageDisk).1.map (·.written) =
      .ok ["out/page.json", "out/copies/page.json"] := by decide +kernel
  have hlisted : (Id.run (plainJob.rehearse pageDisk.readText)).map (·.written) =
      .ok ["page.json", "copies/page.json"] := by decide +kernel
  obtain ⟨report, hreport, hwritten⟩ := map_eq_ok.mp hwritten
  obtain ⟨flow, document, saves, dry, -, hdry, -, hvalue, -, hsaves, -, hiff⟩ :=
    rehearse_of_run hreport
  rw [hdry] at hlisted
  have hlist : dry.written = ["page.json", "copies/page.json"] := Except.ok.inj hlisted
  refine ⟨report, dry, saves, hreport, hdry, hvalue, hwritten, hlist, hsaves, hiff.mp ?_⟩
  rw [hlist, hwritten]
  decide +kernel

/-- A save with a long name. -/
def longJob : Job :=
  savingJob [[(.text "longName", .bool true)]]

/-- A dry run does not list the long name that a real run writes to. -/
theorem rehearse_of_run_long :
    ∃ report dry : Report, (longJob.run "out" "20240131_090500" pageDisk).1 = .ok report ∧
      Id.run (longJob.rehearse pageDisk.readText) = .ok dry ∧
      report.written = ["out/page-page.html-20240131_090500.json"] ∧
      dry.written.map (Path.join "out") = ["out/page.json"] := by
  have hwritten : (longJob.run "out" "20240131_090500" pageDisk).1.map (·.written) =
      .ok ["out/page-page.html-20240131_090500.json"] := by decide +kernel
  have hlisted : (Id.run (longJob.rehearse pageDisk.readText)).map
      (·.written.map (Path.join "out")) = .ok ["out/page.json"] := by decide +kernel
  obtain ⟨report, hreport, hwritten⟩ := map_eq_ok.mp hwritten
  obtain ⟨dry, hdry, hlisted⟩ := map_eq_ok.mp hlisted
  exact ⟨report, dry, hreport, hdry, hwritten, hlisted⟩

end Job

end Gleaner
