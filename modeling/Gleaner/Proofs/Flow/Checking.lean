import Gleaner.Flow.Loading
import Gleaner.Proofs.Flow.Reading
import Gleaner.Proofs.Flow.Variables

/-!
# Flows that load, and the faults of those that do not

A flow loads if it has a step and each step, at any depth, is valid on its own: its parameters are
a mapping or left out, and they can be read as an action. The flow then has the steps of the draft
where the draft has them. Otherwise the fault is that of the first step that is not valid, where a
step comes before those below it and these come before the steps after it.

* `Draft.heads`: the steps of a draft, each on its own, in this order;
* `Draft.Head.Reads`, `Draft.Head.Fails`: what becomes of one step;
* `Draft.map_actions_check`: a draft is checked as the list of its steps;
* `Draft.Loads`: the flow of a draft;
* `Draft.LoadsAs`, `Flow.loads_or_first_fault`: the whole statement.
-/

namespace Gleaner

namespace Draft

/-! ## Steps on their own -/

/-- A step without its mode and the steps around it. -/
structure Head where
  name : String
  params : Yaml

/-- The steps of a draft, each followed by those below it. -/
def heads : Draft → List Head
  | nil => []
  | step name params _ below rest => ⟨name, params⟩ :: (below.heads ++ rest.heads)

/-- Whether a value gives some parameters. Null, which also stands for a value that is left out,
and an empty list give none. -/
inductive Gives : Yaml → List (Yaml × Yaml) → Prop where
  | mapping {entries : List (Yaml × Yaml)} : Gives (.mapping entries) entries
  | null : Gives .null []
  | empty : Gives (.list []) []

namespace Head

/-- Whether a step is read as an action. -/
def Reads (h : Head) (a : Action) : Prop :=
  ∃ entries, Gives h.params entries ∧ Action.parse h.name entries = .ok a

/-- Whether a step is the step of a flow. -/
def IsValid (h : Head) : Prop :=
  ∃ a, h.Reads a

/-- The fault of a step: its value gives no parameters, or it gives some with which the action
cannot be read. -/
inductive Fails (h : Head) : Fault → Prop where
  | form : (∀ entries, ¬Gives h.params entries) →
    Fails h (.badFlow ("actionParams of " ++ Fault.inQuotes h.name ++ " must be a mapping") none)
  | action {entries : List (Yaml × Yaml)} {f : Fault} : Gives h.params entries →
    Action.parse h.name entries = .error f → Fails h f

/-- The action of a step. -/
def action (h : Head) : Except Fault Action :=
  Draft.action h.name h.params

end Head

theorem entries_eq_ok_iff {name : String} {params : Yaml} {found : List (Yaml × Yaml)} :
    entries name params = .ok found ↔ Gives params found := by
  constructor
  · intro h
    unfold entries at h
    split at h <;> cases h
    · exact .mapping
    · exact .null
    · exact .empty
  · rintro (_ | _ | _) <;> rfl

theorem entries_eq_error_iff {name : String} {params : Yaml} {f : Fault} :
    entries name params = .error f ↔ (∀ found, ¬Gives params found) ∧
      f = .badFlow ("actionParams of " ++ Fault.inQuotes name ++ " must be a mapping") none := by
  constructor
  · intro h
    refine ⟨fun found hfound => ?_, ?_⟩
    · cases h.symm.trans (entries_eq_ok_iff.mpr hfound)
    · unfold entries at h
      split at h <;> cases h
      rfl
  · rintro ⟨hnone, rfl⟩
    unfold entries
    split
    · exact (hnone _ .mapping).elim
    · exact (hnone _ .null).elim
    · exact (hnone _ .empty).elim
    · rfl

namespace Head

variable {h : Head} {f : Fault}

theorem action_eq_ok_iff {a : Action} : h.action = .ok a ↔ h.Reads a := by
  rw [action, Draft.action, bind_eq_ok]
  exact exists_congr fun found => and_congr_left fun _ => entries_eq_ok_iff

theorem action_eq_error_iff : h.action = .error f ↔ h.Fails f := by
  rw [action, Draft.action, bind_eq_error, entries_eq_error_iff]
  constructor
  · rintro (⟨hnone, rfl⟩ | ⟨found, hfound, hf⟩)
    · exact .form hnone
    · exact .action (entries_eq_ok_iff.mp hfound) hf
  · rintro (hnone | ⟨hgives, hf⟩)
    · exact .inl ⟨hnone, rfl⟩
    · exact .inr ⟨_, entries_eq_ok_iff.mpr hgives, hf⟩

theorem isValid_iff : h.IsValid ↔ ∃ a, h.action = .ok a :=
  exists_congr fun _ => action_eq_ok_iff.symm

/-- The fault of a step lies in the definition of its flow. -/
theorem Fails.isDefinitionFault (hf : h.Fails f) : f.isDefinitionFault = true := by
  cases hf with
  | form => rfl
  | action _ hparse =>
    rcases Action.isAbout_of_parse hparse with rfl | ⟨⟩ | ⟨⟩ <;> rfl

end Head

/-! ## Drafts as lists of steps -/

/-- A draft is checked as the list of its steps is. -/
theorem map_actions_check : ∀ d : Draft, d.check.map Flow.actions = d.heads.mapM Head.action
  | nil => rfl
  | step name params mode below rest => by
    have hhead : Head.action ⟨name, params⟩ = action name params := rfl
    rw [heads, List.mapM_cons, List.mapM_append, ← map_actions_check below,
      ← map_actions_check rest, hhead, check]
    -- On both sides the first of the three that fails decides.
    rcases action name params with _ | _ <;> rcases below.check with _ | _ <;>
      rcases rest.check with _ | _ <;> rfl

theorem exists_check_eq_ok_iff {d : Draft} :
    (∃ flow, d.check = .ok flow) ↔ ∀ h ∈ d.heads, h.IsValid := by
  simp only [Head.isValid_iff, ← exists_mapM_eq_ok_iff, ← map_actions_check, map_eq_ok]
  exact ⟨fun ⟨flow, hflow⟩ => ⟨_, flow, hflow, rfl⟩, fun ⟨_, flow, hflow, _⟩ => ⟨flow, hflow⟩⟩

/-- Whether a fault is that of the first step of a draft that is not valid. -/
def IsFirstFault (d : Draft) (f : Fault) : Prop :=
  ∃ before h after, d.heads = before ++ h :: after ∧ (∀ g ∈ before, g.IsValid) ∧ h.Fails f

theorem check_eq_error_iff {d : Draft} {f : Fault} : d.check = .error f ↔ d.IsFirstFault f := by
  rw [← map_eq_error (g := Flow.actions), map_actions_check, mapM_eq_error_iff]
  simp only [← Head.isValid_iff, Head.action_eq_error_iff]
  rfl

/-! ## The flow of a draft -/

/-- Whether a flow has the steps of a draft, each in its place, with its mode and the action that
it is read as. -/
inductive Loads : Draft → Flow → Prop where
  | nil : Loads nil .nil
  | step {name : String} {params : Yaml} {mode : Mode} {below rest : Draft} {action : Action}
    {below' rest' : Flow} : Head.Reads ⟨name, params⟩ action → Loads below below' →
    Loads rest rest' → Loads (step name params mode below rest) (.step action mode below' rest')

theorem loads_of_check : ∀ {d : Draft} {flow : Flow}, d.check = .ok flow → d.Loads flow
  | nil, _, h => by
    cases h
    exact .nil
  | step name params mode below rest, _, h => by
    obtain ⟨action, haction, h⟩ := bind_eq_ok.mp h
    obtain ⟨below', hbelow, h⟩ := bind_eq_ok.mp h
    obtain ⟨rest', hrest, h⟩ := bind_eq_ok.mp h
    cases h
    exact .step (Head.action_eq_ok_iff.mp haction) (loads_of_check hbelow) (loads_of_check hrest)

theorem Loads.check {d : Draft} {flow : Flow} (h : d.Loads flow) : d.check = .ok flow := by
  induction h with
  | nil => rfl
  | step hreads _ _ ihBelow ihRest =>
    have haction := Head.action_eq_ok_iff.mpr hreads
    exact bind_eq_ok.mpr ⟨_, haction, bind_eq_ok.mpr ⟨_, ihBelow, bind_eq_ok.mpr ⟨_, ihRest, rfl⟩⟩⟩

end Draft

/-! ## What is left out of a step -/

namespace DraftFields

variable {f g : DraftFields} {i : Nat} {v : Yaml} {below : Draft}

/-- Filling a field leaves the others as they are. -/
theorem fill_frame (h : f.fill i v = some g) :
    (i ≠ 1 → g.params = f.params) ∧ (i ≠ 3 → g.mode = f.mode) := by
  unfold fill at h
  split at h
  · split at h
    · cases h
    · obtain ⟨_, -, rfl⟩ := Option.map_eq_some_iff.mp h
      exact ⟨fun _ => rfl, fun _ => rfl⟩
  · split at h <;> cases h
    exact ⟨fun hi => (hi rfl).elim, fun _ => rfl⟩
  · split at h
    · cases h
    · obtain ⟨_, -, rfl⟩ := Option.map_eq_some_iff.mp h
      exact ⟨fun _ => rfl, fun hi => (hi rfl).elim⟩
  · cases h

theorem fillBelow_frame (h : f.fillBelow below = some g) :
    g.params = f.params ∧ g.mode = f.mode := by
  unfold fillBelow at h
  split at h <;> cases h
  exact ⟨rfl, rfl⟩

end DraftFields

namespace Draft

/-- Whether a value that is read as a step has something for the field of an index. -/
def HasField (i : Nat) : Yaml → Prop
  | .mapping entries => ∃ e ∈ entries, FieldKey.ofYaml DraftFields.names e.1 = some (.field i)
  | .list items => i < items.length
  | _ => False

section

variable {P : DraftFields → Prop} {i : Nat}
  (hfill : ∀ j v f g, j ≠ i → DraftFields.fill f j v = some g → P f → P g)
  (hbelow : ∀ below f g, DraftFields.fillBelow f below = some g → P f → P g)

include hfill hbelow

theorem keeps_fieldsOfEntries : ∀ {entries : List (Yaml × Yaml)} {f g : DraftFields},
    ¬HasField i (.mapping entries) → fieldsOfEntries? entries f = some g → P f → P g
  | [], _, _, _, h, hf => by
    cases h
    exact hf
  | (k, v) :: rest, f, g, hi, h, hf => by
    have hrest : ¬HasField i (.mapping rest) := fun ⟨e, he, hk⟩ =>
      hi ⟨e, List.mem_cons_of_mem _ he, hk⟩
    unfold fieldsOfEntries? at h
    split at h
    · cases h
    · exact keeps_fieldsOfEntries hrest h hf
    · obtain ⟨f', hf', h⟩ := Option.bind_eq_some_iff.mp h
      obtain ⟨below, -, hf'⟩ := Option.bind_eq_some_iff.mp hf'
      exact keeps_fieldsOfEntries hrest h (hbelow _ _ _ hf' hf)
    · rename_i j _ hj
      obtain ⟨f', hf', h⟩ := Option.bind_eq_some_iff.mp h
      have hne : j ≠ i := fun he => hi ⟨_, List.mem_cons_self, he ▸ hj⟩
      exact keeps_fieldsOfEntries hrest h (hfill _ _ _ _ hne hf' hf)

theorem keeps_fieldsOfItems : ∀ {items : List Yaml} {j : Nat} {f g : DraftFields},
    j + items.length ≤ i → fieldsOfItems? items j f = some g → P f → P g
  | [], _, _, _, _, h, hf => by
    simp only [fieldsOfItems?, Option.some.injEq] at h
    exact h ▸ hf
  | v :: rest, j, f, g, hi, h, hf => by
    rw [List.length_cons] at hi
    unfold fieldsOfItems? at h
    split at h
    · rename_i heq
      cases heq
    · rename_i heq
      cases heq
      obtain ⟨f', hf', h⟩ := Option.bind_eq_some_iff.mp h
      obtain ⟨below, -, hf'⟩ := Option.bind_eq_some_iff.mp hf'
      exact keeps_fieldsOfItems (by omega) h (hbelow _ _ _ hf' hf)
    · rename_i heq _
      cases heq
      obtain ⟨f', hf', h⟩ := Option.bind_eq_some_iff.mp h
      exact keeps_fieldsOfItems (by omega) h (hfill _ _ _ _ (by omega) hf' hf)

/-- A step without a field has what the other fields leave as it is. -/
theorem keeps_fields {v : Yaml} {g : DraftFields} (hi : ¬HasField i v) (h : fields? v = some g)
    (hempty : P .empty) : P g := by
  unfold fields? at h
  split at h
  · exact keeps_fieldsOfEntries hfill hbelow hi h hempty
  · -- The items are for the fields from zero on.
    rw [HasField] at hi
    exact keeps_fieldsOfItems hfill hbelow (by omega) h hempty
  · cases h

end

/-- A step that leaves out its parameters has none, and one that leaves out its mode is atomic. -/
theorem exists_step_of_steps {v : Yaml} {items : List Yaml} {d : Draft}
    (h : steps? (.list (v :: items)) = some d) :
    ∃ name params mode below rest, d = .step name params mode below rest ∧
      (¬HasField 1 v → params = .null) ∧ (¬HasField 3 v → mode = .atomic) := by
  obtain ⟨f, hf, h⟩ := Option.bind_eq_some_iff.mp h
  obtain ⟨rest, -, h⟩ := Option.bind_eq_some_iff.mp h
  obtain ⟨name, -, rfl⟩ := Option.map_eq_some_iff.mp h
  refine ⟨_, _, _, _, _, rfl, fun hi => ?_, fun hi => ?_⟩
  · have hnone : f.params = none := keeps_fields (P := (·.params = none))
      (fun _ _ _ _ hne hg hf => ((DraftFields.fill_frame hg).1 hne).trans hf)
      (fun _ _ _ hg hf => (DraftFields.fillBelow_frame hg).1.trans hf) hi hf rfl
    rw [hnone]
    rfl
  · have hnone : f.mode = none := keeps_fields (P := (·.mode = none))
      (fun _ _ _ _ hne hg hf => ((DraftFields.fill_frame hg).2 hne).trans hf)
      (fun _ _ _ hg hf => (DraftFields.fillBelow_frame hg).2.trans hf) hi hf rfl
    rw [hnone]
    rfl

/-! ## The statement -/

/-- What the loading of a draft comes to. -/
structure LoadsAs (d : Draft) (r : Except Fault Flow) : Prop where
  /-- The draft loads exactly if it has a step and all its steps, at any depth, are valid. -/
  loads_iff : (∃ flow, r = .ok flow) ↔ d ≠ nil ∧ ∀ h ∈ d.heads, h.IsValid
  ok_iff : ∀ flow, r = .ok flow ↔ d ≠ nil ∧ d.Loads flow
  error_iff : ∀ f, r = .error f ↔
    d = nil ∧ f = .badFlow "flow has no steps" none ∨ d ≠ nil ∧ d.IsFirstFault f

theorem loadsAs_ofDraft (d : Draft) : d.LoadsAs (Flow.ofDraft d) := by
  by_cases hd : d = nil
  · subst hd
    have hfault : Flow.ofDraft nil = .error (.badFlow "flow has no steps" none) := rfl
    rw [hfault]
    exact
      { loads_iff := by simp
        ok_iff := by simp
        error_iff := by simp [eq_comm] }
  · have hcheck : Flow.ofDraft d = d.check := by
      cases d with
      | nil => exact (hd rfl).elim
      | step => rfl
    rw [hcheck]
    exact
      { loads_iff := by simp only [exists_check_eq_ok_iff, ne_eq, hd, not_false_eq_true, true_and]
        ok_iff := fun flow => ⟨fun h => ⟨hd, loads_of_check h⟩, fun h => h.2.check⟩
        error_iff := by simp [hd, check_eq_error_iff] }

theorem IsFirstFault.isDefinitionFault {d : Draft} {f : Fault} (h : d.IsFirstFault f) :
    f.isDefinitionFault = true := by
  obtain ⟨-, h, -, -, -, hf⟩ := h
  exact hf.isDefinitionFault

end Draft

namespace Flow

/-- The fault of a value that is no flow lies in the definition of a flow. -/
theorem isDefinitionFault_of_ofYaml {v : Yaml} {f : Fault} (h : ofYaml v = .error f) :
    f.isDefinitionFault = true := by
  unfold ofYaml at h
  split at h
  · rename_i d _
    rcases (d.loadsAs_ofDraft.error_iff f).mp h with ⟨-, rfl⟩ | ⟨-, hf⟩
    · rfl
    · exact hf.isDefinitionFault
  · cases h
    rfl

theorem isDefinitionFault_of_ofSource {source : String} {f : Fault}
    (h : ofSource source = .error f) : f.isDefinitionFault = true := by
  unfold ofSource at h
  split at h
  · exact isDefinitionFault_of_ofYaml h
  · cases h
    rfl

/-- A value or a source that is a draft loads exactly if the draft has a step and all its steps are
valid. The flow then has the steps of the draft, each with its own mode, and otherwise the fault is
that of the first step that is not valid. A step that leaves out its parameters is one with null,
and a step that leaves out its mode is atomic. -/
theorem loads_or_first_fault :
    (∀ v d, Draft.ofYaml v = some d → d.LoadsAs (ofYaml v)) ∧
      (∀ source v d, Yaml.parse? source = some v → Draft.ofYaml v = some d →
        d.LoadsAs (ofSource source)) ∧
      ∀ v items d, Draft.steps? (.list (v :: items)) = some d →
        ∃ name params mode below rest, d = .step name params mode below rest ∧
          (¬Draft.HasField 1 v → params = .null) ∧ (¬Draft.HasField 3 v → mode = .atomic) := by
  have hyaml (v : Yaml) (d : Draft) (h : Draft.ofYaml v = some d) : ofYaml v = ofDraft d := by
    simp only [ofYaml, h]
  refine ⟨fun v d h => ?_, fun source v d hv h => ?_, fun v items d => Draft.exists_step_of_steps⟩
  · rw [hyaml v d h]
    exact d.loadsAs_ofDraft
  · have hsource : ofSource source = ofYaml v := by simp only [ofSource, hv]
    rw [hsource, hyaml v d h]
    exact d.loadsAs_ofDraft

/-- Two steps: the first has an unknown one below it, and the parameters of the second, which is
written as a list, are a text. -/
def straySteps : Yaml :=
  .list [.mapping [(.text "actionName", .text "end"), (.text "actionType", .text "loop"),
      (.text "subActions", .list [.mapping [(.text "actionName", .text "leap")]])],
    .list [.text "end", .text "none"]]

/-- The draft of these steps. -/
def strayDraft : Draft :=
  .step "end" .null .loop (.step "leap" .null .atomic .nil .nil) <|
    .step "end" (.text "none") .atomic .nil .nil

/-- The same steps as a source. -/
def straySource : String :=
  "- actionName: end\n  actionType: loop\n  subActions:\n  - actionName: leap\n- [end, none]"

/-- Of the two faults, that of the step below is reported. The second step leaves out its mode. -/
theorem loads_or_first_fault_stray :
    (Draft.ofYaml straySteps = some strayDraft ∧
      ofYaml straySteps = .error (.unknownAction "leap")) ∧
    (∃ v d, Yaml.parse? straySource = some v ∧ Draft.ofYaml v = some d ∧
      ofSource straySource = .error (.unknownAction "leap") ∧
      d.IsFirstFault (.unknownAction "leap")) ∧
    ∃ name params mode below rest,
      Draft.steps? (.list [.list [.text "end", .text "none"]]) =
        some (.step name params mode below rest) ∧ mode = .atomic := by
  have hdraft : Draft.ofYaml straySteps = some strayDraft := by rfl
  have hend : Draft.Head.IsValid ⟨"end", .null⟩ := ⟨.pass, [], .null, rfl⟩
  have hleap : Draft.Head.Fails ⟨"leap", .null⟩ (.unknownAction "leap") := .action .null rfl
  have hfirst : strayDraft.IsFirstFault (.unknownAction "leap") :=
    ⟨[_], _, [_], rfl, List.forall_mem_singleton.mpr hend, hleap⟩
  have hsource : ofSource straySource = .error (.unknownAction "leap") := by decide +kernel
  have hsome : ((Yaml.parse? straySource).bind Draft.ofYaml).isSome := by decide +kernel
  obtain ⟨d, hd⟩ := Option.isSome_iff_exists.mp hsome
  obtain ⟨v, hv, hd⟩ := Option.bind_eq_some_iff.mp hd
  refine ⟨⟨hdraft, ?_⟩, ⟨v, d, hv, hd, hsource, ?_⟩, ?_⟩
  · exact ((loads_or_first_fault.1 _ _ hdraft).error_iff _).mpr (.inr ⟨nofun, hfirst⟩)
  · rcases ((loads_or_first_fault.2.1 _ _ _ hv hd).error_iff _).mp hsource with ⟨-, h⟩ | ⟨-, h⟩
    · cases h
    · exact h
  · have hsteps : Draft.steps? (.list [.list [.text "end", .text "none"]]) =
        some (.step "end" (.text "none") .atomic .nil .nil) := by rfl
    obtain ⟨name, params, mode, below, rest, he, -, hmode⟩ :=
      loads_or_first_fault.2.2 _ _ _ hsteps
    exact ⟨name, params, mode, below, rest, hsteps.trans (congrArg some he),
      hmode (by simp [Draft.HasField])⟩

end Flow

end Gleaner
