import Gleaner.Flow.Loading
import Gleaner.Proofs.Run.Flow
import Gleaner.Proofs.Store.Operation

/-!
# Flows that load are complete

Each action of a flow that loads has the key that it needs: a change of a
mapping is read only if a key is given (`Action.isComplete_of_parse`), and so it
is for each step of a draft (`Draft.isComplete_of_check`), of a value and of a
source (`Flow.isComplete_of_ofYaml`, `Flow.isComplete_of_ofSource`).

The run of a complete flow never ends with a fault that lies in the definition
of a flow, whatever the document, the sink and the variables are
(`Flow.IsComplete.runOutcome`).
-/

namespace Gleaner

theorem Parameters.isSome_key_of_update {p : Parameters} {u : Update} (h : p.update = .ok u) :
    u.kind = .mapping → u.key.isSome := by
  obtain ⟨spelling, -, h⟩ := bind_eq_ok.mp h
  obtain ⟨kind, -, h⟩ := bind_eq_ok.mp h
  obtain ⟨key, -, h⟩ := bind_eq_ok.mp h
  split at h
  · cases h
  · rename_i hkey
    obtain ⟨name, -, h⟩ := bind_eq_ok.mp h
    obtain ⟨value, -, h⟩ := bind_eq_ok.mp h
    cases h
    intro hkind
    rw [Option.isSome_iff_ne_none]
    intro hnone
    exact hkey ⟨hkind, Option.isNone_iff_eq_none.mpr hnone⟩

/-- An action that can be read has the key that it needs. -/
theorem Action.isComplete_of_parse {name : String} {entries : List (Yaml × Yaml)} {a : Action}
    (h : parse name entries = .ok a) : a.IsComplete := by
  cases a with
  | add u =>
    obtain rfl : "addToVar" = name := name_of_parse h
    obtain ⟨u', hu, he⟩ := map_eq_ok.mp h
    cases he
    exact Parameters.isSome_key_of_update hu
  | remove u =>
    obtain rfl : "removeVar" = name := name_of_parse h
    obtain ⟨u', hu, he⟩ := map_eq_ok.mp h
    cases he
    exact Parameters.isSome_key_of_update hu
  | find | table | tree | branch | get | slice | wrap | declare | save | read | pass => trivial

theorem Draft.isComplete_of_check : ∀ {d : Draft} {flow : Flow}, d.check = .ok flow →
    flow.IsComplete
  | nil, _, h => by
    cases h
    trivial
  | step name params mode below rest, _, h => by
    obtain ⟨action, haction, h⟩ := bind_eq_ok.mp h
    obtain ⟨below', hbelow, h⟩ := bind_eq_ok.mp h
    obtain ⟨rest', hrest, h⟩ := bind_eq_ok.mp h
    cases h
    obtain ⟨entries, -, haction⟩ := bind_eq_ok.mp haction
    exact ⟨Action.isComplete_of_parse haction, isComplete_of_check hbelow,
      isComplete_of_check hrest⟩

namespace Flow

theorem isComplete_of_ofYaml {v : Yaml} {flow : Flow} (h : ofYaml v = .ok flow) :
    flow.IsComplete := by
  unfold ofYaml at h
  split at h
  · unfold ofDraft at h
    split at h
    · cases h
    · exact Draft.isComplete_of_check h
  · cases h

theorem isComplete_of_ofSource {source : String} {flow : Flow} (h : ofSource source = .ok flow) :
    flow.IsComplete := by
  unfold ofSource at h
  split at h
  · exact isComplete_of_ofYaml h
  · cases h

end Flow

/-! ## Runs of complete flows -/

/-- The contract that asks nothing but that no fault lies in the definition of a
flow. -/
def Contract.runOutcomes : Contract where
  store _ := True
  value _ := True
  fault f := f.isDefinitionFault = false

theorem Contract.closed_runOutcomes (d : Document) : runOutcomes.Closed d :=
  closed_of_after (fun _ => trivial) (fun _ _ _ h => h.1) fun _ _ _ => trivial

/-- Whether an outcome is a value, or a fault that does not lie in the definition
of a flow. -/
abbrev RunOutcome {α : Type} (r : Except Fault α) : Prop :=
  Ends (fun _ => True) (fun f => f.isDefinitionFault = false) r

/-- The run of a complete flow ends with a value, or with a fault that does not
lie in the definition of a flow. -/
theorem Flow.IsComplete.runOutcome {σ : Type} {flow : Flow} (h : flow.IsComplete) (e : Setting σ)
    (m : Machine σ) : RunOutcome ((flow.run e).start m).1 :=
  (keeps_run (Contract.closed_runOutcomes e.document) (h.imp fun _ => .inl) trivial m trivial).2

end Gleaner
