import Gleaner.Proofs.Flow.Variables
import Gleaner.Proofs.Run.Kinds

/-!
# Declared variables

No operation takes the declaration of a name back, so that the names that are declared before a
run are declared at all points of it, whatever the sink does. A run is never told that such a name
is not declared.

* `Store.names_subset_after`: one operation;
* `Program.names_subset`, `Flow.names_subset_runAllOn`: runs;
* `Contract.declares`: a name is declared, and not said not to be;
* `Flow.fault_ne_of_declared`: the faults of runs.
-/

namespace Gleaner

variable {σ α : Type}

/-! ## Names -/

namespace Store

theorem mem_names_iff {s : Store} {x : String} : x ∈ s.names ↔ (s.get? x).isSome := by
  rw [names, List.mem_mergeSort, get?, Option.isSome_map, List.find?_isSome, List.mem_map]
  simp only [beq_iff_eq]

theorem names_subset_put (s : Store) (name : String) (u : Variable) :
    s.names ⊆ (s.put name u).names := by
  intro x hx
  rw [mem_names_iff] at *
  by_cases hname : x = name
  · rw [hname, get?_put_self]
    rfl
  · rwa [get?_put_of_ne s u hname]

/-- An operation leaves all names declared, whether it succeeds or fails. -/
theorem names_subset_after (d : Document) (s : Store) (op : Operation) :
    s.names ⊆ (s.after d op).names := by
  rcases after_eq_or_puts d s op with he | ⟨name, u, hputs⟩
  · rw [he]
    exact List.Subset.refl _
  · rw [hputs.store]
    exact s.names_subset_put name u

end Store

/-! ## Runs -/

/-- All names that are declared before a run are declared throughout. -/
theorem Program.names_subset {e : Host σ} {p : Program α} {m : Machine σ} :
    ∀ s ∈ p.stores e m, m.store.names ⊆ s.names :=
  stores_invariant (I := fun s => m.store.names ⊆ s.names)
    (fun s op hs => List.Subset.trans hs (s.names_subset_after e.document op)) (List.Subset.refl _)

theorem Action.names_subset_apply (e : Setting σ) (input : Value) (a : Action) (m : Machine σ) :
    m.store.names ⊆ ((a.apply e input).start m).2.store.names := by
  rw [← a.run_program e input]
  exact Program.names_subset _ (Program.store_run_mem_stores e.host _ m)

theorem Flow.names_subset_runAllOn (e : Host σ) (input last : Value) (f : Flow) (m : Machine σ) :
    m.store.names ⊆ ((f.runAllOn e input last).start m).2.store.names :=
  Program.names_subset _ (Program.store_run_mem_stores e _ m)

theorem Flow.names_subset_run (e : Setting σ) (f : Flow) (m : Machine σ) :
    m.store.names ⊆ ((f.run e).start m).2.store.names :=
  Program.names_subset _ (f.store_run_mem_stores e m)

/-! ## Faults -/

/-- The contract that a name is declared, and is not said not to be. -/
def Contract.declares (x : String) : Contract where
  store s := x ∈ s.names
  value _ := True
  fault f := f ≠ .undefinedVariable x

theorem Contract.closed_declares (d : Document) (x : String) : (declares x).Closed d := by
  refine closed_of_after (fun _ => trivial) (fun s f hs h hf => ?_) fun s op hs => ?_
  · have hdeclared := Store.mem_names_iff.mp hs
    rw [h.2 x hf] at hdeclared
    cases hdeclared
  · exact s.names_subset_after d op hs

/-- The fault of a definition says of no name that it is not declared. -/
theorem Contract.allows_declares (x : String) (a : Action) : (declares x).Allows a := by
  refine .inr fun f hf he => ?_
  subst he
  cases hf

theorem Flow.fault_ne_of_declared (e : Setting σ) (f : Flow) {m : Machine σ} {x : String}
    (hx : x ∈ m.store.names) : ((f.run e).start m).1 ≠ .error (.undefinedVariable x) := by
  have hall := all_of_forall (Contract.allows_declares x) f
  obtain ⟨-, hends⟩ := keeps_run (Contract.closed_declares e.document x) hall trivial m hx
  intro h
  rw [h] at hends
  exact hends rfl

end Gleaner
