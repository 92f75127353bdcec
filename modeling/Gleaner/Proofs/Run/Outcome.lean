import Gleaner.Proofs.Store.Change
import Gleaner.Run.Apply

/-!
# Outcomes of the steps of a run

Each function that an action is made of gives a value or a fault. `Ends Q E`
says that the outcome is a value with the property `Q` or a fault with the
property `E`, and goes through computations in `Except` step by step
(`Ends.bind`, `Ends.map`).

A fault that ends a run lies in what the flow met and not in how it was
written, and it says of no declared variable that it is not declared:
`StepOutcome` says so of one outcome and the variables that it is reached with.
It holds of every operation on variables (`Store.stepOutcome_resolve` and the
lemmas before it), of projections (`Table.stepOutcome_project`), of hierarchies
(`Hierarchy.stepOutcome_build`) and of what actions ask of their inputs.
-/

namespace Gleaner

variable {α β : Type} {P Q : α → Prop} {R : β → Prop} {E F : Fault → Prop}

/-- Whether an outcome is a value with a property, or a fault with a property. -/
def Ends (Q : α → Prop) (E : Fault → Prop) : Except Fault α → Prop
  | .ok a => Q a
  | .error f => E f

namespace Ends

theorem mono {r : Except Fault α} (h : Ends P E r) (hQ : ∀ a, r = .ok a → P a → Q a)
    (hF : ∀ f, E f → F f) : Ends Q F r := by
  cases r with
  | ok a => exact hQ a rfl h
  | error f => exact hF f h

theorem of_ok {r : Except Fault α} {a : α} (h : Ends Q E r) (hr : r = .ok a) : Q a := by
  rwa [hr] at h

theorem bind {r : Except Fault α} {k : α → Except Fault β} (h : Ends P E r)
    (hk : ∀ a, P a → Ends R E (k a)) : Ends R E (r >>= k) := by
  cases r with
  | ok a => exact hk a h
  | error f => exact h

theorem map {r : Except Fault α} {g : α → β} (h : Ends P E r) (hg : ∀ a, P a → R (g a)) :
    Ends R E (r.map g) := by
  cases r with
  | ok a => exact hg a h
  | error f => exact h

end Ends

/-- Whether a fault can end a step of a run that finds some variables: it does not
lie in the definition of a flow, and a name that is said not to be declared is not. -/
def Store.MayCause (s : Store) (f : Fault) : Prop :=
  f.isDefinitionFault = false ∧ ∀ name, f = .undefinedVariable name → s.get? name = none

/-- Whether an outcome is a value, or a fault that some variables may cause. -/
abbrev StepOutcome (s : Store) (r : Except Fault α) : Prop :=
  Ends (fun _ => True) s.MayCause r

theorem stepOutcome_mapM {s : Store} {f : β → Except Fault α} (hf : ∀ b, StepOutcome s (f b)) :
    ∀ bs : List β, StepOutcome s (bs.mapM f)
  | [] => trivial
  | b :: bs => by
    rw [List.mapM_cons]
    exact (hf b).bind fun _ _ => (stepOutcome_mapM hf bs).bind fun _ _ => trivial

/-! ## Variables -/

namespace Store

variable (s : Store) (name : String)

theorem stepOutcome_lookup : StepOutcome s (s.lookup name) := by
  unfold lookup
  split
  · trivial
  · rename_i hnone
    refine ⟨rfl, fun other he => ?_⟩
    cases he
    exact hnone

theorem stepOutcome_value : StepOutcome s (s.value name) :=
  (s.stepOutcome_lookup name).map fun _ _ => trivial

theorem stepOutcome_valueOf (kind : Kind) : StepOutcome s (s.valueOf name kind) := by
  refine (s.stepOutcome_lookup name).bind fun v _ => ?_
  split
  · trivial
  · exact ⟨rfl, nofun⟩

theorem stepOutcome_set (v : Value) : StepOutcome s (s.set name v) :=
  (s.stepOutcome_valueOf name .scalar).bind fun _ _ => trivial

theorem stepOutcome_append (v : Value) : StepOutcome s (s.append name v) := by
  refine (s.stepOutcome_valueOf name .list).bind fun w _ => ?_
  split <;> trivial

theorem stepOutcome_insert (key : String) (v : Value) : StepOutcome s (s.insert name key v) := by
  refine (s.stepOutcome_valueOf name .mapping).bind fun w _ => ?_
  split <;> trivial

theorem stepOutcome_remove (v : Value) : StepOutcome s (s.remove name v) := by
  refine (s.stepOutcome_valueOf name .list).bind fun w _ => ?_
  split
  · split
    · trivial
    · exact ⟨rfl, nofun⟩
  · trivial

theorem stepOutcome_removeKey (key : String) : StepOutcome s (s.removeKey name key) := by
  refine (s.stepOutcome_valueOf name .mapping).bind fun w _ => ?_
  split
  · split
    · trivial
    · exact ⟨rfl, nofun⟩
  · exact ⟨rfl, nofun⟩

theorem stepOutcome_popFront : StepOutcome s (s.popFront name) := by
  refine (s.stepOutcome_valueOf name .list).bind fun w _ => ?_
  split
  · trivial
  · exact ⟨rfl, nofun⟩

theorem stepOutcome_access (d : Document) :
    ∀ (v : Value) (segments : List String), StepOutcome s (access d name v segments)
  | _, [] => trivial
  | v, segment :: rest => by
    unfold access
    split
    · exact stepOutcome_access d _ rest
    · exact ⟨rfl, nofun⟩

theorem stepOutcome_resolve (d : Document) (o : Operand) : StepOutcome s (s.resolve d o) := by
  cases o with
  | literal t => trivial
  | var name => exact (s.stepOutcome_value name).bind fun _ _ => trivial
  | path name segments =>
    exact (s.stepOutcome_value name).bind fun v _ =>
      (s.stepOutcome_access name d v segments).bind fun _ _ => trivial
  | pop name => exact s.stepOutcome_popFront name

end Store

variable {s : Store}

/-! ## Projections -/

theorem Column.stepOutcome_resolve (d : Document) (s : Store) (c : Column) :
    StepOutcome s (c.resolve d s).1 := by
  have h := s.stepOutcome_resolve d c.source
  cases hr : s.resolve d c.source with
  | ok r =>
    rw [Column.resolve_of_ok hr]
    trivial
  | error f =>
    rw [Column.resolve_of_error hr]
    rwa [hr] at h

theorem Document.stepOutcome_tableAt (d : Document) (source : NodeId) (filter : Filter) :
    StepOutcome s (d.tableAt source filter) := by
  unfold tableAt
  split
  · trivial
  · split
    · trivial
    · exact ⟨rfl, nofun⟩

namespace Table

variable (d : Document)

theorem stepOutcome_project (source : NodeId) (filter : Filter) (constants : List (String × String))
    (enforce : Option Nat) : StepOutcome s (project d source filter constants enforce) := by
  refine (d.stepOutcome_tableAt source filter).bind fun table _ => ?_
  dsimp only
  split <;> trivial

theorem stepOutcome_ofNodes (nodes : List NodeId) (filter : Filter)
    (constants : List (String × String)) (enforce : Option Nat) :
    StepOutcome s (ofNodes d nodes filter constants enforce) := by
  refine (stepOutcome_mapM (fun i => stepOutcome_project d i filter constants enforce) nodes).bind
    fun tables _ => ?_
  split
  · exact ⟨rfl, nofun⟩
  · trivial

theorem stepOutcome_nodeOf (column : String) (branch : List NodeId) (index : Nat) :
    StepOutcome s (nodeOf column branch index) := by
  unfold nodeOf
  split
  · trivial
  · exact ⟨rfl, nofun⟩

theorem stepOutcome_branchValue (s : Store) (branch : List NodeId) (c : Column) :
    StepOutcome s (branchValue d s branch c).1 := by
  unfold branchValue
  split
  · exact (stepOutcome_nodeOf c.name branch _).map fun _ _ => trivial
  · exact c.stepOutcome_resolve d s

theorem stepOutcome_ofBranchWith (branch : List NodeId) (tableIndex : Option Nat)
    (constants : List (String × String)) :
    StepOutcome s (ofBranchWith d branch tableIndex constants) := by
  unfold ofBranchWith
  split
  · trivial
  · refine (stepOutcome_nodeOf "idxOfHtmlTable" branch _).bind fun i _ => ?_
    split
    · exact stepOutcome_project d i .any constants none
    · exact ⟨rfl, nofun⟩

end Table

/-! ## Nodes and hierarchies -/

theorem NodeQuery.stepOutcome_result (q : NodeQuery) (d : Document) (scope : NodeId) :
    StepOutcome s (q.result d scope) := by
  unfold result
  dsimp only
  split
  · trivial
  · split
    · trivial
    · exact ⟨rfl, nofun⟩

theorem Marker.stepOutcome_find (m : Marker) (d : Document) (nodes : List NodeId) (start : Nat) :
    StepOutcome s (m.find d nodes start) := by
  unfold find
  split
  · trivial
  · exact ⟨rfl, nofun⟩

theorem Document.stepOutcome_slice (d : Document) (root : NodeId) (start stop : Option Marker) :
    StepOutcome s (d.slice root start stop) :=
  match start, stop with
  | none, none => trivial
  | none, some m => (m.stepOutcome_find d _ _).bind fun _ _ => trivial
  | some m, none => (m.stepOutcome_find d _ _).bind fun _ _ => trivial
  | some m, some m' =>
    (m.stepOutcome_find d _ _).bind fun _ _ => (m'.stepOutcome_find d _ _).bind fun _ _ => trivial

theorem Hierarchy.stepOutcome_build (d : Document) (root : NodeId) (start stop : Option Marker)
    (levels : Levels) : StepOutcome s (build d root start stop levels) :=
  (d.stepOutcome_slice root start stop).bind fun _ _ => trivial

/-! ## Inputs of actions -/

namespace Action

variable (a : Action) (input : Value)

theorem stepOutcome_nodeInput : StepOutcome s (a.nodeInput input) := by
  unfold nodeInput
  split
  · trivial
  · exact ⟨rfl, nofun⟩

theorem stepOutcome_textInput : StepOutcome s (a.textInput input) := by
  unfold textInput
  split
  · trivial
  · exact ⟨rfl, nofun⟩

theorem stepOutcome_tableInput : StepOutcome s (tableInput input) := by
  unfold tableInput
  split
  · trivial
  · trivial
  · exact ⟨rfl, nofun⟩

theorem stepOutcome_branchInput : StepOutcome s (branchInput input) := by
  unfold branchInput
  split
  · trivial
  · trivial
  · exact ⟨rfl, nofun⟩

theorem stepOutcome_contentOf (d : Document) (kind : FileKind) :
    StepOutcome s (contentOf d kind input) := by
  unfold contentOf
  split
  · trivial
  · exact ⟨rfl, nofun⟩
  · trivial

end Action

end Gleaner
