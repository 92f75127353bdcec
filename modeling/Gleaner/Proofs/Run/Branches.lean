import Gleaner.Markup.Event
import Gleaner.Proofs.Flow.Program
import Gleaner.Proofs.Hierarchy.Walk

/-!
# Steps that run many times

A step that runs for the branches of a hierarchy does what it does in a loop over the list
of these branches: it comes to the same result, leaves the same variables and asks for the
same writes. A loop can be cut in two anywhere, the second part going on from where the
first one ended.

* `Mode.inputs?_branches`: the branches of a walk as the elements of a list;
* `Run.each_append`: a loop over two lists, one after the other;
* `Flow.runBelow_step_of_some`: a step by the inputs that it runs for;
* `Flow.branches_as_loop`: the statement for steps.
-/

namespace Gleaner

variable {σ : Type}

/-! ## Loops -/

namespace Run

variable (body : Value → Run σ Value)

/-- A loop over two lists goes on with the second one where it has come with the first. -/
theorem each_append : ∀ (xs ys : List Value) (last : Value),
    each body last (xs ++ ys) = do
      let last ← each body last xs
      each body last ys
  | [], _, _ => (pure_bind _ _).symm
  | v :: xs, ys, last => by
    simp only [List.cons_append, each, bind_assoc]
    exact bind_congr fun last => each_append xs ys last

/-- One turn of a loop, with the turns before and after it. -/
theorem each_of_getElem? {vs : List Value} {v : Value} {i : Nat} (h : vs[i]? = some v)
    (last : Value) :
    each body last vs = (do
      let _ ← each body last (vs.take i)
      let last ← body v
      each body last (vs.drop (i + 1))) := by
  obtain ⟨hi, rfl⟩ := List.getElem?_eq_some_iff.mp h
  have hsplit : vs = vs.take i ++ vs[i] :: vs.drop (i + 1) := by
    rw [← List.drop_eq_getElem_cons, List.take_append_drop]
  calc
    each body last vs = each body last (vs.take i ++ vs[i] :: vs.drop (i + 1)) := by rw [← hsplit]
    _ = _ := each_append body _ _ _

/-- The result before a loop is only of use if the loop runs for nothing. -/
theorem each_eq (last : Value) (vs : List Value) :
    each body last vs = if vs.isEmpty then pure last else each body .null vs := by
  cases vs <;> rfl

end Run

/-! ## Inputs -/

/-- A walk over a hierarchy runs a body for what a loop over the list of its paths runs it
for. -/
theorem Mode.inputs?_branches (t : Hierarchy) :
    branches.inputs? (.hierarchy t) = loop.inputs? (.list (t.paths.map .branch)) := by
  rw [← Hierarchy.branches_eq_paths]
  rfl

namespace Flow

/-! ## Steps -/

variable (action : Action) {mode mode' : Mode} (below : Flow) {above above' : Value}
  {inputs : List Value} (last : Value)

/-- A step below a result runs for each of the inputs that its mode makes of the result. -/
theorem runBelow_step_of_some (e : Setting σ) (h : mode.inputs? above = some inputs) :
    (step action mode below nil).runBelow e above last =
      Run.each (runStep e action below) .null inputs := by
  unfold runBelow
  rw [Mode.spread_of_some h]
  exact bind_pure _

theorem programBelow_step_congr (d : Document) (h : mode.inputs? above = some inputs)
    (h' : mode'.inputs? above' = some inputs) :
    (step action mode below nil).programBelow d above last =
      (step action mode' below nil).programBelow d above' last := by
  unfold programBelow Mode.program
  rw [h, h']
  rfl

/-- For the branches of a hierarchy a step does the same as in a loop over the list of the
paths of the hierarchy, with the same result or fault, the same variables and the same sink
in the end, and the same writes on the way, whatever becomes of them. A loop over a value
does the same as one over its first elements and, if that succeeds, one over the others;
the result is that of the second one, unless there are no others. -/
theorem branches_as_loop :
    (∀ t : Hierarchy,
      (∀ {σ : Type} (e : Setting σ),
        (step action .branches below nil).runBelow e (.hierarchy t) last =
          (step action .loop below nil).runBelow e (.list (t.paths.map .branch)) last) ∧
      ∀ {σ : Type} (e : Host σ) (m : Machine σ),
        ((step action .branches below nil).programBelow e.document (.hierarchy t) last).writes e m =
          ((step action .loop below nil).programBelow e.document (.list (t.paths.map .branch))
            last).writes e m) ∧
    ∀ {σ : Type} (e : Setting σ) {v v₁ v₂ : Value} {xs ys : List Value},
      v.elements? = some (xs ++ ys) → v₁.elements? = some xs → v₂.elements? = some ys →
        (step action .loop below nil).runBelow e v last = (do
          let r ← (step action .loop below nil).runBelow e v₁ last
          if ys.isEmpty then return r
          else (step action .loop below nil).runBelow e v₂ last) := by
  constructor
  · intro t
    have hloop : Mode.loop.inputs? (.list (t.paths.map .branch)) = some (t.paths.map .branch) := rfl
    have hbranches := (Mode.inputs?_branches t).trans hloop
    refine ⟨fun e => ?_, fun e m => ?_⟩
    · rw [runBelow_step_of_some action below last e hloop,
        runBelow_step_of_some action below last e hbranches]
    · rw [programBelow_step_congr action below last e.document hbranches hloop]
  · intro σ e v v₁ v₂ xs ys h h₁ h₂
    have hloop : ∀ {v : Value} {inputs : List Value}, v.elements? = some inputs →
        (step action .loop below nil).runBelow e v last =
          Run.each (runStep e action below) .null inputs :=
      fun h => runBelow_step_of_some action below last e h
    rw [hloop h, hloop h₁, hloop h₂, Run.each_append]
    exact bind_congr fun r => Run.each_eq _ r ys

/-- A step that moves an element of a queue to a list. -/
def movingOne (mode : Mode) : Flow :=
  step (.add ⟨"seen", .list, none, some (.pop "queue")⟩) mode nil nil

/-- The variables of these steps: the queue has two elements. -/
def twoStore : Store :=
  ⟨[("queue", ⟨.list, .list [.text "a", .text "b"]⟩), ("seen", ⟨.list, .list []⟩)]⟩

/-- A hierarchy of three leaves. -/
def threeLeaves : Hierarchy :=
  .node 1 (.leaves [2, 3] .empty) (.leaves [4] .empty)

/-- The queue has nothing left for the third branch, so the walk over the branches ends with a
fault, as the loop over the three paths does. That loop has two parts, of which the first one
succeeds. -/
theorem branches_as_loop_moving :
    ((movingOne .branches).runBelow ⟨.ofEvents [], .listing⟩ (.hierarchy threeLeaves) .null).start
        ⟨twoStore, []⟩ =
      ((do
        let r ← (movingOne .loop).runBelow ⟨.ofEvents [], .listing⟩
          (.list [.branch [1, 2], .branch [1, 3]]) .null
        if [Value.branch [4]].isEmpty then return r
        else (movingOne .loop).runBelow ⟨.ofEvents [], .listing⟩ (.list [.branch [4]]) .null :
          Run (List Saved) Value).start ⟨twoStore, []⟩) ∧
    ((movingOne .branches).runBelow ⟨.ofEvents [], .listing⟩ (.hierarchy threeLeaves) .null).start
        ⟨twoStore, []⟩ =
      (.error (.exhausted "queue"), ⟨⟨[("queue", ⟨.list, .list []⟩),
        ("seen", ⟨.list, .list [.text "a", .text "b"]⟩)]⟩, []⟩) := by
  have hpaths : threeLeaves.paths.map Value.branch =
      [.branch [1, 2], .branch [1, 3]] ++ [.branch [4]] := by decide
  obtain ⟨hwalk, hparts⟩ :=
    branches_as_loop (.add ⟨"seen", .list, none, some (.pop "queue")⟩) nil .null
  unfold movingOne
  rw [(hwalk threeLeaves).1, hpaths]
  refine ⟨?_, ?_⟩
  · have helements : ∀ vs : List Value, (Value.list vs).elements? = some vs := fun _ => rfl
    rw [hparts ⟨.ofEvents [], .listing⟩ (helements _) (helements _) (helements _)]
  · rfl

end Flow

end Gleaner
